import M68kEmu.Lib.Limbs
import M68kEmu.Semantics.Extended

/-!
# Multi-precision arithmetic

`ADDX -(Ay),-(Ax)` and `SUBX -(Ay),-(Ax)`, executed `n` times, add and subtract the numbers of `n`
operands below the two address registers, for bytes and words.  One execution combines one limb
(`LimbStep`); after `k` executions the low `k` limbs are a chain of carries (`Chained`), which the
next one extends; `n` executions are the whole number.
-/

namespace M68kEmu

open Limbs Outcome

/-! ### One limb -/

/-- The object of `ADDX` and `SUBX` with the operands `-(Ay), -(Ax)`. -/
def predecrementPair (size : DataSize) (x y : ℕ) : TwoOperand :=
  { destMode := .indirectPredecrement, destReg := x, dataSize := some size
    srcMode := .indirectPredecrement, srcReg := y }

/-- One execution: the destination operand below `Ax` becomes `sum`. -/
structure LimbStep (size : DataSize) (x y : ℕ) (sum : BitVec 32) (s t : CPUState BaseMemory) :
    Prop where
  memory : t.memory = s.memory.write (s.reg x - size.toWord) size sum
  dest : t.reg x = s.reg x - size.toWord
  src : t.reg y = s.reg y - size.toWord
  extend : t.registers.getFlag .extend = decide (2 ^ size.bits ≤ sum.toNat)
  carry : t.registers.getFlag .carry = decide (2 ^ size.bits ≤ sum.toNat)
  zero : t.registers.getFlag .zero =
    (s.registers.getFlag .zero && decide (sum.setWidth size.bits = 0))

section Limb

variable {s t : CPUState BaseMemory} {size : DataSize} {x y : ℕ}

theorem setExtendedFlags_ok (size : DataSize) (src dest sum : BitVec 32) (s : CPUState BaseMemory) :
    ∃ t, setExtendedFlags size src dest sum s = .ok () t := by
  by_cases hz : isZero (sum.setWidth 64) size = true
  · exact ⟨_, by simp [setExtendedFlags, hz]; rfl⟩
  · exact ⟨_, by simp [setExtendedFlags, hz]; rfl⟩

theorem decremented_of_ne {r : ℕ} (h : r ≠ regA7) (addr : BitVec 32) :
    decremented r size addr = addr - size.toWord :=
  if_neg fun h' => h h'.1

/-- The state before the flags: the opcode and both operands are passed, and the sum is stored. -/
def CPUState.limbStored (s : CPUState BaseMemory) (size : DataSize) (x y : ℕ) (sum : BitVec 32) :
    CPUState BaseMemory :=
  (((s.withReg regPC (s.reg regPC + 2)).withReg y (s.reg y - size.toWord)).stored
    (s.reg x - size.toWord) size sum).withReg x (s.reg x - size.toWord)

/-- One execution on accessible operands, up to the flags. -/
theorem extendedArithmetic_predecrement (hx : x < 15) (hy : y < 15) (hxy : x ≠ y)
    (hdest : s.memory.Accessible (s.reg x - size.toWord) size)
    (hsrc : s.memory.Accessible (s.reg y - size.toWord) size) {src dest sum : BitVec 32}
    {op : BitVec 32 → BitVec 32 → BitVec 32 → BitVec 32}
    (hsrc' : s.memory.read (s.reg y - size.toWord) size = src)
    (hdest' : s.memory.read (s.reg x - size.toWord) size = dest)
    (hsum : op src dest s.extendData = sum) :
    extendedArithmetic .cpuState (predecrementPair size x y) op s =
      setExtendedFlags size src dest sum (s.limbStored size x y sum) := by
  have hnx : Named x := named_of_lt (by omega)
  have hny : Named y := named_of_lt (by omega)
  have hxpc : x ≠ regPC := by simp only [regPC]; omega
  have hypc : y ≠ regPC := by simp only [regPC]; omega
  have hxa7 : x ≠ regA7 := by simp only [regA7]; omega
  have hya7 : y ≠ regA7 := by simp only [regA7]; omega
  obtain ⟨s₀, hs₀⟩ : ∃ s₀, s₀ = s.withReg regPC (s.reg regPC + 2) := ⟨_, rfl⟩
  have hy₀ : decremented y size (s₀.reg y) = s.reg y - size.toWord := by
    rw [hs₀, CPUState.reg_withReg_of_ne named_regPC hny hypc, decremented_of_ne hya7]
  have hget :
      CPUState.getData .indirectPredecrement y size s₀ =
      .ok src (s₀.withReg y (s.reg y - size.toWord)) := by
    have hmem₀ : s₀.memory = s.memory := by rw [hs₀]; rfl
    rw [getData_predecrement hny (by rwa [hy₀, hmem₀]), hy₀, hmem₀, hsrc']
  obtain ⟨s₁, hs₁⟩ : ∃ s₁, s₁ = s₀.withReg y (s.reg y - size.toWord) := ⟨_, rfl⟩
  have hx₁ : decremented x size (s₁.reg x) = s.reg x - size.toWord := by
    rw [hs₁, CPUState.reg_withReg_of_ne hny hnx hxy, hs₀,
      CPUState.reg_withReg_of_ne named_regPC hnx hxpc, decremented_of_ne hxa7]
  have hmem₁ : s₁.memory = s.memory := by rw [hs₁, hs₀]; rfl
  have hsilent : CPUState.getDataSilent .indirectPredecrement x size s₁ = .ok dest s₁ := by
    rw [CPUState.getDataSilent, bind_of_ok (getReg_long hnx), hx₁,
      memGet_of_accessible (by rwa [hmem₁]), hmem₁, hdest']
  have hset :
      CPUState.setData .indirectPredecrement x size sum s₁ =
      .ok () (s.limbStored size x y sum) := by
    rw [setData_predecrement hnx (by rwa [hx₁, hmem₁]), hx₁, hs₁, hs₀]
    rfl
  have hflag : getFlag .extend s₀ = .ok (s.registers.getFlag .extend) s₀ := by
    rw [getFlag, hs₀, getFlag_withReg named_regPC]
  rw [extendedArithmetic_eq, bind_of_ok (skipOpcode_apply s), ← hs₀, predecrementPair,
    readSize, pure_bind, bind_of_ok hflag]
  change (CPUState.getData .indirectPredecrement y size >>= fun srcData =>
    CPUState.getDataSilent .indirectPredecrement x size >>= fun destData =>
      CPUState.setData .indirectPredecrement x size (op srcData destData s.extendData) >>= fun _ =>
        setExtendedFlags size srcData destData (op srcData destData s.extendData)) s₀ = _
  rw [bind_of_ok hget, ← hs₁, bind_of_ok hsilent, hsum, bind_of_ok hset]

/-- One execution on accessible operands. -/
theorem limbStep (hx : x < 15) (hy : y < 15) (hxy : x ≠ y)
    (hdest : s.memory.Accessible (s.reg x - size.toWord) size)
    (hsrc : s.memory.Accessible (s.reg y - size.toWord) size)
    (op : BitVec 32 → BitVec 32 → BitVec 32 → BitVec 32) :
    ∃ t, extendedArithmetic .cpuState (predecrementPair size x y) op s = .ok () t ∧
      LimbStep size x y
        (op (s.memory.read (s.reg y - size.toWord) size)
        (s.memory.read (s.reg x - size.toWord) size) s.extendData) s t := by
  have hnx : Named x := named_of_lt (by omega)
  have hny : Named y := named_of_lt (by omega)
  obtain ⟨sum, hsum⟩ : ∃ sum, op (s.memory.read (s.reg y - size.toWord) size)
      (s.memory.read (s.reg x - size.toWord) size) s.extendData = sum := ⟨_, rfl⟩
  obtain ⟨t, ht⟩ := setExtendedFlags_ok size (s.memory.read (s.reg y - size.toWord) size)
    (s.memory.read (s.reg x - size.toWord) size) sum (s.limbStored size x y sum)
  have hflags := extendedFlags_of_eq_ok ht
  rw [hsum]
  refine ⟨t, ?_, ?_, ?_, ?_, hflags.extend, hflags.carry, ?_⟩
  · rw [extendedArithmetic_predecrement hx hy hxy hdest hsrc rfl rfl hsum, ht]
  · rw [hflags.memory]
    rfl
  · rw [hflags.reg x hnx, CPUState.limbStored, CPUState.reg_withReg_self hnx]
  · rw [hflags.reg y hny, CPUState.limbStored, CPUState.reg_withReg_of_ne hnx hny hxy.symm,
      CPUState.reg_stored, CPUState.reg_withReg_self hny]
  · rw [hflags.zero, CPUState.limbStored, getFlag_withReg hnx]
    congr 1
    exact (getFlag_withReg hny _ _).trans (getFlag_withReg named_regPC _ _)

end Limb

/-- The sum or the difference of one limb, with the carry that comes in and the one
that goes out. -/
def LimbLaw (ε : ℤ) (size : DataSize) (op : BitVec 32 → BitVec 32 → BitVec 32 → BitVec 32) : Prop :=
  ∀ src dest c : BitVec 32, src.toNat < 2 ^ size.bits → dest.toNat < 2 ^ size.bits →
    c.toNat = 0 ∨ c.toNat = 1 →
    (((op src dest c).toNat % 2 ^ size.bits : ℕ) : ℤ) = dest.toNat + ε * (src.toNat + c.toNat -
      2 ^ size.bits * if 2 ^ size.bits ≤ (op src dest c).toNat then 1 else 0)

theorem limbLaw_add {size : DataSize} (hsize : size ≠ .long) :
    LimbLaw 1 size fun src dest extend => src + dest + extend := by
  intro src dest c hsrc hdest hc
  dsimp only
  rw [BitVec.toNat_add, BitVec.toNat_add]
  cases size <;> simp only [DataSize.bits, DataSize.bytes] at hsrc hdest hsize ⊢
  case byte => split_ifs <;> omega
  case word => split_ifs <;> omega
  case long => exact absurd rfl hsize

theorem limbLaw_sub {size : DataSize} (hsize : size ≠ .long) :
    LimbLaw (-1) size fun src dest extend => dest - src - extend := by
  intro src dest c hsrc hdest hc
  dsimp only
  rw [BitVec.toNat_sub, BitVec.toNat_sub]
  cases size <;> simp only [DataSize.bits, DataSize.bytes] at hsrc hdest hsize ⊢
  case byte => split_ifs <;> omega
  case word => split_ifs <;> omega
  case long => exact absurd rfl hsize

/-! ### The operands below a register -/

/-- The address of the lowest of the `len` bytes below `v`. -/
def lowest (v : BitVec 32) (len : ℕ) : ℕ := maskAddr (v - BitVec.ofNat 32 len).toNat

/-- The `n` operands below `v` can be accessed, and the addresses of their bytes do
not wrap around. -/
structure Region (mem : BaseMemory) (v : BitVec 32) (size : DataSize) (n : ℕ) : Prop where
  accessible : ∀ k < n, mem.Accessible (v - BitVec.ofNat 32 ((k + 1) * size.bytes)) size
  unwrapped : lowest v (n * size.bytes) + n * size.bytes ≤ 2 ^ 24

theorem maskAddr_below {v : BitVec 32} {m len : ℕ} (h : lowest v (m + len) + (m + len) ≤ 2 ^ 24)
    (hlen : 0 < len) : maskAddr (v - BitVec.ofNat 32 len).toNat = lowest v (m + len) + m := by
  simp only [lowest, maskAddr_eq_mod, BitVec.toNat_sub, BitVec.toNat_ofNat] at h ⊢
  omega

theorem sub_ofNat_sub (v : BitVec 32) (k : ℕ) (size : DataSize) :
    v - BitVec.ofNat 32 (k * size.bytes) - size.toWord = v - BitVec.ofNat 32
      ((k + 1) * size.bytes) := by
  rw [Nat.succ_mul, sub_ofNat_add, DataSize.toWord]

/-! ### The chain -/

/-- After `k` executions from `s`, with `m` operands left: `a` and `b` are the lowest addresses of
the two regions. -/
structure Chained (ε : ℤ) (size : DataSize) (x y a b m k : ℕ) (s t : CPUState BaseMemory) :
    Prop where
  memSize : t.memory.memSize = s.memory.memSize
  dest : t.reg x = s.reg x - BitVec.ofNat 32 (k * size.bytes)
  src : t.reg y = s.reg y - BitVec.ofNat 32 (k * size.bytes)
  outside : ∀ i, i < a + m * size.bytes ∨ a + m * size.bytes + k * size.bytes ≤ i →
    t.memory.baseAddr i = s.memory.baseAddr i
  value : (number t.memory.baseAddr (a + m * size.bytes) (k * size.bytes) : ℤ) =
    number s.memory.baseAddr (a + m * size.bytes) (k * size.bytes) +
      ε * (number s.memory.baseAddr (b + m * size.bytes) (k * size.bytes) + s.extendData.toNat -
        256 ^ (k * size.bytes) * t.extendData.toNat)
  zero : t.registers.getFlag .zero = (s.registers.getFlag .zero &&
    decide (number t.memory.baseAddr (a + m * size.bytes) (k * size.bytes) = 0))
  carry : 0 < k → t.registers.getFlag .carry = t.registers.getFlag .extend

theorem Chained.start (ε : ℤ) (size : DataSize) (x y a b n : ℕ) (s : CPUState BaseMemory) :
    Chained ε size x y a b n 0 s s where
  memSize := rfl
  dest := by simp
  src := by simp
  outside _ _ := rfl
  value := by simp [number]
  zero := by simp [number]
  carry h := absurd h (Nat.lt_irrefl 0)

section Chain

variable {ε : ℤ} {size : DataSize} {x y a b m k : ℕ} {s t u : CPUState BaseMemory}
    {op : BitVec 32 → BitVec 32 → BitVec 32 → BitVec 32}

theorem toNat_extendData (t : CPUState BaseMemory) (p : Prop) [Decidable p]
    (h : t.registers.getFlag .extend = decide p) :
    (t.extendData.toNat : ℤ) = if p then 1 else 0 := by
  rw [CPUState.extendData, h]
  by_cases hp : p <;> simp [hp]

/-- A limb that the chain has not reached is as it was. -/
theorem Chained.read_eq (h : Chained ε size x y a b m k s t) {addr : ℕ} {v : BitVec 32}
    (hv : maskAddr v.toNat = addr)
    (hout : addr + size.bytes ≤ a + m * size.bytes ∨ a + m * size.bytes + k * size.bytes ≤ addr) :
    (t.memory.read v size).toNat = number s.memory.baseAddr addr size.bytes := by
  rw [BaseMemory.read, hv, toNat_readRealMem_eq_number]
  exact number_congr fun i hi hi' => h.outside i (by omega)

/-- The number that the limb is the top of, after the limb is written. -/
theorem LimbStep.number_eq {sum : BitVec 32} {addr : ℕ} (h : LimbStep size x y sum t u)
    (hx : maskAddr (t.reg x - size.toWord).toNat = addr) (len : ℕ) :
    number u.memory.baseAddr addr (size.bytes + len) =
      sum.toNat % 2 ^ size.bits * 256 ^ len + number t.memory.baseAddr (addr + size.bytes) len := by
  have hmem : u.memory.baseAddr = writeRealMem t.memory.baseAddr addr sum size := by
    rw [h.memory, BaseMemory.write, hx]
  rw [number_append, hmem, ← toNat_readRealMem_eq_number, toNat_readRealMem_writeRealMem]
  congr 1
  exact number_congr fun i hi hi' => writeRealMem_of_outside (.inr hi)

/-- One more limb. -/
theorem Chained.succ (hlaw : LimbLaw ε size op) (h : Chained ε size x y a b (m + 1) k s t)
    (hdisjoint : a + (m + 1 + k) * size.bytes ≤ b ∨ b + (m + 1 + k) * size.bytes ≤ a)
    (hx : maskAddr (t.reg x - size.toWord).toNat = a + m * size.bytes)
    (hy : maskAddr (t.reg y - size.toWord).toNat = b + m * size.bytes)
    (hstep : LimbStep size x y (op (t.memory.read (t.reg y - size.toWord) size)
      (t.memory.read (t.reg x - size.toWord) size) t.extendData) t u) :
    Chained ε size x y a b m (k + 1) s u := by
  have hpow : (256 : ℤ) ^ size.bytes = 2 ^ size.bits := by exact_mod_cast pow_bytes size
  have hlen : (m + 1) * size.bytes = m * size.bytes + size.bytes := Nat.succ_mul m size.bytes
  have hk : (k + 1) * size.bytes = size.bytes + k * size.bytes := by rw [Nat.succ_mul, Nat.add_comm]
  rw [Nat.add_mul, hlen] at hdisjoint
  have hdest := h.read_eq hx (by rw [hlen]; omega)
  have hsrc := h.read_eq hy (by rw [hlen]; omega)
  have hlimb :=
    hlaw (t.memory.read (t.reg y - size.toWord) size) (t.memory.read (t.reg x - size.toWord) size)
    t.extendData readRealMem_lt readRealMem_lt (extendData_cases t)
  have hnumber := hstep.number_eq hx (k * size.bytes)
  generalize op (t.memory.read (t.reg y - size.toWord) size)
    (t.memory.read (t.reg x - size.toWord) size) t.extendData = sum at hstep hlimb hnumber
  rw [hdest, hsrc, ← toNat_extendData u _ hstep.extend] at hlimb
  have hlow := h.value
  have hzero := h.zero
  rw [hlen, ← Nat.add_assoc a] at hlow hzero
  rw [← Nat.add_assoc b] at hlow
  refine ⟨?_, ?_, ?_, fun i hi => ?_, ?_, ?_, fun _ => hstep.carry.trans hstep.extend.symm⟩
  · rw [hstep.memory, BaseMemory.memSize_write, h.memSize]
  · rw [hstep.dest, h.dest, sub_ofNat_sub]
  · rw [hstep.src, h.src, sub_ofNat_sub]
  · have hunwritten : u.memory.baseAddr i = t.memory.baseAddr i := by
      rw [hstep.memory, BaseMemory.write, hx]
      exact writeRealMem_of_outside (by omega)
    rw [hunwritten, h.outside i (by rw [hlen]; omega)]
  · have hchain := chain_succ hlow hlimb
    rw [hk, hnumber, number_append, number_append, pow_add, hpow]
    push_cast at hchain ⊢
    exact hchain
  · rw [hstep.zero, hzero, hk, hnumber, Bool.and_assoc, ← Bool.decide_and]
    congr 1
    rw [decide_eq_decide, ← BitVec.toNat_inj, BitVec.toNat_setWidth]
    simp [and_comm]

end Chain

/-! ### The whole number -/

/-- The instruction, executed `n` times. -/
def executeTimes (d : Derived) : ℕ → CpuM BaseMemory Unit
  | 0 => pure ()
  | n + 1 => do
    executeTimes d n
    d.execute .cpuState

/-- `Ax` and `Ay` are different address registers below `A7`, and the `n` operands below
them do not overlap. -/
structure Separate (size : DataSize) (x y n : ℕ) (s : CPUState BaseMemory) : Prop where
  dest : 8 ≤ x ∧ x < 15
  src : 8 ≤ y ∧ y < 15
  ne : x ≠ y
  destRegion : Region s.memory (s.reg x) size n
  srcRegion : Region s.memory (s.reg y) size n
  disjoint : lowest (s.reg x) (n * size.bytes) + n * size.bytes ≤
    lowest (s.reg y) (n * size.bytes) ∨
    lowest (s.reg y) (n * size.bytes) + n * size.bytes ≤ lowest (s.reg x) (n * size.bytes)

/-- The number in the `len` bytes below the register, as it is in `s`, in the memory of `t`. -/
def numberBelow (s : CPUState BaseMemory) (r len : ℕ) (t : CPUState BaseMemory) : ℕ :=
  number t.memory.baseAddr (lowest (s.reg r) len) len

/-- The number below `Ax` has become `result`, with the flags of the whole operation, and the number
below `Ay` is as it was. -/
structure MultiPrecise (size : DataSize) (x y n : ℕ) (result : ℤ) (carry : Prop)
    (s t : CPUState BaseMemory) : Prop where
  value : (numberBelow s x (n * size.bytes) t : ℤ) = result % 2 ^ (8 * (n * size.bytes))
  extend : t.registers.getFlag .extend = true ↔ carry
  carry : t.registers.getFlag .carry = true ↔ carry
  zero : t.registers.getFlag .zero = true ↔
    s.registers.getFlag .zero = true ∧ numberBelow s x (n * size.bytes) t = 0
  dest : t.reg x = s.reg x - BitVec.ofNat 32 (n * size.bytes)
  src : t.reg y = s.reg y - BitVec.ofNat 32 (n * size.bytes)
  memSize : t.memory.memSize = s.memory.memSize
  outside : ∀ i, i < lowest (s.reg x) (n * size.bytes) ∨ lowest (s.reg x) (n * size.bytes) +
    n * size.bytes ≤ i → t.memory.baseAddr i = s.memory.baseAddr i
  other : ∀ i, lowest (s.reg y) (n * size.bytes) ≤ i → i < lowest (s.reg y) (n * size.bytes) +
    n * size.bytes → t.memory.baseAddr i = s.memory.baseAddr i

section Whole

variable {ε : ℤ} {size : DataSize} {x y n : ℕ} {s t : CPUState BaseMemory}
    {op : BitVec 32 → BitVec 32 → BitVec 32 → BitVec 32} {d : Derived}

/-- `k` executions leave a chain of `k` limbs. -/
theorem chained_executeTimes (h : Separate size x y n s) (hlaw : LimbLaw ε size op)
    (hd : d.execute .cpuState = extendedArithmetic (M := BaseMemory) .cpuState
      (predecrementPair size x y) op) (k m : ℕ) (hk : m + k = n) :
    ∃ t, executeTimes d k s = .ok () t ∧
      Chained ε size x y (lowest (s.reg x) (n * size.bytes))
      (lowest (s.reg y) (n * size.bytes)) m k s t := by
  induction k generalizing m with
  | zero =>
    obtain rfl : m = n := hk
    exact ⟨s, rfl, .start _ _ _ _ _ _ _ _⟩
  | succ k ih =>
    obtain ⟨t, ht, hchain⟩ := ih (m + 1) (by omega)
    have hlen : n * size.bytes = m * size.bytes + (k + 1) * size.bytes := by rw [← hk, Nat.add_mul]
    have hpos : 0 < (k + 1) * size.bytes := Nat.mul_pos (Nat.succ_pos k) (by cases size <;> decide)
    have hdest : t.reg x - size.toWord = s.reg x - BitVec.ofNat 32 ((k + 1) * size.bytes) := by
      rw [hchain.dest, sub_ofNat_sub]
    have hsrc : t.reg y - size.toWord = s.reg y - BitVec.ofNat 32 ((k + 1) * size.bytes) := by
      rw [hchain.src, sub_ofNat_sub]
    have haccx : t.memory.Accessible (t.reg x - size.toWord) size := by
      rw [hdest, BaseMemory.accessible_congr hchain.memSize]
      exact h.destRegion.accessible k (by omega)
    have haccy : t.memory.Accessible (t.reg y - size.toWord) size := by
      rw [hsrc, BaseMemory.accessible_congr hchain.memSize]
      exact h.srcRegion.accessible k (by omega)
    obtain ⟨u, hu, hstep⟩ := limbStep h.dest.2 h.src.2 h.ne haccx haccy op
    have hmaskx : maskAddr (t.reg x - size.toWord).toNat = lowest (s.reg x) (n * size.bytes) +
        m * size.bytes := by
      have hunwrapped := h.destRegion.unwrapped
      rw [hlen] at hunwrapped ⊢
      rw [hdest, maskAddr_below hunwrapped hpos]
    have hmasky : maskAddr (t.reg y - size.toWord).toNat = lowest (s.reg y) (n * size.bytes) +
        m * size.bytes := by
      have hunwrapped := h.srcRegion.unwrapped
      rw [hlen] at hunwrapped ⊢
      rw [hsrc, maskAddr_below hunwrapped hpos]
    have hdisjoint := h.disjoint
    rw [show n = m + 1 + k by omega] at hdisjoint hmaskx hmasky hchain ⊢
    refine ⟨u, ?_, hchain.succ hlaw hdisjoint hmaskx hmasky hstep⟩
    rw [executeTimes, bind_of_ok ht, hd, hu]

theorem getFlag_extend_iff (t : CPUState BaseMemory) :
    t.registers.getFlag .extend = true ↔ (t.extendData.toNat : ℤ) = 1 := by
  rw [CPUState.extendData]
  rcases t.registers.getFlag .extend with _ | _ <;> decide

/-- The chain of all limbs, when its result and its last carry are known. -/
theorem Chained.multiPrecise {a b : ℕ} (hn : 1 ≤ n) (h : Separate size x y n s)
    (ha : lowest (s.reg x) (n * size.bytes) = a) (hb : lowest (s.reg y) (n * size.bytes) = b)
    (hchain : Chained ε size x y a b 0 n s t) {result : ℤ} {carry : Prop}
    (hvalue : (number t.memory.baseAddr a (n * size.bytes) : ℤ) = result % 256 ^ (n * size.bytes))
    (hcarry : (t.extendData.toNat : ℤ) = 1 ↔ carry) : MultiPrecise size x y n result carry s t := by
  have hzero : a + 0 * size.bytes = a := by rw [Nat.zero_mul, Nat.add_zero]
  have hpow : (2 : ℤ) ^ (8 * (n * size.bytes)) = 256 ^ (n * size.bytes) := by rw [pow_mul]; rfl
  have hextend : t.registers.getFlag .extend = true ↔ carry := (getFlag_extend_iff t).trans hcarry
  have hz := hchain.zero
  have hout := hchain.outside
  rw [hzero] at hz hout
  have hdisjoint := h.disjoint
  rw [ha, hb] at hdisjoint
  refine ⟨?_, hextend, ?_, ?_, hchain.dest, hchain.src, hchain.memSize, ?_, ?_⟩
  · rw [numberBelow, ha, hvalue, hpow]
  · rw [hchain.carry hn, hextend]
  · rw [hz, numberBelow, ha, Bool.and_eq_true, decide_eq_true_eq]
  · rw [ha]
    exact hout
  · rw [hb]
    exact fun i hi hi' => hout i (by omega)

/-- Multi-precision arithmetic: `ADDX -(Ay),-(Ax)`, executed `n` times on bytes or words, adds the
numbers below `Ay` and `Ax` and the extend bit; `SUBX -(Ay),-(Ax)` subtracts the number below `Ay`
and the extend bit. -/
theorem multi_precision (opcode : BitVec 16) (size : DataSize) (hsize : size ≠ .long)
    (x y n : ℕ) (hn : 1 ≤ n) (s : CPUState BaseMemory) (h : Separate size x y n s) :
    let dest := numberBelow s x (n * size.bytes) s
    let src := numberBelow s y (n * size.bytes) s
    let extend := s.extendData.toNat
    ((decode opcode).derived = .addx (predecrementPair size x y) →
      ∃ t, executeTimes (decode opcode).derived n s = .ok () t ∧
        MultiPrecise size x y n (dest + src + extend) (2 ^ (8 * (n * size.bytes)) ≤ dest + src +
          extend) s t) ∧
    ((decode opcode).derived = .subx (predecrementPair size x y) →
      ∃ t, executeTimes (decode opcode).derived n s = .ok () t ∧
        MultiPrecise size x y n (dest - src - extend) (dest < src + extend) s t) := by
  obtain ⟨a, ha⟩ : ∃ a, lowest (s.reg x) (n * size.bytes) = a := ⟨_, rfl⟩
  obtain ⟨b, hb⟩ : ∃ b, lowest (s.reg y) (n * size.bytes) = b := ⟨_, rfl⟩
  have hpow : 2 ^ (8 * (n * size.bytes)) = 256 ^ (n * size.bytes) := by rw [pow_mul]; rfl
  have hbit (t : CPUState BaseMemory) :
      (t.extendData.toNat : ℤ) = 0 ∨ (t.extendData.toNat : ℤ) = 1 := by
    have := extendData_cases t
    omega
  have hlt (t : CPUState BaseMemory) :
      (number t.memory.baseAddr a (n * size.bytes) : ℤ) < 256 ^ (n * size.bytes) := by
    exact_mod_cast number_lt t.memory.baseAddr a (n * size.bytes)
  simp only [numberBelow, ha, hb, hpow]
  constructor
  · intro hd
    obtain ⟨t, ht, hchain⟩ :=
      chained_executeTimes (d := (decode opcode).derived) h (limbLaw_add hsize) (by rw [hd]; rfl)
      n 0 (Nat.zero_add n)
    rw [ha, hb] at hchain
    have hvalue := hchain.value
    simp only [Nat.zero_mul, Nat.add_zero] at hvalue
    obtain ⟨hresult, hcarry⟩ := chain_sum (S := number s.memory.baseAddr a (n * size.bytes) +
      number s.memory.baseAddr b (n * size.bytes) + s.extendData.toNat) (by rw [hvalue]; ring)
      (Int.natCast_nonneg _) (hlt t) (hbit t)
    refine ⟨t, ht, hchain.multiPrecise hn h ha hb hresult (hcarry.trans ?_)⟩
    norm_cast
  · intro hd
    obtain ⟨t, ht, hchain⟩ :=
      chained_executeTimes (d := (decode opcode).derived) h (limbLaw_sub hsize) (by rw [hd]; rfl)
      n 0 (Nat.zero_add n)
    rw [ha, hb] at hchain
    have hvalue := hchain.value
    simp only [Nat.zero_mul, Nat.add_zero] at hvalue
    obtain ⟨hresult, hcarry⟩ := chain_difference (S := number s.memory.baseAddr a (n * size.bytes) -
      number s.memory.baseAddr b (n * size.bytes) - s.extendData.toNat) (by rw [hvalue]; ring)
      (Int.natCast_nonneg _) (hlt t) (hbit t)
    refine ⟨t, ht, hchain.multiPrecise hn h ha hb hresult (hcarry.trans ?_)⟩
    omega

end Whole

/-- Two executions of `addx.w -(A0), -(A1)` add `0xFFFFFFFF`, below `A0`, to
`0x00010001`, below `A1`. -/
theorem multi_precision_two_words :
    let s := CPUState.simple [0xFF, 0xFF, 0xFF, 0xFF, 0x00, 0x01, 0x00, 0x01]
      fun i => if i = 8 then 4 else if i = 9 then 8 else 0
    ∃ t, executeTimes (decode 0xD348).derived 2 s = .ok () t ∧ numberBelow s 9 4 t = 0x00010000 ∧
      t.registers.getFlag .extend = true := by
  intro s
  have hdecode : (decode 0xD348).derived = .addx (predecrementPair .word 9 8) := by
    rw [decode_eq_opcodeEntry]
    rfl
  have hsep : Separate .word 9 8 2 s := by
    refine ⟨by decide, by decide, by decide, ⟨?_, ?_⟩, ⟨?_, ?_⟩, ?_⟩ <;> decide
  obtain ⟨t, ht, hprecise⟩ :=
    (multi_precision 0xD348 .word (by decide) 9 8 2 (by decide) s hsep).1 hdecode
  have hdest : numberBelow s 9 (2 * DataSize.word.bytes) s = 0x00010001 := by decide
  have hsrc : numberBelow s 8 (2 * DataSize.word.bytes) s = 0xFFFFFFFF := by decide
  have hextend : s.extendData.toNat = 0 := by decide
  rw [hdest, hsrc, hextend] at hprecise
  refine ⟨t, ht, ?_, hprecise.extend.2 (by decide)⟩
  have hvalue : (numberBelow s 9 4 t : ℤ) = (0x00010001 + 0xFFFFFFFF + 0) % 2 ^ 32 := hprecise.value
  omega

end M68kEmu
