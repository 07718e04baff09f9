import M68kEmu.Semantics.MemoryLaw
import M68kEmu.Semantics.MultiPrecision

/-!
# Block copies

`MOVE (Ay)+,(Ax)+`, executed `n` times, copies `n` operands.  One execution reads and advances the
source before it writes through the destination (`CopyStep`); after `k` executions the first `k`
operands are copied (`CopiedSoFar`), which the next one extends, as the operand that it reads has
not been overwritten.
-/

namespace M68kEmu

open ByteStore Outcome

/-! ### One operand -/

/-- The object of `MOVE (Ay)+,(Ax)+`. -/
def postincrementPair (size : DataSize) (x y : ℕ) : MoveOperand :=
  { destMode := .indirectPostincrement, destReg := x, dataSize := some size
    srcMode := .indirectPostincrement, srcReg := y, isMovea := false }

/-- One execution: the operand at `Ay` is copied to `Ax`, and both registers advance. -/
structure CopyStep (size : DataSize) (x y : ℕ) (s t : CPUState BaseMemory) : Prop where
  memory : t.memory = s.memory.write (s.reg x) size (s.memory.read (s.reg y) size)
  dest : t.reg x = s.reg x + size.toWord
  src : t.reg y = s.reg y + size.toWord
  others : ∀ r < 16, r ≠ x → r ≠ y → t.reg r = s.reg r

section Operand

variable {s : CPUState BaseMemory} {size : DataSize} {x y r : ℕ}

theorem incremented_of_size (h : size = .byte → r ≠ regA7) (addr : BitVec 32) :
    incremented r size addr = addr + size.toWord := by
  refine if_neg fun hodd => ?_
  cases size with
  | byte => exact h rfl hodd.1
  | word | long => exact hodd.2 (by decide)

theorem setData_postincrement {data : BitVec 32} (hn : Named r)
    (h : s.memory.Accessible (s.reg r) size) :
    CPUState.setData .indirectPostincrement r size data s =
      .ok () ((s.stored (s.reg r) size data).withReg r (incremented r size (s.reg r))) := by
  rw [CPUState.setData, bind_of_ok (getReg_long hn), bind_of_ok (memSet_of_accessible h),
    setReg_long hn]

/-- The flags of `Move`. -/
def setMoveFlags (size : DataSize) (srcData : BitVec 32) : CpuM BaseMemory Unit := do
  setFlag .negative (isNegative srcData size)
  setFlag .zero (srcData == 0)
  setFlag .overflow false
  setFlag .carry false

theorem setMoveFlags_ok (size : DataSize) (srcData : BitVec 32) (s : CPUState BaseMemory) :
    ∃ t, setMoveFlags size srcData s = .ok () t ∧ t.memory = s.memory ∧ ∀ r, Named r →
    t.reg r = s.reg r := by
  refine ⟨_, rfl, rfl, fun r hr => ?_⟩
  show (((((s.withFlag .negative _).withFlag .zero _).withFlag
    .overflow _).withFlag .carry _).reg r) = _
  rw [CPUState.reg_withFlag (by decide) hr, CPUState.reg_withFlag (by decide) hr,
    CPUState.reg_withFlag (by decide) hr, CPUState.reg_withFlag (by decide) hr]

/-- One execution on accessible operands. -/
theorem copyStep (hx : x < 16) (hy : y < 16) (hxy : x ≠ y) (hxsize : size = .byte → x ≠ regA7)
    (hysize : size = .byte → y ≠ regA7) (hdest : s.memory.Accessible (s.reg x) size)
    (hsrc : s.memory.Accessible (s.reg y) size) :
    ∃ t, (Derived.move (postincrementPair size x y)).execute .cpuState s = .ok () t ∧
    CopyStep size x y s t := by
  have hnx : Named x := named_of_lt hx
  have hny : Named y := named_of_lt hy
  obtain ⟨s₀, hs₀⟩ : ∃ s₀, s₀ = s.withReg regPC (s.reg regPC + 2) := ⟨_, rfl⟩
  have hreg₀ (r : ℕ) (hr : r < 16) : s₀.reg r = s.reg r := by
    rw [hs₀, CPUState.reg_withReg_of_ne named_regPC (named_of_lt hr) (ne_regPC_of_lt hr)]
  have hmem₀ : s₀.memory = s.memory := by rw [hs₀]; rfl
  have hget : CPUState.getData .indirectPostincrement y size s₀ =
      .ok (s.memory.read (s.reg y) size) (s₀.withReg y (s.reg y + size.toWord)) := by
    rw [getData_postincrement hny (by rwa [hreg₀ y hy, hmem₀]), hreg₀ y hy, hmem₀,
      incremented_of_size hysize]
  obtain ⟨s₁, hs₁⟩ : ∃ s₁, s₁ = s₀.withReg y (s.reg y + size.toWord) := ⟨_, rfl⟩
  have hx₁ : s₁.reg x = s.reg x := by rw [hs₁, CPUState.reg_withReg_of_ne hny hnx hxy, hreg₀ x hx]
  have hmem₁ : s₁.memory = s.memory := by rw [hs₁]; exact hmem₀
  obtain ⟨s₂, hs₂⟩ : ∃ s₂, s₂ = (s₁.stored (s.reg x) size (s.memory.read (s.reg y) size)).withReg x
      (s.reg x + size.toWord) := ⟨_, rfl⟩
  have hset : CPUState.setData .indirectPostincrement x size (s.memory.read (s.reg y) size) s₁ =
      .ok () s₂ := by
    rw [setData_postincrement hnx (by rwa [hx₁, hmem₁]), hx₁, incremented_of_size hxsize, hs₂]
  obtain ⟨t, ht, hmemory, hreg⟩ := setMoveFlags_ok size (s.memory.read (s.reg y) size) s₂
  refine ⟨t, ?_, ?_, ?_, ?_, fun r hr hrx hry => ?_⟩
  · show Move.execute .cpuState (postincrementPair size x y) s = _
    rw [Move.execute, bind_of_ok (skipOpcode_apply s), ← hs₀, postincrementPair,
      readSize, pure_bind]
    refine (bind_of_ok hget).trans ?_
    rw [← hs₁]
    exact (bind_of_ok hset).trans ht
  · rw [hmemory, hs₂, CPUState.memory_withReg, CPUState.stored, hmem₁]
  · rw [hreg x hnx, hs₂, CPUState.reg_withReg_self hnx]
  · rw [hreg y hny, hs₂, CPUState.reg_withReg_of_ne hnx hny hxy.symm, CPUState.reg_stored, hs₁,
      CPUState.reg_withReg_self hny]
  · have hnr := named_of_lt hr
    rw [hreg r hnr, hs₂, CPUState.reg_withReg_of_ne hnx hnr hrx, CPUState.reg_stored, hs₁,
      CPUState.reg_withReg_of_ne hny hnr hry, hreg₀ r hr]

end Operand

/-! ### The operands from a register on -/

/-- The address of the first byte that `v` points to. -/
def first (v : BitVec 32) : ℕ := maskAddr v.toNat

/-- The `n` operands from `v` on can be accessed, and the addresses of their bytes do
not wrap around. -/
structure RegionFrom (mem : BaseMemory) (v : BitVec 32) (size : DataSize) (n : ℕ) : Prop where
  accessible : ∀ k < n, mem.Accessible (v + BitVec.ofNat 32 (k * size.bytes)) size
  unwrapped : first v + n * size.bytes ≤ 2 ^ 24

section Regions

variable {size : DataSize} {n k : ℕ} {v : BitVec 32} {mem : BaseMemory}

theorem RegionFrom.first_add (h : RegionFrom mem v size n) (hk : k < n) :
    first (v + BitVec.ofNat 32 (k * size.bytes)) = first v + k * size.bytes := by
  have hunwrapped := h.unwrapped
  have hpos : 0 < size.bytes := by cases size <;> decide
  have hlt : k * size.bytes < n * size.bytes := Nat.mul_lt_mul_of_pos_right hk hpos
  simp only [first, maskAddr_eq_mod, BitVec.toNat_add, BitVec.toNat_ofNat] at hunwrapped ⊢
  omega

theorem add_ofNat_toWord (v : BitVec 32) (k : ℕ) (size : DataSize) :
    v + BitVec.ofNat 32 (k * size.bytes) + size.toWord = v +
    BitVec.ofNat 32 ((k + 1) * size.bytes) := by
  rw [Nat.succ_mul, BitVec.ofNat_add, ← BitVec.add_assoc, DataSize.toWord]

/-- A copied operand is a patch with the bytes of the source. -/
theorem write_read_eq_onto (mem : BaseMemory) (dst src : BitVec 32) (size : DataSize) :
    (mem.write dst size (mem.read src size)).baseAddr =
      (⟨first dst, size.bytes, fun k => mem.baseAddr (first src + k)⟩ : Patch (BitVec 8)).onto
        mem.baseAddr := by
  have hbytes := toNat_readRealMem_eq_number mem.baseAddr (first src) size
  refine (writeRealMem_eq_onto _).trans (Patch.onto_congr (fun k hk => ?_) _)
  exact (congrArg (byteAt size.bytes · k) hbytes).trans (byteAt_number hk)

end Regions

/-! ### The block -/

/-- The `n` operands at `Ay` have been copied to `Ax`, and nothing else has changed
than the two registers. -/
structure BlockCopied (size : DataSize) (x y n : ℕ) (s t : CPUState BaseMemory) : Prop where
  memSize : t.memory.memSize = s.memory.memSize
  copied : ∀ k < n * size.bytes, t.memory.baseAddr (first (s.reg x) + k) =
    s.memory.baseAddr (first (s.reg y) + k)
  outside : ∀ i, i < first (s.reg x) ∨ first (s.reg x) + n * size.bytes ≤ i →
    t.memory.baseAddr i = s.memory.baseAddr i
  dest : t.reg x = s.reg x + BitVec.ofNat 32 (n * size.bytes)
  src : t.reg y = s.reg y + BitVec.ofNat 32 (n * size.bytes)
  data : ∀ r < 8, t.reg r = s.reg r
  address : ∀ r, 8 ≤ r → r < 16 → r ≠ x → r ≠ y → t.reg r = s.reg r
  inactive : t.registers.regBuffer s.registers.inactive = s.registers.regBuffer s.registers.inactive

/-- After `k` executions from `s`. -/
structure CopiedSoFar (size : DataSize) (x y k : ℕ) (s t : CPUState BaseMemory) : Prop where
  memSize : t.memory.memSize = s.memory.memSize
  bytes : t.memory.baseAddr = blockCopied s.memory.baseAddr (first (s.reg y)) (first (s.reg x))
    (k * size.bytes)
  dest : t.reg x = s.reg x + BitVec.ofNat 32 (k * size.bytes)
  src : t.reg y = s.reg y + BitVec.ofNat 32 (k * size.bytes)
  others : ∀ r < 16, r ≠ x → r ≠ y → t.reg r = s.reg r
  isolated : Isolated s t

section Block

variable {size : DataSize} {x y n k : ℕ} {s t u : CPUState BaseMemory}

theorem CopiedSoFar.start (size : DataSize) (x y : ℕ) (s : CPUState BaseMemory) :
    CopiedSoFar size x y 0 s s where
  memSize := rfl
  bytes := by rw [Nat.zero_mul, blockCopied_zero]
  dest := by simp
  src := by simp
  others _ _ _ _ := rfl
  isolated := .refl s

/-- One more operand. -/
theorem CopiedSoFar.succ (h : CopiedSoFar size x y k s t)
    (hdest : RegionFrom s.memory (s.reg x) size n)
    (hsrc : RegionFrom s.memory (s.reg y) size n) (hk : k < n)
    (hstart : ¬(first (s.reg y) < first (s.reg x) ∧ first (s.reg x) < first (s.reg y) +
      n * size.bytes)) (hstep : CopyStep size x y t u) (hisolated : Isolated t u) :
      CopiedSoFar size x y (k + 1) s u := by
  have hx : first (t.reg x) = first (s.reg x) + k * size.bytes := by rw [h.dest, hdest.first_add hk]
  have hy : first (t.reg y) = first (s.reg y) + k * size.bytes := by rw [h.src, hsrc.first_add hk]
  have hlen : (k + 1) * size.bytes = k * size.bytes + size.bytes := Nat.succ_mul k size.bytes
  have hle : (k + 1) * size.bytes ≤ n * size.bytes := Nat.mul_le_mul_right _ hk
  refine ⟨?_, ?_, ?_, ?_, fun r hr hrx hry => ?_, h.isolated.trans hisolated⟩
  · rw [hstep.memory, BaseMemory.memSize_write, h.memSize]
  · rw [hstep.memory, write_read_eq_onto, hx, hy, h.bytes, hlen]
    exact blockCopied_add (by rw [← hlen]; omega)
  · rw [hstep.dest, h.dest, add_ofNat_toWord]
  · rw [hstep.src, h.src, add_ofNat_toWord]
  · rw [hstep.others r hr hrx hry, h.others r hr hrx hry]

/-- The block after all operands. -/
theorem CopiedSoFar.blockCopied (h : CopiedSoFar size x y n s t) (hx : 8 ≤ x) (hy : 8 ≤ y) :
    BlockCopied size x y n s t where
  memSize := h.memSize
  copied k hk := by rw [h.bytes, blockCopied_inside hk]
  outside i hi := by rw [h.bytes, blockCopied_outside hi]
  dest := h.dest
  src := h.src
  data r hr := h.others r (by omega) (by omega) (by omega)
  address r _ hr hrx hry := h.others r hr hrx hry
  inactive := h.isolated.inactive

end Block

/-- A block copy: `MOVE (Ay)+,(Ax)+`, executed `n` times on accessible regions that do
not wrap around, copies the bytes at `Ay` to `Ax`, unless the destination starts
strictly inside the source. -/
theorem block_copy (opcode : BitVec 16) (size : DataSize) (x y n : ℕ)
    (hd : (decode opcode).derived = .move (postincrementPair size x y)) (hxy : x ≠ y)
    (hbyte : size = .byte → x ≠ regA7 ∧ y ≠ regA7) (s : CPUState BaseMemory)
    (hdest : RegionFrom s.memory (s.reg x) size n) (hsrc : RegionFrom s.memory (s.reg y) size n)
    (hstart : ¬(first (s.reg y) < first (s.reg x) ∧ first (s.reg x) < first (s.reg y) +
      n * size.bytes)) :
    ∃ t, executeTimes (decode opcode).derived n s = .ok () t ∧ BlockCopied size x y n s t := by
  have hvalid := valid_decode opcode
  rw [hd] at hvalid ⊢
  have hx : ValidOperand .indirectPostincrement x := hvalid.1.dest
  have hy : ValidOperand .indirectPostincrement y := hvalid.1.src
  suffices hsofar : ∀ k ≤ n, ∃ t, executeTimes (.move (postincrementPair size x y)) k s = .ok () t ∧
      CopiedSoFar size x y k s t by
    obtain ⟨t, ht, hcopied⟩ := hsofar n le_rfl
    exact ⟨t, ht, hcopied.blockCopied (hx.base (.inl rfl)) (hy.base (.inl rfl))⟩
  intro k hk
  induction k with
  | zero => exact ⟨s, rfl, .start size x y s⟩
  | succ k ih =>
    obtain ⟨t, ht, hcopied⟩ := ih (by omega)
    have haccx : t.memory.Accessible (t.reg x) size := by
      rw [hcopied.dest, BaseMemory.accessible_congr hcopied.memSize]
      exact hdest.accessible k hk
    have haccy : t.memory.Accessible (t.reg y) size := by
      rw [hcopied.src, BaseMemory.accessible_congr hcopied.memSize]
      exact hsrc.accessible k hk
    obtain ⟨u, hu, hstep⟩ :=
      copyStep hx.lt hy.lt hxy (fun h => (hbyte h).1) (fun h => (hbyte h).2) haccx haccy
    refine ⟨u, ?_, hcopied.succ hdest hsrc hk hstart hstep (execute_isolated hvalid hu)⟩
    rw [executeTimes, bind_of_ok ht, hu]

/-- Two executions of `move.w (A0)+, (A1)+`, with the destination one word before the source. -/
theorem block_copy_two_words :
    let s := CPUState.simple [0, 1, 0x12, 0x34, 0x56, 0x78] fun i => if i = 8 then 2 else 0
    ∃ t, executeTimes (decode 0x32D8).derived 2 s = .ok () t ∧ BlockCopied .word 9 8 2 s t := by
  intro s
  have hdecode : (decode 0x32D8).derived = .move (postincrementPair .word 9 8) := by
    rw [decode_eq_opcodeEntry]
    rfl
  exact block_copy 0x32D8 .word 9 8 2 hdecode (by decide) nofun s ⟨by decide, by decide⟩
    ⟨by decide, by decide⟩ (by decide)

end M68kEmu
