import M68kEmu.Frame.Bytes
import M68kEmu.Frame.Consumption
import M68kEmu.Lib.ConditionCodes
import M68kEmu.Model.Cpu

/-!
# The flags

* the tests of `helpers.hpp` at a size, as facts about the low bits of their arguments;
* `CPUState.codes`: the condition codes in the status register, which the flag writes assign and
  `checkCondition` reads;
* `getData_lt`: an operand is a number of its size.
-/

namespace M68kEmu

open ConditionCodes Outcome

/-! ### The helpers at a size -/

section Helpers

theorem twoPow_ne_zero {n k : ℕ} (h : k < n) : BitVec.twoPow n k ≠ 0 := by
  intro h0
  have := congrArg (BitVec.getLsbD · k) h0
  simp [h] at this

/-- The sign test is the sign of the low bits. -/
theorem signTest_eq (v : BitVec 32) {k : ℕ} (h : k < 32) :
    (v.setWidth 64 &&& BitVec.twoPow 64 k != 0) = (v.setWidth (k + 1)).msb := by
  have hbit : (v.setWidth (k + 1)).msb = (v.setWidth 64).getLsbD k := by
    rw [BitVec.msb_eq_getLsbD_last, BitVec.getLsbD_setWidth, BitVec.getLsbD_setWidth]
    simp
    omega
  rw [hbit, BitVec.and_twoPow]
  rcases (v.setWidth 64).getLsbD k with _ | _
  · rfl
  · simpa using twoPow_ne_zero (by omega : k < 64)

/-- The overflow test is the signed overflow of the sum of the low bits. -/
theorem overflowTest_eq (a b : BitVec 32) {k : ℕ} (h : k < 32) :
    ((a &&& BitVec.twoPow 32 k == b &&& BitVec.twoPow 32 k) &&
      (a &&& BitVec.twoPow 32 k != (a + b) &&& BitVec.twoPow 32 k)) =
      (a.setWidth (k + 1)).saddOverflow (b.setWidth (k + 1)) := by
  have hbit (v : BitVec 32) : (v.setWidth (k + 1)).msb = v.getLsbD k := by
    rw [BitVec.msb_eq_getLsbD_last, BitVec.getLsbD_setWidth]
    simp
  have hne : BitVec.twoPow 32 k ≠ 0#32 := twoPow_ne_zero h
  rw [BitVec.saddOverflow_eq, ← BitVec.setWidth_add _ _ (by omega), hbit, hbit, hbit,
    BitVec.and_twoPow, BitVec.and_twoPow, BitVec.and_twoPow]
  rcases a.getLsbD k with _ | _ <;> rcases b.getLsbD k with _ | _ <;>
    rcases (a + b).getLsbD k with _ | _ <;>
    simp [hne, hne.symm]

theorem isNegative_eq (v : BitVec 32) (size : DataSize) :
    isNegative (v.setWidth 64) size = (v.setWidth size.bits).msb := by
  cases size with
  | byte => exact signTest_eq v (by decide : 7 < 32)
  | word => exact signTest_eq v (by decide : 15 < 32)
  | long => exact signTest_eq v (by decide : 31 < 32)

theorem isOverflow_eq (a b : BitVec 32) (size : DataSize) :
    isOverflow a b size = (a.setWidth size.bits).saddOverflow (b.setWidth size.bits) := by
  cases size with
  | byte => exact overflowTest_eq a b (by decide : 7 < 32)
  | word => exact overflowTest_eq a b (by decide : 15 < 32)
  | long => exact overflowTest_eq a b (by decide : 31 < 32)

theorem toNat_setWidth_64 (v : BitVec 32) : (v.setWidth 64).toNat = v.toNat := by
  rw [BitVec.toNat_setWidth, Nat.mod_eq_of_lt (Nat.lt_trans v.isLt (by decide))]

theorem toNat_and_mask (v : BitVec 32) {k : ℕ} {m : BitVec 64} (hm : m.toNat = 2 ^ k - 1) :
    (v.setWidth 64 &&& m).toNat = v.toNat % 2 ^ k := by
  rw [BitVec.toNat_and, hm, Nat.and_two_pow_sub_one_eq_mod, toNat_setWidth_64]

theorem isZero_eq (v : BitVec 32) (size : DataSize) :
    isZero (v.setWidth 64) size = decide (v.setWidth size.bits = 0) := by
  have hmask {k : ℕ} {m : BitVec 64} (hm : m.toNat = 2 ^ k - 1) :
      (v.setWidth 64 &&& m == 0) = decide (v.setWidth k = 0) := by
    rw [Bool.eq_iff_iff, beq_iff_eq, decide_eq_true_eq, ← BitVec.toNat_inj, ← BitVec.toNat_inj,
      toNat_and_mask v hm, BitVec.toNat_setWidth]
    simp
  cases size with
  | byte => exact hmask (k := 8) rfl
  | word => exact hmask (k := 16) rfl
  | long => exact hmask (k := 32) rfl

/-- The tests of the 64-bit value are those of its low half. -/
theorem and_setWidth_64 (v m : BitVec 32) : v.setWidth 64 &&& m.setWidth 64 = 0 ↔ v &&& m = 0 := by
  rw [← BitVec.setWidth_and]
  constructor
  · intro h
    have hlow := congrArg (BitVec.setWidth 32) h
    rwa [BitVec.setWidth_setWidth_of_le _ (by decide), BitVec.setWidth_eq] at hlow
  · intro h
    rw [h]
    rfl

theorem isNegative_eq_msb (v : BitVec 32) (size : DataSize) :
    isNegative v size = (v.setWidth size.bits).msb := by
  have hbits (m : BitVec 32) : (v &&& m != 0) = (v.setWidth 64 &&& m.setWidth 64 != 0) := by
    rw [Bool.eq_iff_iff, bne_iff_ne, bne_iff_ne, ne_eq, ne_eq, and_setWidth_64]
  rw [← isNegative_eq]
  cases size with
  | byte => exact hbits 0x80
  | word => exact hbits 0x8000
  | long => exact hbits 0x80000000

theorem isZero_eq_decide (v : BitVec 32) (size : DataSize) :
    isZero v size = decide (v.setWidth size.bits = 0) := by
  have hbits (m : BitVec 32) : (v &&& m == 0) = (v.setWidth 64 &&& m.setWidth 64 == 0) := by
    rw [Bool.eq_iff_iff, beq_iff_eq, beq_iff_eq, and_setWidth_64]
  rw [← isZero_eq]
  cases size with
  | byte => exact hbits 0xff
  | word => exact hbits 0xffff
  | long => exact hbits 0xffffffff

theorem isNegative_long (v : BitVec 32) : isNegative v .long = v.msb :=
  (isNegative_eq_msb v .long).trans (congrArg BitVec.msb (BitVec.setWidth_eq v))

theorem isZero_long (v : BitVec 32) : isZero v .long = decide (v = 0) := by
  rw [isZero_eq_decide]
  exact congrArg (fun x : BitVec 32 => decide (x = 0)) (BitVec.setWidth_eq v)

theorem isCarry_eq (v : BitVec 32) (size : DataSize) :
    isCarry (v.setWidth 64) size = decide (2 ^ size.bits ≤ v.toNat) := by
  have hmask {k : ℕ} {m : BitVec 64} (hm : m.toNat = 2 ^ k - 1) :
      decide (v.setWidth 64 &&& m < v.setWidth 64) = decide (2 ^ k ≤ v.toNat) := by
    rw [decide_eq_decide, BitVec.lt_def, toNat_and_mask v hm, toNat_setWidth_64]
    have hpos := Nat.two_pow_pos k
    constructor
    · intro h
      by_contra hlt
      rw [Nat.mod_eq_of_lt (by omega)] at h
      omega
    · intro h
      exact Nat.lt_of_lt_of_le (Nat.mod_lt _ hpos) h
  cases size with
  | byte => exact hmask (k := 8) rfl
  | word => exact hmask (k := 16) rfl
  | long => exact hmask (k := 32) rfl

end Helpers

/-! ### Sums and differences of the low bits -/

theorem setWidth_mask8 (x : BitVec 32) : (mask8 x).setWidth 8 = x.setWidth 8 := by
  rw [mask8, BitVec.setWidth_and]
  exact BitVec.and_allOnes

theorem setWidth_mask16 (x : BitVec 32) : (mask16 x).setWidth 16 = x.setWidth 16 := by
  rw [mask16, BitVec.setWidth_and]
  exact BitVec.and_allOnes

theorem bits_le (size : DataSize) : size.bits ≤ 32 := by cases size <;> decide

theorem toNat_setWidth_of_lt {v : BitVec 32} {size : DataSize} (h : v.toNat < 2 ^ size.bits) :
    (v.setWidth size.bits).toNat = v.toNat := by
  rw [BitVec.toNat_setWidth, Nat.mod_eq_of_lt h]

theorem setWidth_sub {x y : BitVec 32} {i : ℕ} (h : i ≤ 32) :
    (x - y).setWidth i = x.setWidth i - y.setWidth i := by
  rw [BitVec.sub_eq_add_neg, BitVec.setWidth_add _ _ h,
    BitVec.setWidth_neg_of_le h, ← BitVec.sub_eq_add_neg]

/-- The borrow of a difference of small numbers reaches the bits above them. -/
theorem borrow_iff {size : DataSize} {x y : BitVec 32} (hx : x.toNat < 2 ^ size.bits)
    (hy : y.toNat < 2 ^ size.bits) :
    2 ^ size.bits ≤ (x - y).toNat ↔ size ≠ .long ∧ x.toNat < y.toNat := by
  rw [BitVec.toNat_sub]
  cases size <;> simp only [DataSize.bits, DataSize.bytes] at hx hy ⊢ <;> simp <;> omega

/-! ### The condition codes of a state -/

theorem getFlag_eq_getLsbD (regs : Registers) (flag : StatusRegisterFlag) :
    regs.getFlag flag = (regs.regBuffer regSR).getLsbD flag.bit := by
  have hlt : flag.bit < 32 := by cases flag <;> decide
  have hmask : flag.mask = BitVec.twoPow 32 flag.bit := rfl
  have hne : BitVec.twoPow 32 flag.bit ≠ 0#32 := twoPow_ne_zero hlt
  rw [Registers.getFlag, hmask, BitVec.and_twoPow]
  rcases (regs.regBuffer regSR).getLsbD flag.bit with _ | _ <;> simp [hne]

theorem bit_injective {flag flag' : StatusRegisterFlag} (h : flag.bit = flag'.bit) :
    flag = flag' := by
  cases flag <;> cases flag' <;> first | rfl | (revert h; decide)

/-- An assignment to one flag leaves the others. -/
theorem getFlag_setFlag (regs : Registers) (flag flag' : StatusRegisterFlag) (b : Bool) :
    (regs.setFlag flag b).getFlag flag' = if flag' = flag then b else regs.getFlag flag' := by
  have hlt : flag'.bit < 32 := by cases flag' <;> decide
  have hmask : flag.mask = BitVec.twoPow 32 flag.bit := rfl
  rw [getFlag_eq_getLsbD, getFlag_eq_getLsbD, Registers.setFlag, Registers.put, hmask]
  simp only [if_true]
  by_cases h : flag' = flag
  · subst h
    cases b <;> simp [hlt]
  · have hne : flag'.bit ≠ flag.bit := fun h' => h (bit_injective h')
    cases b <;> simp [h, hne, hlt]

/-- `N`, `Z`, `V` and `C`. -/
def CPUState.codes {M : Type} (s : CPUState M) : Codes where
  n := s.registers.getFlag .negative
  z := s.registers.getFlag .zero
  v := s.registers.getFlag .overflow
  c := s.registers.getFlag .carry

/-- The integer comparison that a condition names. -/
def Condition.comparison : Condition → Option Comparison
  | .equal => some .eq
  | .notEqual => some .ne
  | .carrySet => some .ult
  | .carryClear => some .uge
  | .higher => some .ugt
  | .lowerSame => some .ule
  | .lessThan => some .slt
  | .greaterEqual => some .sge
  | .greaterThan => some .sgt
  | .lessEqual => some .sle
  | .true | .false | .overflowClear | .overflowSet | .plus | .minus => none

theorem checkCondition_apply {M : Type} {s : CPUState M} {cond : Condition} {cmp : Comparison}
    (h : cond.comparison = some cmp) :
    CPUState.checkCondition cond s = .ok (cmp.answer s.codes) s := by
  have hread (cond : Condition) (b : Bool) (hb : CPUState.checkCondition cond s = .ok b s)
      (hcmp : b = cmp.answer s.codes) :
      CPUState.checkCondition cond s = .ok (cmp.answer s.codes) s := hcmp ▸ hb
  refine hread cond _ rfl ?_
  cases cond <;> simp [Condition.comparison] at h <;> subst h <;>
    simp only [Comparison.answer, CPUState.codes] <;>
    cases s.registers.getFlag .negative <;> cases s.registers.getFlag .zero <;>
      cases s.registers.getFlag .overflow <;>
    cases s.registers.getFlag .carry <;> rfl

/-- The codes that the compare instructions set. -/
theorem codes_of_setCompareFlags {M : Type} {size : DataSize} {src dest result : BitVec 32}
    {s t : CPUState M} {u : Unit} (h : setCompareFlags size src dest result s = .ok u t) :
    t.codes =
      { n := (result.setWidth size.bits).msb
        z := decide (result.setWidth size.bits = 0)
        v := (src.setWidth size.bits).saddOverflow (dest.setWidth size.bits)
        c := decide (2 ^ size.bits ≤ result.toNat) } := by
  simp [setCompareFlags] at h
  subst h
  simp only [CPUState.codes, CPUState.withFlag, getFlag_setFlag, isNegative_eq, isZero_eq,
    isOverflow_eq, isCarry_eq]
  simp

/-! ### The range of an operand -/

theorem sized_lt (v : BitVec 32) (size : DataSize) :
    (Registers.sized v size).toNat < 2 ^ size.bits := by
  cases size with
  | byte => exact Nat.lt_of_le_of_lt Nat.and_le_right (by decide)
  | word => exact Nat.lt_of_le_of_lt Nat.and_le_right (by decide)
  | long => exact v.isLt

theorem getReg_lt {M : Type} {r : ℕ} {size : DataSize} {s t : CPUState M} {v : BitVec 32}
    (h : getReg r size s = .ok v t) : v.toNat < 2 ^ size.bits := by
  simp only [getReg, Registers.get] at h
  by_cases hr : r < regsCount
  · rw [if_pos hr] at h
    obtain ⟨rfl, -⟩ := EStateM.Result.ok.inj h
    exact sized_lt _ _
  · rw [if_neg hr] at h
    cases h

theorem memGet_lt {addr v : BitVec 32} {size : DataSize} {s t : CPUState BaseMemory}
    (h : memGet addr size s = .ok v t) : v.toNat < 2 ^ size.bits := by
  obtain ⟨-, rfl, -⟩ := memGet_eq_ok.1 h
  exact readRealMem_lt

/-- An operand is a number of its size. -/
theorem getData_lt {mode : AddressingMode} {reg : ℕ} {size : DataSize} {s t : CPUState BaseMemory}
    {v : BitVec 32} (h : CPUState.getData mode reg size s = .ok v t) : v.toNat < 2 ^ size.bits := by
  cases mode <;> simp [CPUState.getData, -memGet_eq_ok, -bind_pure_comp] at h
  case directData | directAddr => exact getReg_lt h
  case indirect =>
    obtain ⟨_, _, -, hread⟩ := h
    exact memGet_lt hread
  case indirectPostincrement | indirectPredecrement =>
    obtain ⟨_, _, -, _, hread, -⟩ := h
    exact memGet_lt hread
  case indirectDisplacement | indirectIndex =>
    obtain ⟨_, _, -, _, _, -, hread⟩ := h
    exact memGet_lt hread
  case pcDisplacement | pcIndex | absWord | absLong =>
    obtain ⟨_, _, -, hread⟩ := h
    exact memGet_lt hread
  case immediate =>
    obtain ⟨value, _, hread, rfl, -⟩ := h
    cases size with
    | byte => exact sized_lt value .byte
    | word => exact memGet_lt hread
    | long => exact memGet_lt hread
  case unknown =>
    obtain ⟨rfl, -⟩ := h
    exact Nat.two_pow_pos _

end M68kEmu
