import Mathlib.Tactic.Common
import Mathlib.Tactic.Ring
import Mathlib.Data.Nat.Notation

/-!
# Condition codes

The codes `N`, `Z`, `V` and `C` after a subtraction answer the ten integer
comparisons of its operands.

* `Comparison`: the comparisons, with their meaning on two numbers (`holds`) and their formula on
  codes (`answer`);
* `Codes.ofSub`: the codes of a subtraction, for which the two agree (`answer_ofSub`);
* `answers_iff`: codes of any other origin answer all ten comparisons exactly when `Z`, `C` and
  `N xor V` are right;
* `InSignedRange`: the numbers of a width; a sum or a difference overflows when it is
  not one of them;
* `saddOverflow_eq_ssubOverflow_iff`: the overflow of a sum stands in for that of a difference only
  if there is none; `saddOverflow_carry_iff`, `saddOverflow_borrow_iff`: the same for sums and
  differences with a carry.
-/

namespace ConditionCodes

variable {w : ℕ}

/-- The condition codes. -/
structure Codes where
  n : Bool
  z : Bool
  v : Bool
  c : Bool
  deriving DecidableEq, Repr

/-- The integer comparisons. -/
inductive Comparison where
  | eq | ne | ult | uge | ugt | ule | slt | sge | sgt | sle
  deriving DecidableEq, Repr

/-- The meaning of a comparison on two's-complement numbers. -/
def Comparison.holds (x y : BitVec w) : Comparison → Bool
  | .eq => x = y
  | .ne => x ≠ y
  | .ult => x.toNat < y.toNat
  | .uge => x.toNat ≥ y.toNat
  | .ugt => x.toNat > y.toNat
  | .ule => x.toNat ≤ y.toNat
  | .slt => x.toInt < y.toInt
  | .sge => x.toInt ≥ y.toInt
  | .sgt => x.toInt > y.toInt
  | .sle => x.toInt ≤ y.toInt

/-- The formula of a comparison on condition codes. -/
def Comparison.answer (f : Codes) : Comparison → Bool
  | .eq => f.z
  | .ne => !f.z
  | .ult => f.c
  | .uge => !f.c
  | .ugt => !f.c && !f.z
  | .ule => f.c || f.z
  | .slt => f.n ^^ f.v
  | .sge => !(f.n ^^ f.v)
  | .sgt => !(f.n ^^ f.v) && !f.z
  | .sle => (f.n ^^ f.v) || f.z

/-- The codes of the subtraction `x - y`. -/
def Codes.ofSub (x y : BitVec w) : Codes where
  n := (x - y).msb
  z := x = y
  v := x.ssubOverflow y
  c := x.toNat < y.toNat

/-- The sign of the difference, corrected by its overflow, is the signed order. -/
theorem msb_sub_xor_ssubOverflow (x y : BitVec w) :
    ((x - y).msb ^^ x.ssubOverflow y) = decide (x.toInt < y.toInt) := by
  by_cases hover : x.ssubOverflow y = true
  · -- the operands have different signs, and the difference has the sign of `y`
    have hsigns := hover
    rw [BitVec.ssubOverflow_eq] at hsigns
    simp only [Bool.or_eq_true, Bool.and_eq_true, Bool.not_eq_true', BitVec.msb_eq_toInt (x := x),
      BitVec.msb_eq_toInt (x := y), decide_eq_true_eq, decide_eq_false_iff_not] at hsigns
    rw [hover, Bool.xor_true]
    obtain ⟨⟨hx, hy⟩, hmsb⟩ | ⟨⟨hx, hy⟩, hmsb⟩ := hsigns <;> rw [hmsb, eq_comm]
    · exact decide_eq_false (by omega)
    · exact decide_eq_true (by omega)
  · rw [BitVec.msb_eq_toInt, BitVec.toInt_sub_of_not_ssubOverflow hover, Bool.eq_false_iff.2 hover,
      Bool.xor_false,
      decide_eq_decide]
    omega

/-- Codes answer all comparisons of `x` and `y` exactly when `Z`, `C` and `N xor V` are right. -/
theorem answers_iff (f : Codes) (x y : BitVec w) :
    (∀ cmp : Comparison, cmp.answer f = cmp.holds x y) ↔
      f.z = decide (x = y) ∧ f.c = decide (x.toNat < y.toNat) ∧
      (f.n ^^ f.v) = decide (x.toInt < y.toInt) := by
  constructor
  · intro h
    exact ⟨h .eq, h .ult, h .slt⟩
  · rintro ⟨hz, hc, hlt⟩ cmp
    have hnat : f.z = decide (x.toNat = y.toNat) :=
      hz.trans (decide_eq_decide.2 BitVec.toNat_inj.symm)
    have hint : f.z = decide (x.toInt = y.toInt) :=
      hz.trans (decide_eq_decide.2 BitVec.toInt_inj.symm)
    rw [Bool.eq_iff_iff]
    cases cmp <;> simp only [Comparison.answer, Comparison.holds, hc, hlt]
    case eq | ne => simp [hz]
    case uge | sge => simp
    case ugt | ule => simp [hnat]; omega
    case sgt | sle => simp [hint]; omega

/-- The codes of a subtraction answer all comparisons of its operands. -/
theorem answer_ofSub (x y : BitVec w) (cmp : Comparison) :
    cmp.answer (Codes.ofSub x y) = cmp.holds x y :=
  (answers_iff _ x y).2 ⟨rfl, rfl, msb_sub_xor_ssubOverflow x y⟩ cmp

/-- The number is a two's-complement number of the width. -/
def InSignedRange (w : ℕ) (z : ℤ) : Prop := -2 ^ (w - 1) ≤ z ∧ z < 2 ^ (w - 1)

instance (w : ℕ) (z : ℤ) : Decidable (InSignedRange w z) := inferInstanceAs (Decidable (_ ∧ _))

theorem saddOverflow_iff (x y : BitVec w) :
    x.saddOverflow y = true ↔ ¬InSignedRange w (x.toInt + y.toInt) := by
  simp only [BitVec.saddOverflow, InSignedRange, Bool.or_eq_true, decide_eq_true_eq]
  omega

theorem ssubOverflow_iff (x y : BitVec w) :
    x.ssubOverflow y = true ↔ ¬InSignedRange w (x.toInt - y.toInt) := by
  simp only [BitVec.ssubOverflow, InSignedRange, Bool.or_eq_true, decide_eq_true_eq]
  omega

/-- A sum and a difference do not both overflow. -/
theorem saddOverflow_eq_ssubOverflow_iff (x y : BitVec w) :
    y.saddOverflow x = x.ssubOverflow y ↔ y.saddOverflow x = false ∧ x.ssubOverflow y = false := by
  rw [BitVec.saddOverflow_eq, BitVec.ssubOverflow_eq]
  cases x.msb <;> cases y.msb <;> simp

/-- The overflow of a sum is that of the sum with a carry, unless the sum is at the edge
of the signed range. -/
theorem saddOverflow_carry_iff (x y : BitVec w) {c : ℤ} (hc : c = 0 ∨ c = 1) :
    (x.saddOverflow y = true ↔ ¬InSignedRange w (x.toInt + y.toInt + c)) ↔
      c = 0 ∨ (x.toInt + y.toInt ≠ 2 ^ (w - 1) - 1 ∧ x.toInt + y.toInt ≠ -2 ^ (w - 1) - 1) := by
  have hpos : (0 : ℤ) < 2 ^ (w - 1) := Int.pow_pos (by decide)
  rw [saddOverflow_iff, InSignedRange, InSignedRange]
  omega

/-- A sum and a difference with a borrow do not both leave the signed range. -/
theorem saddOverflow_borrow_iff (x y : BitVec w) {c : ℤ} (hc : c = 0 ∨ c = 1) :
    (y.saddOverflow x = true ↔ ¬InSignedRange w (x.toInt - y.toInt - c)) ↔
      InSignedRange w (y.toInt + x.toInt) ∧ InSignedRange w (x.toInt - y.toInt - c) := by
  have hx := BitVec.le_toInt (x := x)
  have hx' := BitVec.toInt_lt (x := x)
  have hy := BitVec.le_toInt (x := y)
  have hy' := BitVec.toInt_lt (x := y)
  rw [saddOverflow_iff, InSignedRange, InSignedRange]
  omega

end ConditionCodes
