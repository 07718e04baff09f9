import M68kEmu.Lib.ConditionCodes

/-!
# Division of machine integers

Quotients and remainders of signed and unsigned numbers of one width, against the
integers that they are.

* `number`, `InRange`: the integer that a word denotes, and the integers that words
  of a width denote;
* `number_quotient`, `number_remainder`: truncating division, with the one quotient
  that does not fit;
* `Divided`: what a quotient and a remainder have to satisfy;
* `divided_low_iff`: a dividend of which only the low part is divided gives the right quotient and
  remainder exactly when that part is the dividend, or the wrapped quotient makes up for it.
-/

namespace Division

open ConditionCodes

variable {w n : ℕ}

/-! ### Numbers -/

/-- The integer that a word denotes. -/
def number (isSigned : Bool) (x : BitVec w) : ℤ := if isSigned then x.toInt else x.toNat

/-- The integer is that of a word. -/
def InRange (isSigned : Bool) (w : ℕ) (z : ℤ) : Prop :=
  if isSigned then InSignedRange w z else 0 ≤ z ∧ z < 2 ^ w

instance (isSigned : Bool) (w : ℕ) (z : ℤ) : Decidable (InRange isSigned w z) := by
  unfold InRange
  exact inferInstance

theorem two_mul_half (hw : 0 < w) : (2 : ℤ) ^ w = 2 * 2 ^ (w - 1) := by
  rw [← pow_succ', Nat.sub_add_cancel hw]

theorem number_inRange (isSigned : Bool) (x : BitVec w) :
    InRange isSigned w (number isSigned x) := by
  unfold InRange number
  cases isSigned with
  | true => exact ⟨BitVec.le_toInt x, BitVec.toInt_lt⟩
  | false =>
    have hlt : (x.toNat : ℤ) < 2 ^ w := by exact_mod_cast x.isLt
    exact ⟨Int.natCast_nonneg _, hlt⟩

theorem number_ne_zero (isSigned : Bool) {x : BitVec w} (h : x ≠ 0) : number isSigned x ≠ 0 := by
  unfold number
  cases isSigned with
  | true => exact fun h0 => h (BitVec.toInt_inj.1 (h0.trans BitVec.toInt_zero.symm))
  | false => exact fun h0 => h (BitVec.eq_of_toNat_eq (Int.ofNat.inj h0))

/-- The interval of a width holds one number of each residue. -/
theorem eq_of_inRange (hw : 0 < w) {isSigned : Bool} {x y k : ℤ} (h : y = x + k * 2 ^ w)
    (hx : InRange isSigned w x) (hy : InRange isSigned w y) : y = x := by
  have hhalf := two_mul_half hw
  have hshift (lo : ℤ) (hx : lo ≤ x ∧ x < lo + 2 ^ w) (hy : lo ≤ y ∧ y < lo + 2 ^ w) : y = x := by
    have hx' : (x - lo) % 2 ^ w = x - lo := Int.emod_eq_of_lt (by omega) (by omega)
    have hy' : (y - lo) % 2 ^ w = y - lo := Int.emod_eq_of_lt (by omega) (by omega)
    have hmod : (y - lo) % 2 ^ w = (x - lo) % 2 ^ w := by
      rw [h, show x + k * 2 ^ w - lo = x - lo + k * 2 ^ w by ring, Int.add_mul_emod_self_right]
    omega
  unfold InRange InSignedRange at hx hy
  cases isSigned with
  | true =>
    exact hshift (-2 ^ (w - 1)) ⟨hx.1, by have := hx.2; omega⟩ ⟨hy.1, by have := hy.2; omega⟩
  | false => exact hshift 0 ⟨hx.1, by have := hx.2; omega⟩ ⟨hy.1, by have := hy.2; omega⟩

theorem exists_toInt_eq (x : BitVec w) : ∃ k : ℤ, x.toInt = x.toNat + k * 2 ^ w := by
  rw [BitVec.toInt_eq_toNat_cond]
  split_ifs
  · exact ⟨0, by ring⟩
  · exact ⟨-1, by push_cast; ring⟩

/-- The low part of a number differs from it by a multiple. -/
theorem exists_number_eq (h : w ≤ n) (isSigned : Bool) (x : BitVec n) :
    ∃ k : ℤ, number isSigned x = number isSigned (x.setWidth w) + k * 2 ^ w := by
  have hlow : (x.toNat : ℤ) = (x.setWidth w).toNat + (x.toNat / 2 ^ w : ℕ) * 2 ^ w := by
    rw [BitVec.toNat_setWidth]
    exact_mod_cast (Nat.mod_add_div' x.toNat (2 ^ w)).symm
  unfold number
  cases isSigned with
  | true =>
    obtain ⟨k, hk⟩ := exists_toInt_eq x
    obtain ⟨k', hk'⟩ := exists_toInt_eq (x.setWidth w)
    have hpow : (2 : ℤ) ^ n = 2 ^ (n - w) * 2 ^ w := by rw [← pow_add, Nat.sub_add_cancel h]
    refine ⟨(x.toNat / 2 ^ w : ℕ) + k * 2 ^ (n - w) - k', ?_⟩
    show x.toInt = (x.setWidth w).toInt + _
    rw [hk, hk', hlow, hpow]
    ring
  | false => exact ⟨_, hlow⟩

/-! ### Quotients and remainders -/

/-- The quotient, truncated toward zero. -/
def quotient (isSigned : Bool) (x y : BitVec w) : BitVec w := if isSigned then x.sdiv y else x / y

/-- The remainder, with the sign of the dividend. -/
def remainder (isSigned : Bool) (x y : BitVec w) : BitVec w := if isSigned then x.srem y else x % y

/-- The one division whose quotient does not fit. -/
def Wraps (isSigned : Bool) (x y : BitVec w) : Prop :=
  isSigned = true ∧ x = BitVec.intMin w ∧ y = -1#w

theorem number_remainder (isSigned : Bool) (x y : BitVec w) :
    number isSigned (remainder isSigned x y) = (number isSigned x).tmod (number isSigned y) := by
  unfold number remainder
  cases isSigned with
  | true => exact BitVec.toInt_srem x y
  | false =>
    show ((x % y).toNat : ℤ) = (x.toNat : ℤ).tmod y.toNat
    rw [BitVec.toNat_umod, Int.ofNat_tmod]

theorem number_quotient {isSigned : Bool} {x y : BitVec w} (h : ¬Wraps isSigned x y) :
    number isSigned (quotient isSigned x y) = (number isSigned x).tdiv (number isSigned y) := by
  unfold number quotient
  cases isSigned with
  | true =>
    refine BitVec.toInt_sdiv_of_ne_or_ne x y ?_
    by_contra hn
    obtain ⟨hx, hy⟩ := not_or.1 hn
    exact h ⟨rfl, not_not.1 hx, not_not.1 hy⟩
  | false =>
    show ((x / y).toNat : ℤ) = (x.toNat : ℤ).tdiv y.toNat
    rw [BitVec.toNat_udiv, Int.ofNat_tdiv]

/-! ### Division of a low part -/

/-- The quotient and the remainder of a division that truncates toward zero. -/
structure Divided (dividend divisor q r : ℤ) : Prop where
  division : dividend = q * divisor + r
  remainder : |r| < |divisor|
  sign : r = 0 ∨ (0 < r ↔ 0 < dividend)

theorem divided_tdiv (a : ℤ) {b : ℤ} (hb : b ≠ 0) : Divided a b (a.tdiv b) (a.tmod b) where
  division := (Int.tdiv_mul_add_tmod a b).symm
  remainder := by
    rw [Int.abs_eq_natAbs, Int.abs_eq_natAbs, Int.natAbs_tmod]
    exact_mod_cast Nat.mod_lt _ (Int.natAbs_pos.2 hb)
  sign := by
    rcases Int.le_total 0 a with ha | ha
    · have hr := Int.tmod_nonneg b ha
      by_cases h0 : a.tmod b = 0
      · exact .inl h0
      · have hne : a ≠ 0 := by
          rintro rfl
          exact h0 (Int.zero_tmod b)
        exact .inr ⟨fun _ => by omega, fun _ => by omega⟩
    · have hr := Int.tmod_nonneg b (Int.neg_nonneg_of_nonpos ha)
      rw [Int.neg_tmod] at hr
      exact .inr ⟨fun _ => by omega, fun _ => by omega⟩

/-- The dividends whose low part gives the right quotient and remainder. -/
def LowFaithful (isSigned : Bool) (w : ℕ) (dividend divisor : ℤ) : Prop :=
  if isSigned ∧ divisor = -1 then InSignedRange w (-dividend) else InRange isSigned w dividend

instance (isSigned : Bool) (w : ℕ) (dividend divisor : ℤ) :
    Decidable (LowFaithful isSigned w dividend divisor) := by
  unfold LowFaithful
  exact inferInstance

theorem wraps_iff (hw : 0 < w) (isSigned : Bool) (x y : BitVec w) :
    Wraps isSigned x y ↔ isSigned = true ∧ number isSigned x = -2 ^ (w - 1) ∧
    number isSigned y = -1 := by
  have hone :
      (-1#w).toInt = -1 := by rw [BitVec.neg_one_eq_allOnes, BitVec.toInt_allOnes, if_pos hw]
  unfold Wraps number
  cases isSigned with
  | true =>
    rw [← BitVec.toInt_inj, ← BitVec.toInt_inj (x := y), BitVec.toInt_intMin_of_pos hw, hone]
    rfl
  | false => simp

/-- The least number is one. -/
theorem inRange_least : InRange true w (-2 ^ (w - 1)) := by
  have hpos : (0 : ℤ) < 2 ^ (w - 1) := Int.pow_pos (by decide)
  show InSignedRange w (-2 ^ (w - 1))
  exact ⟨le_refl _, by omega⟩

/-- A low part whose quotient wraps is divided right if the dividend is the opposite
of the least number. -/
theorem divided_low_iff_of_wraps (hw : 0 < w) (hn : w ≤ n) (isSigned : Bool) (x : BitVec n)
    {y : BitVec w} (hwraps : Wraps isSigned (x.setWidth w) y) :
    (InRange isSigned w ((number isSigned x).tdiv (number isSigned y)) ∧
        Divided (number isSigned x) (number isSigned y)
          (number isSigned (quotient isSigned (x.setWidth w) y))
          (number isSigned (remainder isSigned (x.setWidth w) y))) ↔
      LowFaithful isSigned w (number isSigned x) (number isSigned y) := by
  obtain ⟨k, hk⟩ := exists_number_eq hn isSigned x
  have hhalf := two_mul_half hw
  have hquotient : quotient isSigned (x.setWidth w) y = BitVec.intMin w := by
    obtain ⟨rfl, hx, rfl⟩ := hwraps
    rw [hx]
    exact BitVec.intMin_sdiv_neg_one
  obtain ⟨rfl, hx, hv⟩ := (wraps_iff hw _ _ _).1 hwraps
  have hmin : number true (BitVec.intMin w) = -2 ^ (w - 1) := BitVec.toInt_intMin_of_pos hw
  have hrem : number true (remainder true (x.setWidth w) y) = 0 := by
    rw [number_remainder, hv, Int.tmod_neg, Int.tmod_one]
  rw [hquotient, hmin, hrem, hv, Int.tdiv_neg, Int.tdiv_one, LowFaithful, if_pos ⟨rfl, rfl⟩]
  refine and_iff_left_of_imp fun hrange => ⟨?_, by decide, .inl rfl⟩
  have heq : -number true x = -2 ^ (w - 1) := by
    refine eq_of_inRange hw (k := 1 - k) ?_ inRange_least hrange
    rw [hk, hx, hhalf]
    ring
  omega

/-- Without a wrap, a faithful dividend is its low part. -/
theorem eq_low_of_lowFaithful (hw : 0 < w) (hn : w ≤ n) (isSigned : Bool) (x : BitVec n)
    {y : BitVec w} (hwraps : ¬Wraps isSigned (x.setWidth w) y)
    (hfaithful : LowFaithful isSigned w (number isSigned x) (number isSigned y)) :
    number isSigned x = number isSigned (x.setWidth w) := by
  obtain ⟨k, hk⟩ := exists_number_eq hn isSigned x
  have hhalf := two_mul_half hw
  have hlow : InRange isSigned w (number isSigned (x.setWidth w)) := number_inRange isSigned _
  rw [LowFaithful] at hfaithful
  split_ifs at hfaithful with hneg
  · obtain ⟨rfl, hv⟩ := hneg
    have hbounds : -2 ^ (w - 1) ≤ -number true x ∧ -number true x < 2 ^ (w - 1) := hfaithful
    by_cases hmax : number true x = 2 ^ (w - 1)
    · have hmin : -2 ^ (w - 1) = number true (x.setWidth w) := by
        refine eq_of_inRange hw (k := k - 1) ?_ hlow inRange_least
        have : (k - 1) * 2 ^ w = k * 2 ^ w - 2 ^ w := by ring
        rw [this]
        omega
      exact absurd ((wraps_iff hw _ _ _).2 ⟨rfl, hmin.symm, hv⟩) hwraps
    · exact eq_of_inRange hw hk hlow ⟨by omega, by omega⟩
  · exact eq_of_inRange hw hk hlow hfaithful

/-- Without a wrap, a dividend that is its low part is faithful. -/
theorem lowFaithful_of_eq_low (hw : 0 < w) (isSigned : Bool) (x : BitVec n) {y : BitVec w}
    (hwraps : ¬Wraps isSigned (x.setWidth w) y)
    (heq : number isSigned x = number isSigned (x.setWidth w)) :
    LowFaithful isSigned w (number isSigned x) (number isSigned y) := by
  have hlow : InRange isSigned w (number isSigned (x.setWidth w)) := number_inRange isSigned _
  rw [LowFaithful, heq]
  split_ifs with hneg
  · have hne : number isSigned (x.setWidth w) ≠ -2 ^ (w - 1) := fun hmin =>
      hwraps ((wraps_iff hw _ _ _).2 ⟨hneg.1, hmin, hneg.2⟩)
    rw [hneg.1] at hlow hne ⊢
    have hbounds : -2 ^ (w - 1) ≤ number true (x.setWidth w) ∧ number true (x.setWidth w) <
        2 ^ (w - 1) := hlow
    exact ⟨by omega, by omega⟩
  · exact hlow

/-- Dividing the low part of the dividend. -/
theorem divided_low_iff (hw : 0 < w) (hn : w ≤ n) (isSigned : Bool) (x : BitVec n) {y : BitVec w}
    (hy : y ≠ 0) : (InRange isSigned w ((number isSigned x).tdiv (number isSigned y)) ∧
        Divided (number isSigned x) (number isSigned y)
          (number isSigned (quotient isSigned (x.setWidth w) y))
          (number isSigned (remainder isSigned (x.setWidth w) y))) ↔
      LowFaithful isSigned w (number isSigned x) (number isSigned y) := by
  by_cases hwraps : Wraps isSigned (x.setWidth w) y
  · exact divided_low_iff_of_wraps hw hn isSigned x hwraps
  have hv := number_ne_zero isSigned hy
  rw [number_quotient hwraps, number_remainder]
  constructor
  · rintro ⟨-, hdivided⟩
    refine lowFaithful_of_eq_low hw isSigned x hwraps ?_
    rw [hdivided.division]
    exact Int.tdiv_mul_add_tmod _ _
  · intro hfaithful
    rw [eq_low_of_lowFaithful hw hn isSigned x hwraps hfaithful]
    refine ⟨?_, divided_tdiv _ hv⟩
    rw [← number_quotient hwraps]
    exact number_inRange isSigned _

end Division
