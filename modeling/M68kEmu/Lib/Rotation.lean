import Mathlib.Algebra.Group.Fin.Basic
import Mathlib.Data.Fintype.BigOperators
import Mathlib.Data.Int.GCD
import Mathlib.Tactic.Ring

/-!
# Shifts and rotations of bit vectors

* `shiftLeft_eq_self_iff`, `ushiftRight_eq_self_iff`, `sshiftRight_eq_self_iff`: a shift by a
  positive count keeps a bit vector only where all of its bits are the bit that is shifted in;
* `rotateLeft_eq_self_iff`, `rotateRight_eq_self_iff`: a rotation keeps a bit vector whose bits
  repeat with the period `gcd` of the count and the width;
* `setWidth_rotateLeft_iff`, `setWidth_rotateRight_iff`: the same for a rotation through one more
  bit, of which only the lower ones are compared.  A rotation permutes the bits, so the last one
  follows from the others;
* `setWidth_or_shifts_eq_rotateLeft`, `setWidth_or_shifts_eq_rotateRight`: a rotation out of two
  shifts in a wider register.
-/

namespace BitVec

variable {w n : ℕ} {x : BitVec w}

/-! ### Shifts -/

theorem shiftLeft_eq_self_iff : x <<< n = x ↔ n = 0 ∨ x = 0#w := by
  refine ⟨fun h => or_iff_not_imp_left.2 fun hn => ?_, ?_⟩
  · -- each bit is the one `n` places below it
    have hbit (i : ℕ) : x.getLsbD i = false := by
      induction i using Nat.strong_induction_on with
      | _ i ih =>
        rw [← h, getLsbD_shiftLeft]
        by_cases hi : i < n
        · simp [hi]
        · simp [ih (i - n) (by omega)]
    exact eq_of_getLsbD_eq fun i _ => by rw [hbit, getLsbD_zero]
  · rintro (rfl | rfl)
    · exact shiftLeft_zero x
    · exact zero_shiftLeft n

theorem ushiftRight_eq_self_iff : x >>> n = x ↔ n = 0 ∨ x = 0#w := by
  refine ⟨fun h => or_iff_not_imp_left.2 fun hn => ?_, ?_⟩
  · have hdiv : x.toNat / 2 ^ n = x.toNat := by
      rw [← Nat.shiftRight_eq_div_pow, ← toNat_ushiftRight, h]
    refine eq_of_toNat_eq (Nat.eq_zero_of_not_pos fun hpos => ?_)
    exact (Nat.div_lt_self hpos (Nat.one_lt_two_pow hn)).ne hdiv
  · rintro (rfl | rfl)
    · exact ushiftRight_zero x
    · exact zero_ushiftRight

theorem sshiftRight_eq_self_iff : x.sshiftRight n = x ↔ n = 0 ∨ x = 0#w ∨ x = allOnes w := by
  refine ⟨fun h => or_iff_not_imp_left.2 fun hn => ?_, ?_⟩
  · -- each bit is the one `n` places above it, and the uppermost ones are the sign
    have hstep {i : ℕ} (hi : i < w) :
        x.getLsbD i = if n + i < w then x.getLsbD (n + i) else x.msb := by
      have hbit := congrArg (getLsbD · i) h
      simpa only [getLsbD_sshiftRight, Nat.not_le.2 hi, decide_false, Bool.not_false, Bool.true_and]
        using hbit.symm
    have hsign (k i : ℕ) (hi : i < w) (hk : w ≤ i + k) : x.getLsbD i = x.msb := by
      induction k generalizing i with
      | zero => omega
      | succ k ih =>
        rw [hstep hi]
        split_ifs with hin
        · exact ih (n + i) hin (by omega)
        · rfl
    rcases hmsb : x.msb with _ | _
    · exact .inl (eq_of_getLsbD_eq fun i hi => by rw [hsign w i hi (by omega), hmsb, getLsbD_zero])
    · refine .inr (eq_of_getLsbD_eq fun i hi => ?_)
      rw [hsign w i hi (by omega), hmsb, getLsbD_allOnes, decide_eq_true hi]
  · rintro (rfl | rfl | rfl)
    · exact sshiftRight_zero
    · exact zero_sshiftRight
    · refine eq_of_getLsbD_eq fun i hi => ?_
      have hsign : (allOnes w).msb = true := by rw [msb_allOnes (by omega)]
      simp only [getLsbD_sshiftRight, getLsbD_allOnes, hsign, Nat.not_le.2 hi, hi,
        decide_true, decide_false, Bool.not_false, Bool.true_and]
      split_ifs with hin
      · exact decide_eq_true hin
      · rfl

/-! ### Periods -/

/-- The bits repeat around the vector with the period `d`. -/
def Repeats (x : BitVec w) (d : ℕ) : Prop := ∀ i < w, x.getLsbD ((i + d) % w) = x.getLsbD i

instance (x : BitVec w) (d : ℕ) : Decidable (Repeats x d) :=
  inferInstanceAs (Decidable (∀ i < w, x.getLsbD ((i + d) % w) = x.getLsbD i))

namespace Repeats

variable {d e : ℕ}

theorem mod_iff : Repeats x (d % w) ↔ Repeats x d := by
  simp only [Repeats, Nat.add_mod_mod]

theorem width : Repeats x w := fun i hi => by rw [Nat.add_mod_right, Nat.mod_eq_of_lt hi]

/-- Whole turns change nothing. -/
theorem of_mod_eq_zero (h : d % w = 0) : Repeats x d := by
  rw [← mod_iff, h]
  intro i hi
  rw [Nat.add_zero, Nat.mod_eq_of_lt hi]

theorem mul (h : Repeats x d) (k : ℕ) : Repeats x (d * k) := by
  induction k with
  | zero => exact fun i hi => by rw [Nat.mul_zero, Nat.add_zero, Nat.mod_eq_of_lt hi]
  | succ k ih =>
    intro i hi
    rw [Nat.mul_succ, ← Nat.add_assoc, ← Nat.mod_add_mod, h _ (Nat.mod_lt _ (by omega)), ih i hi]

/-- The periods of a vector are the multiples of a divisor of the width. -/
theorem gcd_iff : Repeats x (d.gcd w) ↔ Repeats x d := by
  refine ⟨fun h => ?_, fun h => ?_⟩
  · obtain ⟨k, hk⟩ := Nat.gcd_dvd_left d w
    rw [hk]
    exact h.mul k
  · by_cases hlt : d.gcd w < w
    · obtain ⟨k, -, hk⟩ := Nat.exists_mul_mod_eq_gcd hlt
      rw [← hk]
      exact mod_iff.2 (h.mul k)
    · by_cases hw : w = 0
      · exact fun i hi => absurd hi (by omega)
      · rw [le_antisymm (Nat.gcd_le_right d (Nat.pos_of_ne_zero hw)) (Nat.not_lt.1 hlt)]
        exact width

end Repeats

/-! ### Rotations -/

theorem getLsbD_rotateRight_eq {i : ℕ} (hi : i < w) :
    (x.rotateRight n).getLsbD i = x.getLsbD ((i + n) % w) := by
  have hmod : n % w < w := Nat.mod_lt _ (by omega)
  rw [getLsbD_rotateRight, ← Nat.add_mod_mod]
  generalize n % w = k at hmod ⊢
  by_cases hk : i < w - k
  · rw [decide_eq_true hk, cond_true, Nat.mod_eq_of_lt (by omega), Nat.add_comm]
  · have hwrap : (i + k) % w = i - (w - k) := by
      rw [Nat.mod_eq_sub_mod (by omega), Nat.mod_eq_of_lt (by omega)]
      omega
    rw [decide_eq_false hk, cond_false, decide_eq_true hi, Bool.true_and, hwrap]

theorem getLsbD_rotateLeft_eq {i : ℕ} (hi : i < w) :
    (x.rotateLeft n).getLsbD i = x.getLsbD ((i + (w - n % w)) % w) := by
  have hmod : n % w < w := Nat.mod_lt _ (by omega)
  rw [getLsbD_rotateLeft]
  generalize n % w = k at hmod ⊢
  by_cases hk : i < k
  · rw [decide_eq_true hk, cond_true, Nat.mod_eq_of_lt (by omega), Nat.add_comm]
  · have hwrap : (i + (w - k)) % w = i - k := by
      rw [Nat.mod_eq_sub_mod (by omega), Nat.mod_eq_of_lt (by omega)]
      omega
    rw [decide_eq_false hk, cond_false, decide_eq_true hi, Bool.true_and, hwrap]

/-- A rotation to the left is the complementary one to the right. -/
theorem rotateLeft_eq_rotateRight : x.rotateLeft n = x.rotateRight (w - n % w) :=
  eq_of_getLsbD_eq fun _ hi => by rw [getLsbD_rotateLeft_eq hi, getLsbD_rotateRight_eq hi]

theorem gcd_complement (n w : ℕ) (hw : 0 < w) : (w - n % w).gcd w = n.gcd w := by
  rw [Nat.gcd_self_sub_left (Nat.mod_lt n hw).le, ← Nat.gcd_rec, Nat.gcd_comm]

theorem repeats_complement : Repeats x (w - n % w) ↔ Repeats x n := by
  rcases Nat.eq_zero_or_pos w with rfl | hw
  · exact iff_of_true nofun nofun
  · rw [← Repeats.gcd_iff, gcd_complement n w hw, Repeats.gcd_iff]

theorem rotateRight_eq_self : x.rotateRight n = x ↔ Repeats x n := by
  refine ⟨fun h i hi => ?_, fun h => eq_of_getLsbD_eq fun i hi => ?_⟩
  · rw [← getLsbD_rotateRight_eq hi, h]
  · rw [getLsbD_rotateRight_eq hi, h i hi]

theorem rotateRight_eq_self_iff : x.rotateRight n = x ↔ Repeats x (n.gcd w) := by
  rw [rotateRight_eq_self, Repeats.gcd_iff]

theorem rotateLeft_eq_self_iff : x.rotateLeft n = x ↔ Repeats x (n.gcd w) := by
  rw [rotateLeft_eq_rotateRight, rotateRight_eq_self, repeats_complement, Repeats.gcd_iff]

/-! ### Rotations through one more bit -/

/-- A function that a permutation keeps at all points but one is kept at that one too. -/
theorem eq_of_perm {ι : Type} [Fintype ι] [DecidableEq ι] (σ : Equiv.Perm ι) {f : ι → Bool} {k : ι}
    (h : ∀ i ≠ k, f (σ i) = f i) : f (σ k) = f k := by
  have hsum : ∑ i, (f (σ i)).toNat = ∑ i, (f i).toNat := Equiv.sum_comp σ fun i => (f i).toNat
  rw [Fintype.sum_eq_add_sum_compl k, Fintype.sum_eq_add_sum_compl k] at hsum
  have hrest : ∑ i ∈ ({k} : Finset ι)ᶜ, (f (σ i)).toNat = ∑ i ∈ ({k} : Finset ι)ᶜ, (f i).toNat :=
    Finset.sum_congr rfl fun i hi => by rw [h i (by simpa using hi)]
  have hone : (f (σ k)).toNat = (f k).toNat := by omega
  revert hone
  cases f (σ k) <;> cases f k <;> decide

variable {y : BitVec (w + 1)}

/-- The bits below the last one determine whether the bits repeat. -/
theorem repeats_of_forall_lt (h : ∀ i < w, y.getLsbD ((i + n) % (w + 1)) = y.getLsbD i) :
    Repeats y n := by
  have hlast : y.getLsbD ((w + n) % (w + 1)) = y.getLsbD w := by
    have hshift (i : Fin (w + 1)) :
        (Equiv.addRight (Fin.ofNat (w + 1) n) i).val = (i.val + n) % (w + 1) := by
      rw [Equiv.coe_addRight, Fin.val_add, Fin.val_ofNat, Nat.add_mod_mod]
    have hperm := eq_of_perm (f := fun i : Fin (w + 1) => y.getLsbD i) (k := Fin.last w)
      (Equiv.addRight (Fin.ofNat (w + 1) n)) fun i hi => by
        rw [hshift]
        exact h i (Fin.val_lt_last hi)
    rwa [hshift] at hperm
  intro i hi
  rcases Nat.lt_succ_iff_lt_or_eq.1 hi with hlt | rfl
  · exact h i hlt
  · exact hlast

theorem setWidth_rotateRight_iff : (y.rotateRight n).setWidth w = y.setWidth w ↔
    Repeats y (n.gcd (w + 1)) := by
  refine ⟨fun h => Repeats.gcd_iff.2 (repeats_of_forall_lt fun i hi => ?_), fun h => ?_⟩
  · have hbit := congrArg (getLsbD · i) h
    simpa [hi, getLsbD_rotateRight_eq (show i < w + 1 by omega)] using hbit
  · rw [rotateRight_eq_self_iff.2 h]

theorem setWidth_rotateLeft_iff : (y.rotateLeft n).setWidth w = y.setWidth w ↔
    Repeats y (n.gcd (w + 1)) := by
  rw [rotateLeft_eq_rotateRight, setWidth_rotateRight_iff, gcd_complement n _ (Nat.succ_pos w)]

/-! ### Rotations out of two shifts -/

/-- In a wider register, the bits that leave on one side come from a shift to the other. -/
theorem setWidth_or_shifts_eq_rotateLeft {v : ℕ} (hw : w ≤ v) (hn : n ≤ w) :
    (x.setWidth v <<< n ||| x.setWidth v >>> (w - n)).setWidth w = x.rotateLeft n := by
  rw [setWidth_or, setWidth_shiftLeft_of_le hw, ← setWidth_ushiftRight hw,
    setWidth_setWidth_of_le _ hw, setWidth_setWidth_of_le _ hw, setWidth_eq, setWidth_eq]
  obtain hlt | rfl := Nat.lt_or_eq_of_le hn
  · rw [rotateLeft_def, Nat.mod_eq_of_lt hlt]
  · have hself : x.rotateLeft n = x := rotateLeft_eq_self_iff.2 (Repeats.gcd_iff.2 .width)
    rw [hself, shiftLeft_eq_zero le_rfl, Nat.sub_self, ushiftRight_zero, zero_or]

theorem setWidth_or_shifts_eq_rotateRight {v : ℕ} (hw : w ≤ v) (hn : n ≤ w) :
    (x.setWidth v >>> n ||| x.setWidth v <<< (w - n)).setWidth w = x.rotateRight n := by
  rw [setWidth_or, setWidth_shiftLeft_of_le hw, ← setWidth_ushiftRight hw,
    setWidth_setWidth_of_le _ hw, setWidth_setWidth_of_le _ hw, setWidth_eq, setWidth_eq]
  obtain hlt | rfl := Nat.lt_or_eq_of_le hn
  · rw [rotateRight_def, Nat.mod_eq_of_lt hlt]
  · have hself : x.rotateRight n = x := rotateRight_eq_self.2 .width
    rw [hself, ushiftRight_eq_zero le_rfl, Nat.sub_self, shiftLeft_zero, zero_or]

/-! ### Rotations of 0 and 1 -/

/-- A rotation brings every bit somewhere. -/
theorem rotateRight_eq_zero_iff : x.rotateRight n = 0#w ↔ x = 0#w := by
  constructor
  · intro h
    refine eq_of_getLsbD_eq fun i hi => ?_
    -- the bit at `i` goes to the place `n` below it, around the vector
    have hmod : n % w < w := Nat.mod_lt _ (by omega)
    have hplace : ((i + (w - n % w)) % w + n) % w = i := by
      rw [Nat.mod_add_mod, ← Nat.add_mod_mod, Nat.add_assoc, Nat.sub_add_cancel hmod.le,
        Nat.add_mod_right, Nat.mod_eq_of_lt hi]
    have hbit := congrArg (getLsbD · ((i + (w - n % w)) % w)) h
    simp only [getLsbD_zero] at hbit ⊢
    rwa [getLsbD_rotateRight_eq (Nat.mod_lt _ (by omega)), hplace] at hbit
  · rintro rfl
    refine eq_of_getLsbD_eq fun i hi => ?_
    rw [getLsbD_rotateRight_eq hi, getLsbD_zero, getLsbD_zero]

theorem rotateLeft_eq_zero_iff : x.rotateLeft n = 0#w ↔ x = 0#w := by
  rw [rotateLeft_eq_rotateRight, rotateRight_eq_zero_iff]

/-- A single bit is in its place after whole turns only. -/
theorem one_rotateLeft_eq_self_iff (hw : 0 < w) : (1#w).rotateLeft n = 1#w ↔ n % w = 0 := by
  constructor
  · intro h
    have hmod : n % w < w := Nat.mod_lt _ hw
    have hplace : (n % w + (w - n % w)) % w = 0 := by rw [Nat.add_sub_cancel' hmod.le, Nat.mod_self]
    have hbit := congrArg (getLsbD · (n % w)) h
    simp only [getLsbD_rotateLeft_eq hmod, hplace, getLsbD_one, hw, decide_true,
      Bool.true_and] at hbit
    simpa using hbit
  · intro h
    exact rotateLeft_eq_self_iff.2 (Repeats.gcd_iff.2 (.of_mod_eq_zero h))

end BitVec
