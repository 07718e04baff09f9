import Mathlib.Logic.Equiv.Basic
import Mathlib.Order.Lattice
import Mathlib.Tactic.Common

/-!
# Bubble sort

The algorithm on the cells `0, 1, …` of a store, by a key in a linear order.

* `sift`: one comparison; `pass`: the comparisons of the cells up to `m`; `passes`: the passes over
  `n` cells, each one cell shorter than the one before;
* `Rearranged`: the first cells have been permuted.  A pass only rearranges (`rearranged_passes`);
* `Settled`: the last cells are in place.  Each pass settles one more (`settled_pass`), so the cells
  are in order in the end (`sorted_passes`).
-/

namespace BubbleSort

variable {α β : Type} [LinearOrder β] {key : α → β} {f f' f'' : ℕ → α} {i j k m n : ℕ}

/-- The cells `j` and `j + 1` are exchanged if they are out of order. -/
def sift (key : α → β) (f : ℕ → α) (j : ℕ) : ℕ → α :=
  if key (f (j + 1)) < key (f j) then f ∘ Equiv.swap j (j + 1) else f

/-- The comparisons of the cells `0` to `m`, from the left to the right. -/
def pass (key : α → β) (f : ℕ → α) : ℕ → ℕ → α
  | 0 => f
  | m + 1 => sift key (pass key f m) m

/-- The first `i` passes over `n` cells. -/
def passes (key : α → β) (n : ℕ) (f : ℕ → α) : ℕ → ℕ → α
  | 0 => f
  | i + 1 => pass key (passes key n f i) (n - 1 - i)

/-! ### Rearrangements -/

/-- A permutation that fixes the numbers from `n` on maps those below `n` among themselves. -/
theorem perm_lt {σ : Equiv.Perm ℕ} (h : ∀ k, n ≤ k → σ k = k) (hk : k < n) : σ k < n := by
  by_contra hge
  have hfix := σ.injective (h (σ k) (by omega))
  omega

/-- The first `n` cells have been permuted. -/
def Rearranged (n : ℕ) (f f' : ℕ → α) : Prop :=
  ∃ σ : Equiv.Perm ℕ, (∀ k, n ≤ k → σ k = k) ∧ f' = f ∘ σ

namespace Rearranged

theorem refl (n : ℕ) (f : ℕ → α) : Rearranged n f f := ⟨Equiv.refl ℕ, fun _ _ => rfl, rfl⟩

theorem trans (h : Rearranged n f f') (h' : Rearranged n f' f'') : Rearranged n f f'' := by
  obtain ⟨σ, hσ, rfl⟩ := h
  obtain ⟨τ, hτ, rfl⟩ := h'
  refine ⟨τ.trans σ, fun k hk => ?_, rfl⟩
  rw [Equiv.trans_apply, hτ k hk, hσ k hk]

theorem mono (h : Rearranged m f f') (hle : m ≤ n) : Rearranged n f f' := by
  obtain ⟨σ, hσ, rfl⟩ := h
  exact ⟨σ, fun k hk => hσ k (by omega), rfl⟩

/-- A cell behind the permuted ones is the same. -/
theorem above (h : Rearranged n f f') (hk : n ≤ k) : f' k = f k := by
  obtain ⟨σ, hσ, rfl⟩ := h
  rw [Function.comp_apply, hσ k hk]

/-- One of the first cells holds what one of the first cells held. -/
theorem exists_below (h : Rearranged n f f') (hk : k < n) : ∃ k' < n, f' k = f k' := by
  obtain ⟨σ, hσ, rfl⟩ := h
  exact ⟨σ k, perm_lt hσ hk, rfl⟩

/-- What holds of all of the first cells still does. -/
theorem forall_below {P : α → Prop} (h : Rearranged n f f') (hP : ∀ k < n, P (f k)) (hk : k < n) :
    P (f' k) := by
  obtain ⟨k', hk', heq⟩ := h.exists_below hk
  rw [heq]
  exact hP k' hk'

end Rearranged

theorem rearranged_sift (key : α → β) (f : ℕ → α) (j : ℕ) :
    Rearranged (j + 2) f (sift key f j) := by
  unfold sift
  split_ifs
  · exact ⟨Equiv.swap j (j + 1), fun k hk =>
      Equiv.swap_apply_of_ne_of_ne (by omega) (by omega), rfl⟩
  · exact .refl _ f

theorem rearranged_pass (key : α → β) (f : ℕ → α) (m : ℕ) :
    Rearranged (m + 1) f (pass key f m) := by
  induction m with
  | zero => exact .refl _ f
  | succ m ih => exact (ih.mono (by omega)).trans (rearranged_sift key _ m)

theorem rearranged_passes (key : α → β) (n : ℕ) (f : ℕ → α) (i : ℕ) :
    Rearranged n f (passes key n f i) := by
  induction i with
  | zero => exact .refl n f
  | succ i ih =>
    refine ih.trans ?_
    rcases n with _ | n
    · -- there is no cell, and the pass has no comparison
      rw [passes, show 0 - 1 - i = 0 by omega]
      exact .refl 0 _
    · exact (rearranged_pass key _ _).mono (by omega)

/-! ### Order -/

/-- A pass carries the largest key to its last cell. -/
theorem pass_le_last (key : α → β) (f : ℕ → α) (hk : k ≤ m) :
    key (pass key f m k) ≤ key (pass key f m m) := by
  induction m generalizing k with
  | zero =>
    obtain rfl : k = 0 := by omega
    exact le_rfl
  | succ m ih =>
    rw [pass, sift]
    split_ifs with hlt
    · have hlast : (pass key f m ∘ Equiv.swap m (m + 1)) (m + 1) = pass key f m m := by
        rw [Function.comp_apply, Equiv.swap_apply_right]
      rw [hlast]
      obtain hk | rfl | rfl : k < m ∨ k = m ∨ k = m + 1 := by omega
      · rw [Function.comp_apply, Equiv.swap_apply_of_ne_of_ne (by omega) (by omega)]
        exact ih (by omega)
      · rw [Function.comp_apply, Equiv.swap_apply_left]
        exact le_of_lt hlt
      · rw [hlast]
    · obtain hk | rfl : k ≤ m ∨ k = m + 1 := by omega
      · exact le_trans (ih hk) (not_lt.1 hlt)
      · exact le_rfl

/-- The last `i` of `n` cells are in place. -/
def Settled (key : α → β) (n i : ℕ) (f : ℕ → α) : Prop :=
  ∀ a b, a ≤ b → b < n → n ≤ b + i → key (f a) ≤ key (f b)

/-- Each pass settles one more cell. -/
theorem settled_pass (h : Settled key n i f) (hi : i < n) :
    Settled key n (i + 1) (pass key f (n - 1 - i)) := by
  intro a b hab hb hin
  have hrearranged := rearranged_pass key f (n - 1 - i)
  by_cases hlast : b = n - 1 - i
  · subst hlast
    exact pass_le_last key f hab
  · -- `b` was settled before; `a` holds what a cell not behind `b` held
    have hb' : pass key f (n - 1 - i) b = f b := hrearranged.above (by omega)
    obtain ⟨a', ha', heq⟩ : ∃ a' ≤ b, pass key f (n - 1 - i) a = f a' := by
      by_cases ha : a < n - 1 - i + 1
      · obtain ⟨a', ha', heq⟩ := hrearranged.exists_below ha
        exact ⟨a', by omega, heq⟩
      · exact ⟨a, hab, hrearranged.above (by omega)⟩
    rw [hb', heq]
    exact h a' b ha' hb (by omega)

theorem settled_passes (key : α → β) (f : ℕ → α) (hi : i ≤ n) :
    Settled key n i (passes key n f i) := by
  induction i with
  | zero =>
    intro a b _ hb hn
    omega
  | succ i ih => exact settled_pass (ih (by omega)) (by omega)

/-- After `n - 1` passes the `n` cells are in order. -/
theorem sorted_passes (key : α → β) (n : ℕ) (f : ℕ → α) {a b : ℕ} (hab : a ≤ b) (hb : b < n) :
    key (passes key n f (n - 1) a) ≤ key (passes key n f (n - 1) b) := by
  rcases b with _ | b
  · obtain rfl : a = 0 := by omega
    exact le_rfl
  · exact settled_passes key f (Nat.sub_le n 1) a (b + 1) hab hb (by omega)

end BubbleSort
