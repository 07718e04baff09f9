import Mathlib.Tactic.Common
import Mathlib.Tactic.Ring
import Mathlib.Data.Nat.Notation

/-!
# Numbers in several limbs

* `number`: the big-endian number in consecutive bytes; `number_append` splits it, `number_congr`
  says what it depends on;
* `chain_succ`: a sum (`ε = 1`) or difference (`ε = -1`) with carries, one limb longer; `chain_sum`
  and `chain_difference`: what the result and the last carry of a chain are.
-/

namespace Limbs

/-! ### Bytes -/

section Bytes

variable {bytes bytes' : ℕ → BitVec 8}

/-- The number in the `len` bytes from `addr` on, the most significant byte first. -/
def number (bytes : ℕ → BitVec 8) (addr : ℕ) : ℕ → ℕ
  | 0 => 0
  | len + 1 => number bytes addr len * 256 + (bytes (addr + len)).toNat

theorem number_lt (bytes : ℕ → BitVec 8) (addr len : ℕ) : number bytes addr len < 256 ^ len := by
  induction len with
  | zero => exact Nat.one_pos
  | succ len ih =>
    have hbyte := (bytes (addr + len)).isLt
    rw [number, Nat.pow_succ]
    omega

/-- The high part of a number and its low part. -/
theorem number_append (bytes : ℕ → BitVec 8) (addr m n : ℕ) :
    number bytes addr (m + n) = number bytes addr m * 256 ^ n + number bytes (addr + m) n := by
  induction n with
  | zero => rw [Nat.add_zero, number, Nat.pow_zero, Nat.mul_one, Nat.add_zero]
  | succ n ih =>
    rw [← Nat.add_assoc, number, ih, number, Nat.add_assoc addr m n]
    ring

/-- A number depends on its bytes only. -/
theorem number_congr {addr len : ℕ} (h : ∀ i, addr ≤ i → i < addr + len → bytes i = bytes' i) :
    number bytes addr len = number bytes' addr len := by
  induction len with
  | zero => rfl
  | succ len ih =>
    rw [number, number, ih fun i hi hi' => h i hi (by omega), h (addr + len) (by omega) (by omega)]

end Bytes

/-! ### Chains of carries -/

section Chains

variable {ε W B result result' x x' y y' c₀ c c' S : ℤ}

/-- A chain and the limb above it. -/
theorem chain_succ (hlow : result = x + ε * (y + c₀ - W * c))
    (hlimb : result' = x' + ε * (y' + c - B * c')) :
    result' * W + result = (x' * W + x) + ε * ((y' * W + y) + c₀ - B * W * c') := by
  rw [hlow, hlimb]
  ring

/-- The result of a chain with an outgoing carry. -/
theorem chain_sum (h : result = S - W * c) (hpos : 0 ≤ result) (hlt : result < W)
    (hc : c = 0 ∨ c = 1) : result = S % W ∧ (c = 1 ↔ W ≤ S) := by
  obtain rfl : S = result + W * c := by rw [h, Int.sub_add_cancel]
  refine ⟨?_, ?_⟩
  · rw [Int.add_mul_emod_self_left, Int.emod_eq_of_lt hpos hlt]
  · obtain rfl | rfl := hc <;> omega

/-- The result of a chain with an outgoing borrow. -/
theorem chain_difference (h : result = S + W * c) (hpos : 0 ≤ result) (hlt : result < W)
    (hc : c = 0 ∨ c = 1) : result = S % W ∧ (c = 1 ↔ S < 0) := by
  obtain rfl : S = result - W * c := by rw [h, Int.add_sub_cancel]
  refine ⟨?_, ?_⟩
  · rw [Int.sub_mul_emod_self_left, Int.emod_eq_of_lt hpos hlt]
  · obtain rfl | rfl := hc <;> omega

end Chains

end Limbs
