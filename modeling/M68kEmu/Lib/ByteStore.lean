import M68kEmu.Lib.Limbs

/-!
# Numbers in bytes, and stores that overwrite one another

* `byteAt`: the bytes of a number, in the order in which `number` reads them back;
* `Patch`: a run of cells with new contents; `patched` puts patches over a store one after another,
  and `latest` is the content that the last of them gives to a cell.  `patched_eq_latest` says that
  the store remembers nothing else;
* `blockCopied`: a store after a block of cells has been copied.  `blockCopied_add` copies one more
  run of cells from the store as it is by then, which works as long as the destination does not
  start strictly inside the source.
-/

namespace ByteStore

open Limbs

/-! ### The bytes of a number -/

/-- The byte at position `k` of a number of `n` bytes, the most significant first. -/
def byteAt (n v k : ℕ) : BitVec 8 := BitVec.ofNat 8 (v / 256 ^ (n - 1 - k))

section Number

variable {bytes : ℕ → BitVec 8} {addr n v k : ℕ}

theorem toNat_byteAt (n v k : ℕ) : (byteAt n v k).toNat = v / 256 ^ (n - 1 - k) % 256 :=
  BitVec.toNat_ofNat _ 8

/-- The first bytes of a number are its leading digits. -/
theorem number_take {m : ℕ} (hm : m ≤ n) (h : ∀ k < n, bytes (addr + k) = byteAt n v k) :
    number bytes addr m = v / 256 ^ (n - m) % 256 ^ m := by
  induction m with
  | zero => rw [number, pow_zero, Nat.mod_one]
  | succ m ih =>
    have hdigit : (byteAt n v m).toNat = v / 256 ^ (n - (m + 1)) % 256 := by
      rw [toNat_byteAt, Nat.sub_sub, Nat.add_comm 1 m]
    have hpow : 256 ^ (n - m) = 256 ^ (n - (m + 1)) * 256 := by
      rw [← pow_succ]
      congr 1
      omega
    rw [number, ih (by omega), h m (by omega), hdigit, hpow, ← Nat.div_div_eq_div_mul,
      pow_succ', Nat.mod_mul, Nat.mul_comm, Nat.add_comm]

/-- The bytes of a number give it back, as far as they reach. -/
theorem number_of_byteAt (h : ∀ k < n, bytes (addr + k) = byteAt n v k) :
    number bytes addr n = v % 256 ^ n := by
  rw [number_take le_rfl h, Nat.sub_self, pow_zero, Nat.div_one]

/-- The bytes of the number in some bytes are those bytes. -/
theorem byteAt_number (h : k < n) : byteAt n (number bytes addr n) k = bytes (addr + k) := by
  obtain ⟨m, rfl⟩ : ∃ m, n = k + 1 + m := Nat.exists_eq_add_of_le h
  have hlow := number_lt bytes (addr + (k + 1)) m
  have hdiv : number bytes addr (k + 1 + m) / 256 ^ m = number bytes addr (k + 1) := by
    rw [number_append, Nat.add_comm, Nat.add_mul_div_right _ _ (Nat.pow_pos (by decide)),
      Nat.div_eq_of_lt hlow, Nat.zero_add]
  refine BitVec.eq_of_toNat_eq ?_
  have hbyte := (bytes (addr + k)).isLt
  rw [toNat_byteAt, show k + 1 + m - 1 - k = m by omega, hdiv, number]
  omega

end Number

/-! ### Patches -/

variable {β : Type}

/-- New contents for the `length` cells from `address` on. -/
structure Patch (β : Type) where
  address : ℕ
  length : ℕ
  contents : ℕ → β

namespace Patch

/-- The cell lies in the patch. -/
def Covers (p : Patch β) (i : ℕ) : Prop := p.address ≤ i ∧ i < p.address + p.length

instance (p : Patch β) (i : ℕ) : Decidable (p.Covers i) := inferInstanceAs (Decidable (_ ∧ _))

/-- The store with the patch put over it. -/
def onto (p : Patch β) (cells : ℕ → β) : ℕ → β := fun i =>
  if p.Covers i then p.contents (i - p.address) else cells i

/-- What the patch gives to a cell. -/
def content? (p : Patch β) (i : ℕ) : Option β :=
  if p.Covers i then some (p.contents (i - p.address)) else none

theorem onto_eq (p : Patch β) (cells : ℕ → β) (i : ℕ) :
    p.onto cells i = (p.content? i).getD (cells i) := by
  rw [onto, content?]
  split_ifs <;> rfl

theorem onto_of_not_covers {p : Patch β} {cells : ℕ → β} {i : ℕ} (h : ¬p.Covers i) :
    p.onto cells i = cells i := if_neg h

theorem onto_add {p : Patch β} {cells : ℕ → β} {k : ℕ} (h : k < p.length) :
    p.onto cells (p.address + k) = p.contents k := by
  have hcovers : p.Covers (p.address + k) := ⟨by omega, by omega⟩
  rw [onto, if_pos hcovers, Nat.add_sub_cancel_left]

/-- A patch depends on its contents up to its length. -/
theorem onto_congr {a n : ℕ} {c c' : ℕ → β} (h : ∀ k < n, c k = c' k) (cells : ℕ → β) :
    (⟨a, n, c⟩ : Patch β).onto cells = (⟨a, n, c'⟩ : Patch β).onto cells := by
  funext i
  by_cases hcovers : a ≤ i ∧ i < a + n
  · have hk := h (i - a) (by omega)
    exact (if_pos hcovers).trans (hk.trans (if_pos hcovers).symm)
  · exact (if_neg hcovers).trans (if_neg hcovers).symm

end Patch

/-- The store after the patches, from the first to the last. -/
def patched (cells : ℕ → β) (patches : List (Patch β)) : ℕ → β :=
  patches.foldl (fun cells p => p.onto cells) cells

/-- What the last patch that covers a cell gives to it. -/
def latest (patches : List (Patch β)) (i : ℕ) : Option β :=
  patches.foldl (fun earlier p => (p.content? i).or earlier) none

theorem foldl_content (patches : List (Patch β)) (i : ℕ) (earlier : Option β) :
    patches.foldl (fun earlier p => (p.content? i).or earlier) earlier =
    (latest patches i).or earlier := by
  induction patches generalizing earlier with
  | nil => rfl
  | cons p patches ih =>
    rw [latest, List.foldl_cons, List.foldl_cons, ih, ih, Option.or_none, Option.or_assoc]

/-- A cell holds what the last patch that covers it has given to it, and its first
content if there is none. -/
theorem patched_eq_latest (cells : ℕ → β) (patches : List (Patch β)) (i : ℕ) :
    patched cells patches i = (latest patches i).getD (cells i) := by
  induction patches generalizing cells with
  | nil => rfl
  | cons p patches ih =>
    have hcons : latest (p :: patches) i = (latest patches i).or (p.content? i) := by
      rw [latest, List.foldl_cons, Option.or_none, foldl_content]
    rw [patched, List.foldl_cons, ← patched, ih, hcons, Patch.onto_eq]
    rcases latest patches i with _ | b <;> rfl

/-! ### Block copies -/

section Copies

variable {cells : ℕ → β} {src dst m w : ℕ}

/-- The store with the `len` cells from `src` on copied to the cells from `dst` on. -/
def blockCopied (cells : ℕ → β) (src dst len : ℕ) : ℕ → β := fun i =>
  if dst ≤ i ∧ i < dst + len then cells (src + (i - dst)) else cells i

theorem blockCopied_zero (cells : ℕ → β) (src dst : ℕ) : blockCopied cells src dst 0 = cells := by
  funext i
  exact if_neg (by omega)

theorem blockCopied_inside {k : ℕ} (h : k < m) :
    blockCopied cells src dst m (dst + k) = cells (src + k) := by
  rw [blockCopied, if_pos ⟨by omega, by omega⟩, Nat.add_sub_cancel_left]

theorem blockCopied_outside {i : ℕ} (h : i < dst ∨ dst + m ≤ i) :
    blockCopied cells src dst m i = cells i :=
  if_neg (by omega)

/-- What is still to be copied has not been overwritten. -/
theorem blockCopied_ahead (h : ¬(src < dst ∧ dst < src + (m + w))) {k : ℕ} (hk : k < w) :
    blockCopied cells src dst m (src + m + k) = cells (src + m + k) := by
  by_cases hin : dst ≤ src + m + k ∧ src + m + k < dst + m
  · -- then the two blocks start at the same cell
    obtain rfl : dst = src := by omega
    rw [blockCopied, if_pos hin]
    congr 1
    omega
  · exact if_neg hin

/-- One more run of cells, copied from the store as it is by then. -/
theorem blockCopied_add (h : ¬(src < dst ∧ dst < src + (m + w))) :
    (⟨dst + m, w, fun k => blockCopied cells src dst m (src + m + k)⟩ : Patch β).onto
      (blockCopied cells src dst m) = blockCopied cells src dst (m + w) := by
  funext i
  by_cases hcovers : dst + m ≤ i ∧ i < dst + m + w
  · obtain ⟨k, rfl⟩ : ∃ k, i = dst + m + k := Nat.exists_eq_add_of_le hcovers.1
    have hk : k < w := by omega
    refine (Patch.onto_add hk).trans ((blockCopied_ahead h hk).trans ?_)
    rw [Nat.add_assoc dst, blockCopied_inside (by omega), Nat.add_assoc src]
  · refine (Patch.onto_of_not_covers (p := ⟨dst + m, w, _⟩) hcovers).trans ?_
    rw [blockCopied, blockCopied]
    by_cases hin : dst ≤ i ∧ i < dst + m
    · rw [if_pos hin, if_pos (by omega)]
    · rw [if_neg hin, if_neg (by omega)]

end Copies

end ByteStore
