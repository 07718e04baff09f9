import Mathlib.Tactic.Common
import Mathlib.Data.Nat.Notation

/-!
# First-match tables of masked patterns

A pattern `(mask, value)` matches the words that have the bits of `value` at the positions of
`mask`.  A table is a list of patterns with an entry each, and a word takes the entry of the first
row that it matches.

* `Pattern.Excludes`, `Pattern.Implies`: decidable relations between two patterns, and what they say
  about the words that match;
* `candidates`: the rows that the words of a pattern can take; `withEarlier`: what a word that takes
  a row does not match;
* `field_eq_of_matches`: the pattern fixes the fields of a word that lie under its mask.
-/

namespace MaskTable

variable {w : ℕ} {α β : Type}

/-- A masked pattern. -/
structure Pattern (w : ℕ) where
  mask : BitVec w
  value : BitVec w
  deriving DecidableEq

/-- A row of a table. -/
structure Row (w : ℕ) (α : Type) extends Pattern w where
  entry : α

/-- The test of a word against a pattern. -/
def Pattern.test (p : Pattern w) (x : BitVec w) : Bool := x &&& p.mask == p.value

theorem Pattern.test_iff {p : Pattern w} {x : BitVec w} :
    p.test x = true ↔ x &&& p.mask = p.value := by
  simp [Pattern.test]

/-- The first row that a word matches. -/
def first (rows : List (Row w α)) (x : BitVec w) : Option (Row w α) := rows.find? (·.test x)

/-- The row with another entry. -/
def Row.map (f : α → β) (row : Row w α) : Row w β := ⟨row.toPattern, f row.entry⟩

/-- A change of the entries does not change which row is first. -/
theorem first_map (f : α → β) (rows : List (Row w α)) (x : BitVec w) :
    first (rows.map (Row.map f)) x = (first rows x).map (Row.map f) := by
  unfold first
  rw [List.find?_map]
  rfl

/-! ### Two patterns -/

/-- No word matches both patterns: their values differ at a position of both masks. -/
def Pattern.Excludes (p q : Pattern w) : Prop := p.value &&& q.mask ≠ q.value &&& p.mask

/-- Every word of the first pattern matches the second: the second fixes no more bits,
and to the same values. -/
def Pattern.Implies (p q : Pattern w) : Prop :=
  p.mask &&& q.mask = q.mask ∧ p.value &&& q.mask = q.value

instance (p q : Pattern w) : Decidable (p.Excludes q) := inferInstanceAs (Decidable (_ ≠ _))
instance (p q : Pattern w) : Decidable (p.Implies q) := inferInstanceAs (Decidable (_ ∧ _))

theorem Pattern.Excludes.not_test {p q : Pattern w} {x : BitVec w} (h : p.Excludes q)
    (hx : p.test x) : q.test x = false := by
  by_contra hq
  have hq : x &&& q.mask = q.value := Pattern.test_iff.1 (by simpa using hq)
  refine h ?_
  rw [← Pattern.test_iff.1 hx, ← hq, BitVec.and_assoc, BitVec.and_assoc, BitVec.and_comm q.mask]

theorem Pattern.Implies.test {p q : Pattern w} {x : BitVec w} (h : p.Implies q) (hx : p.test x) :
    q.test x := by
  rw [Pattern.test_iff] at hx ⊢
  rw [← h.2, ← hx, BitVec.and_assoc, h.1]

/-- A word that matches two patterns matches their union. -/
theorem Pattern.test_or {p q : Pattern w} {x : BitVec w} (hp : p.test x) (hq : q.test x) :
    Pattern.test ⟨p.mask ||| q.mask, p.value ||| q.value⟩ x := by
  rw [Pattern.test_iff] at hp hq ⊢
  rw [BitVec.and_or_distrib_left, hp, hq]

/-- A word that matches a pattern is the value of the pattern and what the word has
beside the mask. -/
theorem Pattern.value_or {p : Pattern w} {x : BitVec w} (hx : p.test x) :
    p.value ||| (x &&& ~~~p.mask) = x := by
  have hmask : p.mask ||| ~~~p.mask = BitVec.allOnes w := by
    ext i hi
    simp
  rw [← Pattern.test_iff.1 hx, ← BitVec.and_or_distrib_left, hmask, BitVec.and_allOnes]

/-! ### Candidates -/

/-- The rows that a word of `p` can take first, if it matches no pattern of `before`: rows that `p`
excludes are passed over, as are rows whose words match one of `before`, and the list ends with a
row that `p` implies. -/
def candidates (before : List (Pattern w)) (p : Pattern w) : List (Row w α) → List (Row w α)
  | [] => []
  | row :: rows =>
    if p.Excludes row.toPattern ∨ ∃ q ∈ before, row.toPattern.Implies q then
      candidates before p rows
    else if p.Implies row.toPattern then [row]
    else row :: candidates before p rows

theorem first_cons (row : Row w α) (rows : List (Row w α)) (x : BitVec w) :
    first (row :: rows) x = if row.test x then some row else first rows x := by
  rw [first, List.find?_cons]
  rcases row.test x with _ | _ <;> rfl

theorem mem_candidates_of_first {before : List (Pattern w)} {p : Pattern w} {rows : List (Row w α)}
    {x : BitVec w} {row : Row w α} (hbefore : ∀ q ∈ before, q.test x = false) (hx : p.test x)
    (h : first rows x = some row) : row ∈ candidates before p rows := by
  induction rows with
  | nil => simp [first] at h
  | cons row' rows ih =>
    rw [first_cons] at h
    rw [candidates]
    by_cases htest : row'.test x = true
    · rw [if_pos htest] at h
      obtain rfl := Option.some.inj h
      have hnot : ¬(p.Excludes row'.toPattern ∨ ∃ q ∈ before, row'.toPattern.Implies q) := by
        rintro (hex | ⟨q, hq, himp⟩)
        · exact absurd htest (by simp [hex.not_test hx])
        · exact absurd (himp.test htest) (by simp [hbefore q hq])
      rw [if_neg hnot]
      split_ifs
      · exact List.mem_singleton_self row'
      · exact List.mem_cons_self
    · rw [if_neg htest] at h
      split_ifs with hskip himp
      · exact ih h
      · exact absurd (himp.test hx) htest
      · exact List.mem_cons_of_mem row' (ih h)

/-- A word of a pattern that implies a row takes one of the candidates. -/
theorem exists_candidate {before : List (Pattern w)} {p : Pattern w} {rows : List (Row w α)}
    {x : BitVec w} (hbefore : ∀ q ∈ before, q.test x = false) (hx : p.test x)
    (himp : ∃ row ∈ rows, p.Implies row.toPattern) :
    ∃ row ∈ candidates before p rows, first rows x = some row := by
  obtain ⟨row, hrow, himp⟩ := himp
  rcases hfirst : first rows x with _ | row'
  · have hnot := List.find?_eq_none.1 hfirst row hrow
    exact absurd (himp.test hx) hnot
  · exact ⟨row', mem_candidates_of_first hbefore hx hfirst, rfl⟩

/-- The rows of a table with the patterns before them. -/
def withEarlier (before : List (Pattern w)) : List (Row w α) → List (List (Pattern w) × Row w α)
  | [] => []
  | row :: rows => (before, row) :: withEarlier (before ++ [row.toPattern]) rows

/-- The first row that matches is preceded by patterns that do not. -/
theorem mem_withEarlier_of_first {before : List (Pattern w)} {rows : List (Row w α)} {x : BitVec w}
    {row : Row w α} (hbefore : ∀ q ∈ before, q.test x = false) (h : first rows x = some row) :
    ∃ earlier, (earlier, row) ∈ withEarlier before rows ∧ ∀ q ∈ earlier, q.test x = false := by
  induction rows generalizing before with
  | nil => simp [first] at h
  | cons row' rows ih =>
    rw [first_cons] at h
    rw [withEarlier]
    split_ifs at h with htest
    · obtain rfl := Option.some.inj h
      exact ⟨before, List.mem_cons_self, hbefore⟩
    · have hbefore' : ∀ q ∈ before ++ [row'.toPattern], q.test x = false := by
        intro q hq
        obtain hq | hq := List.mem_append.1 hq
        · exact hbefore q hq
        · rw [List.mem_singleton.1 hq]
          simpa using htest
      obtain ⟨earlier, hmem, hnot⟩ := ih hbefore' h
      exact ⟨earlier, List.mem_cons_of_mem _ hmem, hnot⟩

/-- The first row that matches is one of the rows, and it matches. -/
theorem mem_of_first {rows : List (Row w α)} {x : BitVec w} {row : Row w α}
    (h : first rows x = some row) : row ∈ rows ∧ row.test x :=
  ⟨List.mem_of_find?_eq_some h, by simpa using List.find?_some h⟩

/-- A word without a first row matches none. -/
theorem not_test_of_first {rows : List (Row w α)} {x : BitVec w} (h : first rows x = none) :
    ∀ row ∈ rows, ¬row.test x := List.find?_eq_none.1 h

/-! ### Fields -/

/-- A field that lies under the mask is the field of the value. -/
theorem field_eq_of_matches {m v x : BitVec w} (h : x &&& m = v) (k : ℕ) (f : BitVec w)
    (hf : (f <<< k) &&& m = f <<< k) : (x >>> k) &&& f = (v >>> k) &&& f := by
  ext i hi
  simp only [BitVec.getElem_and, BitVec.getElem_ushiftRight]
  rcases hfi : f[i] with _ | _
  · simp
  · by_cases hk : k + i < w
    · have hm : m.getLsbD (k + i) = true := by
        have := congrArg (BitVec.getLsbD · (k + i)) hf
        have hfi' : f.getLsbD i = true := by rw [BitVec.getLsbD_eq_getElem hi, hfi]
        simpa [hk, hfi'] using this
      simp [← h, hm]
    · simp [BitVec.getLsbD_of_ge _ _ (Nat.not_lt.1 hk)]

/-- A mask at a position is the field at that position. -/
theorem and_shiftLeft (x f : BitVec w) (k : ℕ) : x &&& (f <<< k) = ((x >>> k) &&& f) <<< k := by
  ext i hi
  by_cases hk : i < k
  · simp [hk]
  · have hik : k + (i - k) = i := by omega
    simp [hk, hik, BitVec.getLsbD_eq_getElem hi]

/-- A word that has the bits of a mask has the bits of every smaller one. -/
theorem and_eq_of_and_eq {m v x n : BitVec w} (h : x &&& m = v) (hn : m &&& n = n) :
    x &&& n = v &&& n := by
  rw [← h, BitVec.and_assoc, hn]

/-- A word that matches a pattern matches every pattern with fewer of its bits. -/
theorem submask_matches {m v x n u : BitVec w} (h : x &&& m = v) (hn : m &&& n = n)
    (hu : v &&& n = u) : x &&& n = u :=
  (and_eq_of_and_eq h hn).trans hu

end MaskTable
