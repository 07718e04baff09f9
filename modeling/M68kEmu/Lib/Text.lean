import Mathlib.Data.List.Infix
import Mathlib.Data.Nat.Notation
import Mathlib.Tactic.Common

/-!
# Reading a text back

A printer writes its fields one after the other.  What the fields were follows from the text, if it
is known where each of them ends:

* `append_inj_of_all`: a field of characters of one kind, before a character of another kind;
* `Unbroken`, `append_break_inj`: a field that the separator does not occur in,
  before the separator;
* `join`, `join_inj`: any number of such fields, with the separator between them;
* `toDigits_inj`: a number, from its digits;
* `marks`: the punctuation of a text, which tells texts of different shapes apart.
-/

namespace Text

variable {α : Type}

/-! ### Fields of one kind of characters -/

theorem takeWhile_append_of_all {p : α → Bool} {l r : List α} (hl : ∀ x ∈ l, p x)
    (hr : ∀ x ∈ r.head?, p x = false) : (l ++ r).takeWhile p = l := by
  rw [List.takeWhile_append_of_pos hl]
  rcases r with _ | ⟨x, r⟩
  · simp
  · rw [List.takeWhile_cons_of_neg (by simp [hr x rfl]), List.append_nil]

/-- Two texts that begin with a field of the same kind of characters have the same field. -/
theorem append_inj_of_all {p : α → Bool} {l l' r r' : List α} (hl : ∀ x ∈ l, p x)
    (hl' : ∀ x ∈ l', p x)
    (hr : ∀ x ∈ r.head?, p x = false) (hr' : ∀ x ∈ r'.head?, p x = false) (h : l ++ r = l' ++ r') :
    l = l' ∧ r = r' := by
  have hfield : l = l' := by
    rw [← takeWhile_append_of_all hl hr, h, takeWhile_append_of_all hl' hr']
  subst hfield
  exact ⟨rfl, List.append_cancel_left h⟩

/-! ### Fields before a separator of two characters -/

section Break

variable {a b : α}

/-- The text without its separator: neither does `a b` occur in it, nor does it end in `a`. -/
def Unbroken (a b : α) : List α → Prop
  | [] => True
  | [x] => x ≠ a
  | x :: y :: l => (x = a → y ≠ b) ∧ Unbroken a b (y :: l)

theorem Unbroken.of_forall_ne {l : List α} (h : ∀ x ∈ l, x ≠ a) : Unbroken a b l := by
  induction l with
  | nil => trivial
  | cons x l ih =>
    have hl := ih fun y hy => h y (List.mem_cons_of_mem x hy)
    have hx := h x List.mem_cons_self
    rcases l with _ | ⟨y, l⟩
    · exact hx
    · exact ⟨fun hxa => absurd hxa hx, hl⟩

theorem Unbroken.cons {x : α} {l : List α} (hx : x ≠ a) (h : Unbroken a b l) :
    Unbroken a b (x :: l) := by
  rcases l with _ | ⟨y, l⟩
  · exact hx
  · exact ⟨fun hxa => absurd hxa hx, h⟩

theorem Unbroken.append {l r : List α} (hl : ∀ x ∈ l, x ≠ a) (hr : Unbroken a b r) :
    Unbroken a b (l ++ r) := by
  induction l with
  | nil => exact hr
  | cons x l ih =>
    exact (ih fun y hy => hl y (List.mem_cons_of_mem x hy)).cons (hl x List.mem_cons_self)

/-- A comma that something else than a blank follows. -/
theorem Unbroken.cons_cons {y : α} {l : List α} (hy : y ≠ b) (h : Unbroken a b (y :: l)) :
    Unbroken a b (a :: y :: l) := ⟨fun _ => hy, h⟩

theorem Unbroken.tail {x : α} {l : List α} (h : Unbroken a b (x :: l)) : Unbroken a b l := by
  rcases l with _ | ⟨y, l⟩
  · trivial
  · exact h.2

/-- The separator does not occur in an unbroken text. -/
theorem Unbroken.ne_append {l m r : List α} (h : Unbroken a b l) : l ≠ m ++ a :: b :: r := by
  induction m generalizing l with
  | nil =>
    rintro rfl
    exact h.1 rfl rfl
  | cons x m ih =>
    rintro rfl
    exact ih h.tail rfl

/-- Two texts with the same separator after an unbroken field have the same field. -/
theorem append_break_inj {l l' r r' : List α} (hl : Unbroken a b l) (hl' : Unbroken a b l')
    (h : l ++ a :: b :: r = l' ++ a :: b :: r') : l = l' ∧ r = r' := by
  induction l generalizing l' with
  | nil =>
    rcases l' with _ | ⟨x, _ | ⟨y, l'⟩⟩
    · simpa using h
    · simp only [List.nil_append, List.cons_append, List.cons.injEq] at h
      exact absurd h.1.symm hl'
    · simp only [List.nil_append, List.cons_append, List.cons.injEq] at h
      exact absurd h.2.1.symm (hl'.1 h.1.symm)
  | cons x l ih =>
    rcases l' with _ | ⟨x', l'⟩
    · rcases l with _ | ⟨y, l⟩
      · simp only [List.nil_append, List.cons_append, List.cons.injEq] at h
        exact absurd h.1 hl
      · simp only [List.nil_append, List.cons_append, List.cons.injEq] at h
        exact absurd h.2.1 (hl.1 h.1)
    · rw [List.cons_append, List.cons_append, List.cons.injEq] at h
      obtain ⟨rfl, h⟩ := h
      obtain ⟨rfl, rfl⟩ := ih hl.tail hl'.tail h
      exact ⟨rfl, rfl⟩

/-- The fields, with the separator between them. -/
def join (a b : α) : List (List α) → List α
  | [] => []
  | [l] => l
  | l :: m :: ls => l ++ a :: b :: join a b (m :: ls)

theorem join_ne_nil {l : List α} {ls : List (List α)} (hl : l ≠ []) : join a b (l :: ls) ≠ [] := by
  rcases ls with _ | ⟨m, ls⟩ <;> simp [join, hl]

/-- Fields that are unbroken and not empty are known from the text that joins them. -/
theorem join_inj {ls ms : List (List α)} (hls : ∀ l ∈ ls, Unbroken a b l ∧ l ≠ [])
    (hms : ∀ m ∈ ms, Unbroken a b m ∧ m ≠ []) (h : join a b ls = join a b ms) : ls = ms := by
  induction ls generalizing ms with
  | nil =>
    rcases ms with _ | ⟨m, ms⟩
    · rfl
    · exact absurd h.symm (join_ne_nil (hms m List.mem_cons_self).2)
  | cons l ls ih =>
    obtain ⟨hl, hne⟩ := hls l List.mem_cons_self
    rcases ms with _ | ⟨m, ms⟩
    · exact absurd h (join_ne_nil hne)
    have hm := (hms m List.mem_cons_self).1
    rcases ls with _ | ⟨l', ls⟩ <;> rcases ms with _ | ⟨m', ms⟩
    · rw [join, join] at h
      rw [h]
    · exact absurd h hl.ne_append
    · exact absurd h.symm hm.ne_append
    · obtain ⟨rfl, hrest⟩ := append_break_inj hl hm h
      rw [ih (fun x hx => hls x (List.mem_cons_of_mem l hx))
        (fun x hx => hms x (List.mem_cons_of_mem l hx)) hrest]

end Break

/-- Lists of fields are known from the lists of their texts. -/
theorem map_inj_of_mem {β : Type} {f : α → β} {l m : List α}
    (hf : ∀ x ∈ l, ∀ y ∈ m, f x = f y → x = y) (h : l.map f = m.map f) : l = m := by
  induction l generalizing m with
  | nil => exact (List.map_eq_nil_iff.1 h.symm).symm
  | cons x l ih =>
    rcases m with _ | ⟨y, m⟩
    · cases h
    · rw [List.map_cons, List.map_cons, List.cons.injEq] at h
      have hhead := hf x List.mem_cons_self y List.mem_cons_self h.1
      have htail :=
        ih (fun x hx y hy => hf x (List.mem_cons_of_mem _ hx) y (List.mem_cons_of_mem _ hy)) h.2
      rw [hhead, htail]

/-! ### Numbers -/

theorem digitChar_inj : ∀ m < 16, ∀ n < 16, Nat.digitChar m = Nat.digitChar n → m = n := by decide

/-- A number is known from its hexadecimal digits. -/
theorem toDigits_inj {m n : ℕ} (h : Nat.toDigits 16 m = Nat.toDigits 16 n) : m = n := by
  induction m using Nat.strong_induction_on generalizing n with
  | _ m ih =>
    rw [Nat.toDigits_eq_if (by decide), Nat.toDigits_eq_if (by decide) (n := n)] at h
    split_ifs at h with hm hn hn
    · exact digitChar_inj m hm n hn (List.singleton_inj.1 h)
    · have hlength := congrArg List.length h
      have hpos := @Nat.length_toDigits_pos 16 (n / 16)
      simp at hlength
    · have hlength := congrArg List.length h
      have hpos := @Nat.length_toDigits_pos 16 (m / 16)
      simp at hlength
    · obtain ⟨hrest, hlast⟩ := List.append_inj' h rfl
      have hdiv : m / 16 = n / 16 := ih (m / 16) (by omega) hrest
      have hmod : m % 16 = n % 16 :=
        digitChar_inj _ (Nat.mod_lt m (by decide)) _ (Nat.mod_lt n (by decide))
          (List.singleton_inj.1 hlast)
      omega

theorem isAlphanum_digitChar : ∀ n < 16, (Nat.digitChar n).isAlphanum := by decide

/-- Hexadecimal digits are letters and digits. -/
theorem isAlphanum_of_mem_toDigits {n : ℕ} {c : Char} (h : c ∈ Nat.toDigits 16 n) :
    c.isAlphanum := by
  induction n using Nat.strong_induction_on with
  | _ n ih =>
    rw [Nat.toDigits_eq_if (by decide)] at h
    split_ifs at h with hn
    · rw [List.mem_singleton.1 h]
      exact isAlphanum_digitChar n hn
    · rcases List.mem_append.1 h with h | h
      · exact ih (n / 16) (by omega) h
      · rw [List.mem_singleton.1 h]
        exact isAlphanum_digitChar _ (Nat.mod_lt n (by decide))

/-! ### Shapes -/

/-- The characters that are neither letters nor digits. -/
def marks (l : List Char) : List Char := l.filter fun c => !c.isAlphanum

@[simp] theorem marks_nil : marks [] = [] := rfl

@[simp] theorem marks_cons (c : Char) (l : List Char) :
    marks (c :: l) = if c.isAlphanum then marks l else c :: marks l := by
  cases h : c.isAlphanum <;> simp [marks, h]

@[simp] theorem marks_append (l r : List Char) : marks (l ++ r) = marks l ++ marks r :=
  List.filter_append _ _

@[simp] theorem marks_toDigits (n : ℕ) : marks (Nat.toDigits 16 n) = [] := by
  rw [marks, List.filter_eq_nil_iff]
  intro c hc
  simp [isAlphanum_of_mem_toDigits hc]

end Text
