import Mathlib.Logic.Function.Iterate
import Mathlib.Tactic.Common

/-!
# Computations on a state that may throw

Rules for `EStateM ε σ`, where an error keeps the state in which it was thrown.

* `bind_eq_ok`, `bind_eq_error`: what a sequence did, from what its parts did;
* `after`: the state after a computation in either outcome; `iterate_after` lifts a reflexive and
  transitive relation from one computation to a run of any length;
* `Related`: two computations, on two types of states, have the same outcome from related states.
  `Composed` and `Phased` are two ways of building computations from given primitives, and a
  property of the primitives extends to everything so built: `Composed.related`, `Phased.related`;
* `SameOutcome`: the same for the outcomes from two given states; `RelatedUnless`: the same up to an
  error of the first, which extends to runs without such an error;
* `Phased`: first primitives of one kind, then at most one of a second, then some of a third;
* `ThrowsOnly`: every error that a computation throws satisfies a predicate;
* `Built`: a computation that makes calls of a given set only, whatever the calls return.
-/

namespace Outcome

variable {ε σ σ' α β : Type}

/-! ### Inversion -/

section Inversion

variable {x : EStateM ε σ α} {f : α → EStateM ε σ β} {s t : σ}

theorem bind_of_ok {a : α} (h : x s = .ok a t) : (x >>= f) s = f a t := by
  change EStateM.bind x f s = _
  rw [EStateM.bind, h]

theorem bind_of_error {e : ε} (h : x s = .error e t) : (x >>= f) s = .error e t := by
  change EStateM.bind x f s = _
  rw [EStateM.bind, h]

@[simp] theorem bind_eq_ok {b : β} : (x >>= f) s = .ok b t ↔
    ∃ a u, x s = .ok a u ∧ f a u = .ok b t := by
  rcases h : x s with ⟨a, u⟩ | ⟨e, u⟩
  · rw [bind_of_ok h]
    simp
  · rw [bind_of_error h]
    simp

theorem bind_eq_error {e : ε} :
    (x >>= f) s = .error e t ↔ x s = .error e t ∨ ∃ a u, x s = .ok a u ∧ f a u = .error e t := by
  rcases h : x s with ⟨a, u⟩ | ⟨e', u⟩
  · rw [bind_of_ok h]
    simp
  · rw [bind_of_error h]
    simp

@[simp] theorem pure_apply (a : α) (s : σ) : (pure a : EStateM ε σ α) s = .ok a s := rfl

@[simp] theorem throw_apply (e : ε) (s : σ) : (throw e : EStateM ε σ α) s = .error e s := rfl

end Inversion

/-! ### The state after a computation -/

/-- The state in which a computation ends, by returning or by throwing. -/
def after (x : EStateM ε σ α) (s : σ) : σ :=
  match x s with
  | .ok _ t => t
  | .error _ t => t

theorem after_of_ok {x : EStateM ε σ α} {s t : σ} {a : α} (h : x s = .ok a t) : after x s = t := by
  rw [after, h]

theorem after_of_error {x : EStateM ε σ α} {s t : σ} {e : ε} (h : x s = .error e t) :
    after x s = t := by
  rw [after, h]

/-- A preorder that one step respects is respected by every run. -/
theorem iterate_after {x : EStateM ε σ α} {R : σ → σ → Prop} (hrefl : ∀ s, R s s)
    (htrans : ∀ {s t u}, R s t → R t u → R s u) (hstep : ∀ s, R s (after x s)) (n : ℕ) (s : σ) :
    R s ((after x)^[n] s) := by
  induction n generalizing s with
  | zero => exact hrefl s
  | succ n ih =>
    rw [Function.iterate_succ_apply]
    exact htrans (hstep s) (ih _)

/-! ### Related computations -/

/-- From states related by `P`, either both computations return the same value in states related by
`Q`, or both throw the same error in states related by `E`. -/
def Related (P Q E : σ → σ' → Prop) (x : EStateM ε σ α) (y : EStateM ε σ' α) : Prop :=
  ∀ s s', P s s' →
    (∃ a t t', x s = .ok a t ∧ y s' = .ok a t' ∧ Q t t') ∨
      ∃ e t t', x s = .error e t ∧ y s' = .error e t' ∧ E t t'

namespace Related

variable {P Q R E P' Q' E' : σ → σ' → Prop} {x : EStateM ε σ α} {y : EStateM ε σ' α}
    {f : α → EStateM ε σ β} {g : α → EStateM ε σ' β}

theorem pure (a : α) : Related P P E (pure a : EStateM ε σ α) (pure a) :=
  fun s s' h => .inl ⟨a, s, s', rfl, rfl, h⟩

theorem bind (hx : Related P Q E x y) (hf : ∀ a, Related Q R E (f a) (g a)) :
    Related P R E (x >>= f) (y >>= g) := by
  intro s s' h
  obtain ⟨a, t, t', hs, hs', ht⟩ | ⟨e, t, t', hs, hs', ht⟩ := hx s s' h
  · rw [bind_of_ok hs, bind_of_ok hs']
    exact hf a t t' ht
  · rw [bind_of_error hs, bind_of_error hs']
    exact .inr ⟨e, t, t', rfl, rfl, ht⟩

theorem mono (hP : ∀ s s', P' s s' → P s s') (hQ : ∀ s s', Q s s' → Q' s s')
    (hE : ∀ s s', E s s' → E' s s') (h : Related P Q E x y) : Related P' Q' E' x y := by
  intro s s' hs
  obtain ⟨a, t, t', hx, hy, ht⟩ | ⟨e, t, t', hx, hy, ht⟩ := h s s' (hP s s' hs)
  · exact .inl ⟨a, t, t', hx, hy, hQ t t' ht⟩
  · exact .inr ⟨e, t, t', hx, hy, hE t t' ht⟩

/-- Two computations that behave alike on a single state. -/
theorem of_eq {p q e : σ → Prop} {x : EStateM ε σ α}
    (hok : ∀ s a t, p s → x s = .ok a t → q t) (herr : ∀ s c t, p s → x s = .error c t → e t) :
    Related (fun s s' => s = s' ∧ p s) (fun s s' => s = s' ∧ q s) (fun s s' => s = s' ∧
      e s) x x := by
  rintro s _ ⟨rfl, hs⟩
  rcases h : x s with ⟨a, t⟩ | ⟨c, t⟩
  · exact .inl ⟨a, t, t, rfl, rfl, rfl, hok s a t hs h⟩
  · exact .inr ⟨c, t, t, rfl, rfl, rfl, herr s c t hs h⟩

end Related

/-! ### Related outcomes -/

/-- Two outcomes: the same value in states related by `Q`, or the same error in
states related by `E`. -/
def SameOutcome (Q E : σ → σ' → Prop) (r : EStateM.Result ε σ α) (r' : EStateM.Result ε σ' α) :
    Prop :=
  (∃ a t t', r = .ok a t ∧ r' = .ok a t' ∧ Q t t') ∨
    ∃ e t t', r = .error e t ∧ r' = .error e t' ∧ E t t'

section SameOutcome

variable {P Q R E : σ → σ' → Prop} {x : EStateM ε σ α} {y : EStateM ε σ' α} {s : σ} {s' : σ'}

theorem Related.sameOutcome (h : Related P Q E x y) (hs : P s s') : SameOutcome Q E (x s) (y s') :=
  h s s' hs

theorem SameOutcome.mono {Q' E' : σ → σ' → Prop} {r : EStateM.Result ε σ α}
    {r' : EStateM.Result ε σ' α}
    (h : SameOutcome Q E r r') (hQ : ∀ t t', Q t t' → Q' t t') (hE : ∀ t t', E t t' → E' t t') :
    SameOutcome Q' E' r r' := by
  obtain ⟨a, t, t', hr, hr', ht⟩ | ⟨e, t, t', hr, hr', ht⟩ := h
  · exact .inl ⟨a, t, t', hr, hr', hQ t t' ht⟩
  · exact .inr ⟨e, t, t', hr, hr', hE t t' ht⟩

theorem SameOutcome.of_ok {a : α} {t : σ} {t' : σ'} (hx : x s = .ok a t) (hy : y s' = .ok a t')
    (h : Q t t') : SameOutcome Q E (x s) (y s') := .inl ⟨a, t, t', hx, hy, h⟩

theorem SameOutcome.bind {f : α → EStateM ε σ β} {g : α → EStateM ε σ' β}
    (h : SameOutcome Q E (x s) (y s')) (hf : ∀ a t t', Q t t' → SameOutcome R E (f a t) (g a t')) :
    SameOutcome R E ((x >>= f) s) ((y >>= g) s') := by
  obtain ⟨a, t, t', hs, hs', ht⟩ | ⟨e, t, t', hs, hs', ht⟩ := h
  · rw [bind_of_ok hs, bind_of_ok hs']
    exact hf a t t' ht
  · rw [bind_of_error hs, bind_of_error hs']
    exact .inr ⟨e, t, t', rfl, rfl, ht⟩

end SameOutcome

/-! ### Computations built from primitives -/

/-- A set of pairs of computations. -/
abbrev Pairs (ε σ σ' : Type) : Type 1 := ∀ ⦃α : Type⦄, EStateM ε σ α → EStateM ε σ' α → Prop

/-- Pairs of computations that are built alike from pairs of primitives. -/
inductive Composed (P : Pairs ε σ σ') : Pairs ε σ σ'
  | prim {α : Type} {x : EStateM ε σ α} {y : EStateM ε σ' α} (h : P x y) : Composed P x y
  | pure {α : Type} (a : α) : Composed P (pure a) (pure a)
  | bind {α β : Type} {x : EStateM ε σ α} {y : EStateM ε σ' α} {f : α → EStateM ε σ β}
      {g : α → EStateM ε σ' β}
      (hx : Composed P x y) (hf : ∀ a, Composed P (f a) (g a)) : Composed P (x >>= f) (y >>= g)

/-- Pairs of computations built from primitives in three phases: some of the first kind, at most one
of the second, some of the third. -/
inductive Phased (P₁ P₂ P₃ : Pairs ε σ σ') : Pairs ε σ σ'
  | first {α : Type} {x : EStateM ε σ α} {y : EStateM ε σ' α} (h : Composed P₁ x y) :
      Phased P₁ P₂ P₃ x y
  | second {α : Type} {x : EStateM ε σ α} {y : EStateM ε σ' α} (h : P₂ x y) : Phased P₁ P₂ P₃ x y
  | third {α : Type} {x : EStateM ε σ α} {y : EStateM ε σ' α} (h : Composed P₃ x y) :
      Phased P₁ P₂ P₃ x y
  | firstBind {α β : Type} {x : EStateM ε σ α} {y : EStateM ε σ' α} {f : α → EStateM ε σ β}
      {g : α → EStateM ε σ' β} (hx : Composed P₁ x y) (hf : ∀ a, Phased P₁ P₂ P₃ (f a) (g a)) :
      Phased P₁ P₂ P₃ (x >>= f) (y >>= g)
  | bindThird {α β : Type} {x : EStateM ε σ α} {y : EStateM ε σ' α} {f : α → EStateM ε σ β}
      {g : α → EStateM ε σ' β} (hx : Phased P₁ P₂ P₃ x y) (hf : ∀ a, Composed P₃ (f a) (g a)) :
      Phased P₁ P₂ P₃ (x >>= f) (y >>= g)

variable {P P₁ P₂ P₃ : Pairs ε σ σ'}

/-- A relation that every primitive maintains is maintained by what they build. -/
theorem Composed.related {I E : σ → σ' → Prop}
    (hprim : ∀ {α : Type} {x : EStateM ε σ α} {y : EStateM ε σ' α}, P x y → Related I I E x y)
    {x : EStateM ε σ α} {y : EStateM ε σ' α} (h : Composed P x y) : Related I I E x y := by
  induction h with
  | prim h => exact hprim h
  | pure a => exact .pure a
  | bind _ _ ihx ihf => exact ihx.bind ihf

/-- `I` holds up to the primitive of the second kind and `J` from there on. -/
theorem Phased.related {I J E : σ → σ' → Prop} (hIJ : ∀ s s', I s s' → J s s')
    (h₁ : ∀ {α : Type} {x : EStateM ε σ α} {y : EStateM ε σ' α}, P₁ x y → Related I I E x y)
    (h₂ : ∀ {α : Type} {x : EStateM ε σ α} {y : EStateM ε σ' α}, P₂ x y → Related I J E x y)
    (h₃ : ∀ {α : Type} {x : EStateM ε σ α} {y : EStateM ε σ' α}, P₃ x y → Related J J E x y)
    {x : EStateM ε σ α} {y : EStateM ε σ' α} (h : Phased P₁ P₂ P₃ x y) : Related I J E x y := by
  induction h with
  | first h => exact (h.related h₁).mono (fun _ _ => id) hIJ (fun _ _ => id)
  | second h => exact h₂ h
  | third h => exact (h.related h₃).mono hIJ (fun _ _ => id) (fun _ _ => id)
  | firstBind hx _ ih => exact (hx.related h₁).bind ih
  | bindThird _ hf ih => exact ih.bind fun a => (hf a).related h₃

/-! ### Related computations, up to an error -/

/-- The two computations have the same outcome from related states, unless the first
throws an error of `X`. -/
def RelatedUnless (X : ε → Prop) (P Q E : σ → σ' → Prop) (x : EStateM ε σ α) (y : EStateM ε σ' α) :
    Prop :=
  ∀ s s', P s s' → SameOutcome Q E (x s) (y s') ∨ ∃ e t, x s = .error e t ∧ X e

namespace RelatedUnless

variable {X : ε → Prop} {P Q R E : σ → σ' → Prop} {x : EStateM ε σ α} {y : EStateM ε σ' α}

theorem of_related (h : Related P Q E x y) : RelatedUnless X P Q E x y :=
  fun s s' hs => .inl (h s s' hs)

theorem pure (a : α) : RelatedUnless X P P E (pure a : EStateM ε σ α) (pure a) :=
  of_related (.pure a)

theorem bind {f : α → EStateM ε σ β} {g : α → EStateM ε σ' β} (hx : RelatedUnless X P Q E x y)
    (hf : ∀ a, RelatedUnless X Q R E (f a) (g a)) : RelatedUnless X P R E (x >>= f) (y >>= g) := by
  intro s s' hs
  obtain (⟨a, t, t', h, h', ht⟩ | ⟨e, t, t', h, h', ht⟩) | ⟨e, t, h, he⟩ := hx s s' hs
  · rw [bind_of_ok h, bind_of_ok h']
    exact hf a t t' ht
  · rw [bind_of_error h, bind_of_error h']
    exact .inl (.inr ⟨e, t, t', rfl, rfl, ht⟩)
  · rw [bind_of_error h]
    exact .inr ⟨e, t, rfl, he⟩

/-- Over a run none of whose steps throws an error of `X`, the states stay related, and the steps
have the same outcomes. -/
theorem iterate (h : RelatedUnless X R R R x y) (n : ℕ) {s : σ} {s' : σ'} (hs : R s s')
    (hrun : ∀ k < n, ∀ e t, x ((after x)^[k] s) = .error e t → ¬X e) :
    R ((after x)^[n] s) ((after y)^[n] s') ∧
      ∀ k < n, SameOutcome R R (x ((after x)^[k] s)) (y ((after y)^[k] s')) := by
  induction n with
  | zero => exact ⟨hs, nofun⟩
  | succ n ih =>
    obtain ⟨hn, hsame⟩ := ih fun k hk => hrun k (Nat.lt_succ_of_lt hk)
    have hlast : SameOutcome R R (x ((after x)^[n] s)) (y ((after y)^[n] s')) := by
      obtain hlast | ⟨e, t, he, hX⟩ := h _ _ hn
      · exact hlast
      · exact absurd hX (hrun n n.lt_succ_self e t he)
    refine ⟨?_, fun k hk => ?_⟩
    · rw [Function.iterate_succ_apply', Function.iterate_succ_apply']
      obtain ⟨a, t, t', hx, hy, ht⟩ | ⟨e, t, t', hx, hy, ht⟩ := hlast
      · rwa [after_of_ok hx, after_of_ok hy]
      · rwa [after_of_error hx, after_of_error hy]
    · obtain hk | rfl := Nat.lt_succ_iff_lt_or_eq.1 hk
      · exact hsame k hk
      · exact hlast

end RelatedUnless

theorem Composed.relatedUnless {X : ε → Prop} {I E : σ → σ' → Prop}
    (hprim : ∀ {α : Type} {x : EStateM ε σ α} {y : EStateM ε σ' α}, P x y →
      RelatedUnless X I I E x y)
    {x : EStateM ε σ α} {y : EStateM ε σ' α} (h : Composed P x y) : RelatedUnless X I I E x y := by
  induction h with
  | prim h => exact hprim h
  | pure a => exact .pure a
  | bind _ _ ihx ihf => exact ihx.bind ihf

theorem Phased.relatedUnless {X : ε → Prop} {I E : σ → σ' → Prop}
    (h₁ : ∀ {α : Type} {x : EStateM ε σ α} {y : EStateM ε σ' α}, P₁ x y → RelatedUnless X I I E x y)
    (h₂ : ∀ {α : Type} {x : EStateM ε σ α} {y : EStateM ε σ' α}, P₂ x y → RelatedUnless X I I E x y)
    (h₃ : ∀ {α : Type} {x : EStateM ε σ α} {y : EStateM ε σ' α}, P₃ x y → RelatedUnless X I I E x y)
    {x : EStateM ε σ α} {y : EStateM ε σ' α} (h : Phased P₁ P₂ P₃ x y) :
    RelatedUnless X I I E x y := by
  induction h with
  | first h => exact h.relatedUnless h₁
  | second h => exact h₂ h
  | third h => exact h.relatedUnless h₃
  | firstBind hx _ ih => exact (hx.relatedUnless h₁).bind ih
  | bindThird _ hf ih => exact ih.bind fun a => (hf a).relatedUnless h₃

/-! ### The errors of a computation -/

/-- Every error that the computation throws satisfies the predicate. -/
def ThrowsOnly (P : ε → Prop) (x : EStateM ε σ α) : Prop := ∀ s e t, x s = .error e t → P e

namespace ThrowsOnly

variable {P : ε → Prop} {x : EStateM ε σ α} {f : α → EStateM ε σ β}

theorem mono {Q : ε → Prop} (h : ∀ e, P e → Q e) (hx : ThrowsOnly P x) : ThrowsOnly Q x :=
  fun s e t hs => h e (hx s e t hs)

theorem pure (a : α) : ThrowsOnly P (pure a : EStateM ε σ α) := fun _ _ _ h => by cases h

theorem throw {e : ε} (h : P e) : ThrowsOnly P (throw e : EStateM ε σ α) := fun _ _ _ hs => by
  cases hs
  exact h

theorem bind (hx : ThrowsOnly P x) (hf : ∀ a, ThrowsOnly P (f a)) : ThrowsOnly P (x >>= f) := by
  intro s e u h
  obtain h | ⟨a, t, -, h⟩ := bind_eq_error.1 h
  · exact hx s e u h
  · exact hf a t e u h

end ThrowsOnly

/-! ### Computations built from calls -/

/-- A set of computations. -/
abbrev Calls (ε σ : Type) : Type 1 := ∀ ⦃α : Type⦄, EStateM ε σ α → Prop

/-- Computations that make calls of the set one after the other; which calls, may depend on the
values returned. -/
inductive Built (C : Calls ε σ) : Calls ε σ
  | call {α : Type} {x : EStateM ε σ α} (h : C x) : Built C x
  | pure {α : Type} (a : α) : Built C (pure a)
  | bind {α β : Type} {x : EStateM ε σ α} {f : α → EStateM ε σ β} (hx : Built C x)
      (hf : ∀ a, Built C (f a)) : Built C (x >>= f)

namespace Built

variable {C : Calls ε σ} {x y : EStateM ε σ α}

theorem ite {c : Prop} [Decidable c] (hx : Built C x) (hy : Built C y) :
    Built C (if c then x else y) := by
  split_ifs
  · exact hx
  · exact hy

/-- Calls that are themselves built from others. -/
theorem trans {D : Calls ε σ} (hcall : ∀ {α : Type} {x : EStateM ε σ α}, C x → Built D x)
    (hx : Built C x) : Built D x := by
  induction hx with
  | call h => exact hcall h
  | pure a => exact .pure a
  | bind _ _ ihx ihf => exact .bind ihx ihf

/-- What every call throws, bounds what is thrown. -/
theorem throwsOnly {P : ε → Prop} (hcall : ∀ {α : Type} {x : EStateM ε σ α}, C x → ThrowsOnly P x)
    (hx : Built C x) : ThrowsOnly P x := by
  induction hx with
  | call h => exact hcall h
  | pure a => exact .pure a
  | bind _ _ ihx ihf => exact ihx.bind ihf

end Built

end Outcome
