import M68kEmu.Lib.Outcome

/-!
# Watched computations

`Watched ω ε σ` are computations on a state that may throw, and that record values of type `ω` on
the way.  `lift` makes one of a computation that records nothing, `record` records some values.
`erase` forgets the records, and commutes with sequencing; `Always P x s` says that all that `x`
records from the state `s` satisfies `P`, and `always_bind` takes it apart.
-/

open Outcome

/-- A computation together with what it records, in order. -/
def Watched (ω ε σ α : Type) : Type := σ → List ω × EStateM.Result ε σ α

namespace Watched

variable {ω ε σ α β : Type}

/-- What the computation records from a state. -/
def recorded (x : Watched ω ε σ α) (s : σ) : List ω := (x s).1

/-- The computation without its records. -/
def erase (x : Watched ω ε σ α) : EStateM ε σ α := fun s => (x s).2

/-- The first computation, and the second where the first returns. -/
def bind (x : Watched ω ε σ α) (f : α → Watched ω ε σ β) : Watched ω ε σ β := fun s =>
  match (x s).2 with
  | .ok a t => ((x s).1 ++ (f a t).1, (f a t).2)
  | .error e t => ((x s).1, .error e t)

instance : Monad (Watched ω ε σ) where
  pure a s := ([], .ok a s)
  bind := bind

/-- A computation that records nothing. -/
def lift (x : EStateM ε σ α) : Watched ω ε σ α := fun s => ([], x s)

/-- The record of some values. -/
def record (ws : List ω) : Watched ω ε σ Unit := fun s => (ws, .ok () s)

/-! ### Erasure -/

@[simp] theorem erase_pure (a : α) : erase (pure a : Watched ω ε σ α) = pure a := rfl

@[simp] theorem erase_bind (x : Watched ω ε σ α) (f : α → Watched ω ε σ β) :
    erase (x >>= f) = erase x >>= fun a => erase (f a) := by
  funext s
  change (bind x f s).2 = EStateM.bind (erase x) _ s
  rw [bind, EStateM.bind, erase]
  rcases (x s).2 with ⟨a, t⟩ | ⟨e, t⟩ <;> rfl

@[simp] theorem erase_lift (x : EStateM ε σ α) : erase (lift x : Watched ω ε σ α) = x := rfl

@[simp] theorem erase_record (ws : List ω) : erase (record ws : Watched ω ε σ Unit) = pure () := rfl

@[simp] theorem erase_ite {c : Prop} [Decidable c] (x y : Watched ω ε σ α) :
    erase (if c then x else y) = if c then erase x else erase y := by
  split_ifs <;> rfl

/-! ### The records -/

/-- All that is recorded from the state satisfies the predicate. -/
def Always (P : ω → Prop) (x : Watched ω ε σ α) (s : σ) : Prop := ∀ w ∈ recorded x s, P w

section Always

variable {P : ω → Prop} {x : Watched ω ε σ α} {f : α → Watched ω ε σ β} {s t : σ}

@[simp] theorem always_pure (a : α) : Always P (pure a : Watched ω ε σ α) s := nofun

@[simp] theorem always_lift (x : EStateM ε σ α) : Always P (lift x : Watched ω ε σ α) s := nofun

@[simp] theorem always_record {ws : List ω} : Always P (record ws : Watched ω ε σ Unit) s ↔
    ∀ w ∈ ws, P w := .rfl

/-- What a sequence records. -/
theorem always_bind :
    Always P (x >>= f) s ↔ Always P x s ∧ ∀ a t, erase x s = .ok a t → Always P (f a) t := by
  have hrecorded : recorded (x >>= f) s = match erase x s with
    | .ok a t => recorded x s ++ recorded (f a) t
    | .error _ _ => recorded x s := by
    change (bind x f s).1 = _
    rw [bind, erase]
    rcases (x s).2 with ⟨a, t⟩ | ⟨e, t⟩ <;> rfl
  rw [Always, hrecorded]
  rcases erase x s with ⟨a, t⟩ | ⟨e, t⟩
  · simp [Always, or_imp, forall_and]
  · simp [Always]

/-- A step that records nothing and returns. -/
theorem always_lift_bind {y : EStateM ε σ α} {a : α} (h : y s = .ok a t) :
    Always P ((lift y : Watched ω ε σ α) >>= f) s ↔ Always P (f a) t := by
  rw [always_bind, erase_lift, h]
  simp

/-- A step that throws records nothing more. -/
theorem always_lift_bind_of_error {y : EStateM ε σ α} {e : ε} (h : y s = .error e t) :
    Always P ((lift y : Watched ω ε σ α) >>= f) s := by
  rw [always_bind, erase_lift, h]
  simp

@[simp] theorem always_record_bind {ws : List ω} {g : Unit → Watched ω ε σ β} :
    Always P (record ws >>= g) s ↔ (∀ w ∈ ws, P w) ∧ Always P (g ()) s := by
  rw [always_bind, always_record]
  refine and_congr_right fun _ => ⟨fun h => h () s rfl, ?_⟩
  rintro h _ _ heq
  cases heq
  exact h

end Always

end Watched
