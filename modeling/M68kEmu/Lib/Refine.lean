import Mathlib.Logic.Relation
import M68kEmu.Lib.Outcome

/-!
# Computations seen from an abstract state

`R s g` says that the state `s` is seen as `g`.  `Turns R x g a g'` says that `x`, started in any
state seen as `g`, returns `a` in a state seen as `g'`; nothing is thrown.  It is a rule of pre- and
postconditions in which both are points of the abstract state space, so that a program is followed
by computing with abstract states alone.

* `Turns.bind`, `Turns.pure`, `Turns.ite`: the rules for the constructs of `EStateM`;
* `Run next stop`: the turns of the loop `while (!stop) next();`;
* `Path R next stop`: the same on abstract states, and `Path.run`: a path is a run of the machine;
* `path_upTo`: the rule for loops that count.
-/

namespace Refine

open Outcome Relation

variable {ε σ γ α β : Type}

/-! ### Computations -/

/-- From every state seen as `g`, the computation returns `a` in a state seen as `g'`. -/
def Turns (R : σ → γ → Prop) (x : EStateM ε σ α) (g : γ) (a : α) (g' : γ) : Prop :=
  ∀ s, R s g → ∃ t, x s = .ok a t ∧ R t g'

namespace Turns

variable {R : σ → γ → Prop} {x y : EStateM ε σ α} {f : α → EStateM ε σ β} {g g' g'' : γ}
    {a : α} {b : β}

theorem pure (a : α) (g : γ) : Turns R (pure a : EStateM ε σ α) g a g := fun s hs => ⟨s, rfl, hs⟩

theorem bind (hx : Turns R x g a g') (hf : Turns R (f a) g' b g'') : Turns R (x >>= f) g b g'' := by
  intro s hs
  obtain ⟨t, hrun, ht⟩ := hx s hs
  rw [bind_of_ok hrun]
  exact hf t ht

theorem ite {c : Prop} [Decidable c] (hx : c → Turns R x g a g') (hy : ¬c → Turns R y g a g') :
    Turns R (if c then x else y) g a g' := by
  split_ifs with h
  · exact hx h
  · exact hy h

end Turns

/-! ### Runs of a machine -/

section Runs

variable {R : σ → γ → Prop} {next : EStateM ε σ Unit} {stop : σ → Prop} {halt : γ → Prop}
    {s : σ} {g g' : γ}

/-- One turn of `while (!stop) next();` that does not throw. -/
def Step (next : EStateM ε σ Unit) (stop : σ → Prop) (s t : σ) : Prop := ¬stop s ∧ next s = .ok () t

/-- Some turns of the loop. -/
abbrev Run (next : EStateM ε σ Unit) (stop : σ → Prop) : σ → σ → Prop :=
  ReflTransGen (Step next stop)

/-- One turn of the loop on abstract states. -/
def Turn (R : σ → γ → Prop) (next : EStateM ε σ Unit) (halt : γ → Prop) (g g' : γ) : Prop :=
  ¬halt g ∧ Turns R next g () g'

/-- Some turns of the loop on abstract states. -/
abbrev Path (R : σ → γ → Prop) (next : EStateM ε σ Unit) (halt : γ → Prop) : γ → γ → Prop :=
  ReflTransGen (Turn R next halt)

/-- A path is a run of the machine, from whatever state is seen as its start. -/
theorem Path.run (hstop : ∀ s g, R s g → stop s → halt g) (h : Path R next halt g g') (hs : R s g) :
    ∃ t, Run next stop s t ∧ R t g' := by
  induction h using ReflTransGen.head_induction_on generalizing s with
  | refl => exact ⟨s, .refl, hs⟩
  | head hturn _ ih =>
    obtain ⟨u, hu, hshown⟩ := hturn.2 s hs
    obtain ⟨t, ht, hend⟩ := ih hshown
    exact ⟨t, ht.head ⟨fun h => hturn.1 (hstop s _ hs h), hu⟩, hend⟩

/-- A loop that counts up from `0` to `n` and maintains `I`. -/
theorem path_upTo {I : ℕ → γ → Prop} {n : ℕ}
    (hbody : ∀ k < n, ∀ g, I k g → ∃ g', Path R next halt g g' ∧ I (k + 1) g')
    (hg : I 0 g) : ∃ g', Path R next halt g g' ∧ I n g' := by
  induction n with
  | zero => exact ⟨g, .refl, hg⟩
  | succ n ih =>
    obtain ⟨g₁, hpath, hI⟩ := ih fun k hk => hbody k (by omega)
    obtain ⟨g₂, hlast, hI'⟩ := hbody n (by omega) g₁ hI
    exact ⟨g₂, hpath.trans hlast, hI'⟩

end Runs

end Refine
