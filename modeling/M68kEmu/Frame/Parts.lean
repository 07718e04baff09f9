import M68kEmu.Frame.Memory
import M68kEmu.Lib.Outcome

/-!
# What an instruction consumes

An instruction consists of an opcode word and operands (`Part`).  An operand has extension words,
over which the program counter advances, and the modes `(An)+` and `-(An)` move their base register;
`delta` adds both up.

`Consumes F parts c` says of a computation that returns: every named register outside `F` has moved
by exactly the `delta` of `parts`, and the extension words lie in readable memory.  It composes
along a sequence, and the accessors consume the operand that they are called with.
-/

namespace M68kEmu

open Outcome

/-- A part of an instruction. -/
inductive Part where
  | opcode
  | operand (mode : AddressingMode) (reg : ℕ) (size : DataSize)
  deriving DecidableEq, Repr

/-- The size of the access that fetches the extension words of an operand. -/
def extSize (mode : AddressingMode) (size : DataSize) : Option DataSize :=
  match mode with
  | .indirectDisplacement | .indirectIndex | .pcDisplacement | .pcIndex | .absWord => some .word
  | .absLong => some .long
  | .immediate => some (if size = .long then .long else .word)
  | .directData | .directAddr | .indirect | .indirectPostincrement | .indirectPredecrement
  | .unknown => none

/-- How far an operand moves its base register. -/
def baseStep (mode : AddressingMode) (reg : ℕ) (size : DataSize) : BitVec 32 :=
  match mode with
  | .indirectPostincrement => incremented reg size 0
  | .indirectPredecrement => decremented reg size 0
  | _ => 0

/-- The length of a part in bytes. -/
def Part.length : Part → BitVec 32
  | .opcode => 2
  | .operand mode _ size => ((extSize mode size).map DataSize.toWord).getD 0

/-- How far a part moves a register. -/
def Part.delta (part : Part) (r : ℕ) : BitVec 32 :=
  if r = regPC then part.length
  else match part with
    | .opcode => 0
    | .operand mode reg size => if r = reg then baseStep mode reg size else 0

/-- How far the parts move a register together. -/
def delta (r : ℕ) : List Part → BitVec 32
  | [] => 0
  | part :: parts => part.delta r + delta r parts

/-- The part can be fetched at an address. -/
def Part.Fetchable (mem : BaseMemory) (pc : BitVec 32) : Part → Prop
  | .opcode => True
  | .operand mode _ size => ∀ e, extSize mode size = some e → mem.Accessible pc e

/-- The extension words of the parts can be fetched from an address on. -/
def Fetchable (mem : BaseMemory) (pc : BitVec 32) : List Part → Prop
  | [] => True
  | part :: parts => part.Fetchable mem pc ∧ Fetchable mem (pc + part.length) parts

section Algebra

variable {r : ℕ} {ps qs : List Part} {mem mem' : BaseMemory} {pc : BitVec 32}

theorem delta_append : delta r (ps ++ qs) = delta r ps + delta r qs := by
  induction ps with
  | nil => simp [delta]
  | cons p ps ih => rw [List.cons_append, delta, delta, ih, BitVec.add_assoc]

theorem Part.delta_regPC (p : Part) : p.delta regPC = p.length := if_pos rfl

theorem Part.fetchable_congr {p : Part} (h : mem.memSize = mem'.memSize) :
    p.Fetchable mem pc ↔ p.Fetchable mem' pc := by
  cases p with
  | opcode => rfl
  | operand mode reg size => simp only [Part.Fetchable, BaseMemory.accessible_congr h]

theorem fetchable_congr (h : mem.memSize = mem'.memSize) :
    Fetchable mem pc ps ↔ Fetchable mem' pc ps := by
  induction ps generalizing pc with
  | nil => rfl
  | cons p ps ih => rw [Fetchable, Fetchable, ih, Part.fetchable_congr h]

theorem fetchable_append :
    Fetchable mem pc (ps ++ qs) ↔ Fetchable mem pc ps ∧ Fetchable mem (pc + delta regPC ps) qs := by
  induction ps generalizing pc with
  | nil => simp [Fetchable, delta]
  | cons p ps ih =>
    rw [List.cons_append, Fetchable, Fetchable, ih, delta, Part.delta_regPC,
      BitVec.add_assoc, and_assoc]

end Algebra

/-! ### Consumption -/

/-- From `s` to `t` the named registers outside `F` moved over the parts. -/
structure Consumed (F : ℕ → Prop) (parts : List Part) (s t : CPUState BaseMemory) : Prop where
  memSize : t.memory.memSize = s.memory.memSize
  moved : ∀ r, Named r → ¬F r → t.reg r = s.reg r + delta r parts
  fetched : ¬F regPC → Fetchable s.memory (s.reg regPC) parts

/-- Whenever the computation returns, it has consumed the parts. -/
def Consumes {α : Type} (F : ℕ → Prop) (parts : List Part) (c : CpuM BaseMemory α) : Prop :=
  ∀ s a t, c s = .ok a t → Consumed F parts s t

section Rules

variable {α β : Type} {F : ℕ → Prop} {ps qs : List Part} {s t u : CPUState BaseMemory}

theorem Consumed.refl (s : CPUState BaseMemory) : Consumed F [] s s where
  memSize := rfl
  moved _ _ _ := (BitVec.add_zero _).symm
  fetched _ := trivial

theorem Consumed.trans (h : Consumed F ps s t) (h' : Consumed F qs t u) :
    Consumed F (ps ++ qs) s u where
  memSize := h'.memSize.trans h.memSize
  moved r hr hF := by rw [h'.moved r hr hF, h.moved r hr hF, delta_append, BitVec.add_assoc]
  fetched hF := by
    refine fetchable_append.2 ⟨h.fetched hF, ?_⟩
    have := h'.fetched hF
    rwa [h.moved _ named_regPC hF, fetchable_congr h.memSize] at this

/-- Consumption looks at the named registers and the length of the memory only. -/
theorem Consumed.congr (h : Consumed F ps s t) (hreg : ∀ r, Named r → ¬F r → u.reg r = t.reg r)
    (hmem : u.memory.memSize = t.memory.memSize) : Consumed F ps s u where
  memSize := hmem.trans h.memSize
  moved r hr hF := (hreg r hr hF).trans (h.moved r hr hF)
  fetched := h.fetched

theorem Consumes.pure (a : α) : Consumes F [] (pure a) := by
  rintro s _ _ h
  cases h
  exact .refl s

theorem Consumes.bind {x : CpuM BaseMemory α} {f : α → CpuM BaseMemory β} (hx : Consumes F ps x)
    (hf : ∀ a, Consumes F qs (f a)) : Consumes F (ps ++ qs) (x >>= f) := by
  intro s b u h
  obtain ⟨a, t, hs, ht⟩ := bind_eq_ok.1 h
  exact (hx s a t hs).trans (hf a t b u ht)

theorem Consumes.throw (e : Fault) : Consumes F ps (throw e : CpuM BaseMemory α) := by
  rintro s a t h
  cases h

/-- A computation that changes no register outside `F` and keeps the length of the
memory consumes nothing. -/
theorem Consumes.of_kept {x : CpuM BaseMemory α}
    (h : ∀ s a t, x s = .ok a t → (∀ r, Named r → ¬F r → t.reg r = s.reg r) ∧
      t.memory.memSize = s.memory.memSize) : Consumes F [] x := by
  intro s a t hs
  exact (Consumed.refl s).congr (h s a t hs).1 (h s a t hs).2

end Rules

end M68kEmu
