import M68kEmu.Lib.Outcome
import M68kEmu.Model.CpuState
import Mathlib.Logic.Function.Basic

/-!
# `CPUState` objects (`cpu_state.hpp`)

A `CPUState` object knows its memory twice: the member `memoryPtr` points to it, and the reference
`memory`, which the methods use, is bound to it.  A `World` has a number of `IMemory` objects, named
by `ι`, and of `CPUState` objects, named by `ν`; a `Statement` builds, copies or assigns a
`CPUState` object, or calls one of its methods.
-/

namespace M68kEmu

/-- The members of a `CPUState` object. -/
structure CpuObject (ι : Type) where
  memoryPtr : ι
  memory : ι
  registers : Registers

namespace CpuObject

variable {ι : Type}

/-- `CPUState(IMemory* in_memory)`, on a pointer to an object; the reference is bound
to `*memoryPtr`. -/
def construct (inMemory : ι) : CpuObject ι where
  memoryPtr := inMemory
  memory := inMemory
  registers := ⟨fun _ => 0⟩

/-- The implicit copy constructor copies each member; the reference is bound to what that
of `rh` is bound to. -/
def copy (rh : CpuObject ι) : CpuObject ι where
  memoryPtr := rh.memoryPtr
  memory := rh.memory
  registers := rh.registers

/-- `operator=`; a reference cannot be bound again. -/
def assign (obj rh : CpuObject ι) : CpuObject ι :=
  { obj with memoryPtr := rh.memoryPtr, registers := rh.registers }

end CpuObject

/-- The memories and the live `CPUState` objects. -/
structure World (ν ι M : Type) where
  memories : ι → M
  objects : ν → Option (CpuObject ι)

/-- A statement about `CPUState` objects. -/
inductive Statement (ν ι M : Type) where
  /-- `CPUState a(&inMemory);` -/
  | construct (a : ν) (inMemory : ι)
  /-- `CPUState a(b);` -/
  | copy (a b : ν)
  /-- `a = b;` -/
  | assign (a b : ν)
  /-- A call of a method of `a`. -/
  | call (a : ν) (method : CpuM M Unit)

section Run

variable {ν ι M : Type} [DecidableEq ν] [DecidableEq ι]

namespace World

/-- No object is live. -/
def start (memories : ι → M) : World ν ι M := ⟨memories, fun _ => none⟩

/-- The world with an object built or assigned. -/
def put (w : World ν ι M) (a : ν) (obj : CpuObject ι) : World ν ι M :=
  { w with objects := Function.update w.objects a (some obj) }

/-- The state that the methods of an object work on. -/
def stateOf (w : World ν ι M) (obj : CpuObject ι) : CPUState M :=
  ⟨w.memories obj.memory, obj.registers⟩

/-- The world after a method has left the state. -/
def putState (w : World ν ι M) (a : ν) (obj : CpuObject ι) (s : CPUState M) : World ν ι M where
  memories := Function.update w.memories obj.memory s.memory
  objects := Function.update w.objects a (some { obj with registers := s.registers })

end World

/-- The effect of a statement; it has none where it names an object that is not live,
or builds one that is. -/
def Statement.run (w : World ν ι M) : Statement ν ι M → Option (World ν ι M)
  | .construct a inMemory =>
    match w.objects a with
    | none => some (w.put a (.construct inMemory))
    | some _ => none
  | .copy a b =>
    match w.objects a, w.objects b with
    | none, some rh => some (w.put a rh.copy)
    | _, _ => none
  | .assign a b =>
    match w.objects a, w.objects b with
    | some obj, some rh => some (w.put a (obj.assign rh))
    | _, _ => none
  | .call a method =>
    match w.objects a with
    | some obj => some (w.putState a obj (Outcome.after method (w.stateOf obj)))
    | none => none

/-- The effect of a sequence of statements. -/
def runStatements (w : World ν ι M) : List (Statement ν ι M) → Option (World ν ι M)
  | [] => some w
  | statement :: rest => (statement.run w).bind fun w' => runStatements w' rest

end Run

end M68kEmu
