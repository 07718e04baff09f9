import M68kEmu.Frame.Calls

/-!
# The faults of an access

The accessors of `CPUState` stop for the checks of the register file and of `BaseMemory`,
and for nothing else.
-/

namespace M68kEmu

open Outcome

/-- The faults that a register or a memory access raises. -/
def Fault.IsAccess : Fault → Prop
  | .addressOdd | .addressOutOfRange _ _ | .assertion .registerIndex => True
  | .invalidOpcode | .assertion .knownMode | .uninitialised | .divideByZero => False

/-- The computation raises no other faults. -/
abbrev AccessOnly {α : Type} (x : CpuM BaseMemory α) : Prop := ThrowsOnly Fault.IsAccess x

section Calls

variable {α : Type} {R : ℕ → Prop} {x : CpuM BaseMemory α}

theorem BaseMemory.isAccess_of_check {mem : BaseMemory} {address : ℕ} {size : DataSize} {e : Fault}
    (h : mem.check address size = .error e) : e.IsAccess := by
  rw [BaseMemory.check] at h
  split_ifs at h <;> cases h <;> trivial

theorem accessOnly_of_call (hx : MemberCall R x) : AccessOnly x := by
  intro s e t h
  cases hx with
  | @getReg r _ size =>
    simp only [M68kEmu.getReg, Registers.get] at h
    split_ifs at h
    cases h
    trivial
  | @setReg r _ size data =>
    simp only [M68kEmu.setReg, Registers.set] at h
    split_ifs at h
    cases h
    trivial
  | getFlag | setFlag => cases h
  | memGet addr size =>
    simp only [M68kEmu.memGet, IMemory.get, BaseMemory.get] at h
    rcases hcheck : s.memory.check (maskAddr addr.toNat) size with e' | u
    · rw [hcheck] at h
      cases h
      exact BaseMemory.isAccess_of_check hcheck
    · rw [hcheck] at h
      cases h
  | memSet addr size data =>
    simp only [M68kEmu.memSet, IMemory.set, BaseMemory.set] at h
    rcases hcheck : s.memory.check (maskAddr addr.toNat) size with e' | u
    · rw [hcheck] at h
      cases h
      exact BaseMemory.isAccess_of_check hcheck
    · rw [hcheck] at h
      cases h

theorem accessOnly_of_members (hx : MemberCalls R x) : AccessOnly x :=
  hx.throwsOnly accessOnly_of_call

end Calls

section Accessors

variable (mode : AddressingMode) (reg : ℕ) (size : DataSize)

theorem accessOnly_getControlAddress : AccessOnly (CPUState.getControlAddress mode reg size) :=
  accessOnly_of_members (R := fun _ => True) (members_getControlAddress trivial (fun _ _ => trivial)
    mode trivial size)

theorem accessOnly_getData : AccessOnly (CPUState.getData mode reg size) :=
  accessOnly_of_members (R := fun _ => True)
    (members_getData trivial (fun _ _ => trivial) mode trivial size)

theorem accessOnly_getDataSilent : AccessOnly (CPUState.getDataSilent mode reg size) :=
  accessOnly_of_members (R := fun _ => True)
    (members_getDataSilent trivial (fun _ _ => trivial) mode trivial size)

theorem accessOnly_setData (data : BitVec 32) : AccessOnly (CPUState.setData mode reg size data) :=
  accessOnly_of_members (R := fun _ => True)
    (members_setData trivial (fun _ _ => trivial) mode trivial size data)

end Accessors

end M68kEmu
