import M68kEmu.Frame.Classes
import M68kEmu.Frame.Listing

/-!
# Disassembling while running

A listing changes the program counter and nothing else, whether it returns or throws.  So a run in
which every step is preceded by a listing of the current instruction, with the program counter put
back, is the run without listings.
-/

namespace M68kEmu

open Outcome

theorem disassembly_sameButPc {d : Derived} (h : d.Valid) (s : CPUState BaseMemory) :
    SameButPc s (after d.disassembly s) :=
  sameButPc_of_reads (listStep_disassembly h).phase s

/-! ### Listing before every step -/

/-- The disassembly of the instruction at the program counter. -/
def listCurrent : CpuM BaseMemory String := do
  let opcode ← fetchOpcode
  (decode opcode).derived.disassembly

/-- A step after a listing; an exception of the listing is caught, and the program
counter is put back. -/
def listThenStep : CpuM BaseMemory Unit :=
  fun s => step ((after listCurrent s).withReg regPC (s.reg regPC))

theorem fetchOpcode_sameButPc (s : CPUState BaseMemory) : SameButPc s (after fetchOpcode s) :=
  sameButPc_of_reads reads_fetchOpcode s

theorem listCurrent_sameButPc (s : CPUState BaseMemory) : SameButPc s (after listCurrent s) := by
  have hfetch := fetchOpcode_sameButPc s
  rcases hs : fetchOpcode s with ⟨opcode, t⟩ | ⟨e, t⟩
  · rw [after_of_ok hs] at hfetch
    have hlist : after listCurrent s = after (decode opcode).derived.disassembly t := by
      rw [after, listCurrent, bind_of_ok hs, after]
    rw [hlist]
    exact hfetch.trans (disassembly_sameButPc (valid_decode opcode) t)
  · rw [after_of_error hs] at hfetch
    have hlist : after listCurrent s = t := after_of_error (bind_of_error hs)
    rwa [hlist]

/-- A listing before a step has no effect on it. -/
theorem listThenStep_eq : listThenStep = step := by
  funext s
  rw [listThenStep, (listCurrent_sameButPc s).restore]

/-- Disassembling never disturbs execution. -/
theorem disassembly_disturbs_nothing :
    (∀ (opcode : BitVec 16) (s : CPUState BaseMemory),
      let t := after (decode opcode).derived.disassembly s
      t.memory = s.memory ∧ ∀ i, i ≠ regPC → t.registers.regBuffer i = s.registers.regBuffer i) ∧
    ∀ (n : ℕ) (s : CPUState BaseMemory), (after listThenStep)^[n] s = (after step)^[n] s := by
  refine ⟨fun opcode s => ?_, fun n s => ?_⟩
  · have h := disassembly_sameButPc (valid_decode opcode) s
    exact ⟨h.memory, h.registers⟩
  · rw [listThenStep_eq]

end M68kEmu
