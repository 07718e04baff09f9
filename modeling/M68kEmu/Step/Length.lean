import M68kEmu.Decode.MemoryShift
import M68kEmu.Frame.Classes
import M68kEmu.Frame.Listing

/-!
# The length of an instruction, executed and disassembled

`execute` and `disassembly` step over the same parts of every instruction that does not set the
program counter, the shifts of a memory operand excepted: `BitShift::execute` reads its operand with
`getDataSilent` only, and leaves the program counter at the extension words of the operand.
-/

namespace M68kEmu

open Outcome MaskTable

/-- `Jmp`, `Jsr`, `Rts` and `Bcc` (with `BRA` and `BSR`). -/
def Derived.ControlTransfer : Derived → Prop
  | .jmp _ | .jsr _ | .rts | .bcc _ => True
  | _ => False

/-- The opcode of a shift of a memory operand that has extension words: the mode is `d16(An)`,
`d8(An,Xn)`, `abs.W` or `abs.L`. -/
def MemoryShiftWithExtension : BitVec 16 → Prop :=
  MemoryShift fun mode => (extSize mode .word).isSome

instance : DecidablePred MemoryShiftWithExtension := fun opcode =>
  inferInstanceAs (Decidable (MemoryShift (fun mode => (extSize mode .word).isSome) opcode))

/-! ### The shifts -/

/-- Whether an operand has extension words does not depend on its size. -/
theorem extSize_isSome {mode : AddressingMode} (size : DataSize) :
    (extSize mode .word).isSome = (extSize mode size).isSome := by
  cases mode <;> rfl

/-- A shift that returns has read the extension words of its operand. -/
theorem fetchable_of_bitShift {f : BitShiftOperand} (hf : (Derived.bitShift f).Valid)
    {s t : CPUState BaseMemory} {u : Unit} (h : BitShift.execute .cpuState f s = .ok u t) :
    Fetchable s.memory (s.reg regPC) (Derived.bitShift f).listed := by
  obtain ⟨_, s₁, hskip, hrest⟩ := bind_eq_ok.1 h
  obtain ⟨v, s₂, hdata, -⟩ := bind_eq_ok.1 hrest
  simp [skipOpcode] at hskip
  subst hskip
  have hpart :
      (Part.operand f.addrMode f.addrReg f.dataSize).Fetchable s.memory (s.reg regPC + 2) := by
    intro e he
    have hacc := accessible_of_getDataSilent hf.1.lt he hdata
    rwa [CPUState.reg_withReg_self named_regPC] at hacc
  rw [Derived.listed]
  split_ifs
  · exact ⟨trivial, hpart, trivial⟩
  · refine ⟨trivial, fun e he => (by cases he), ?_, trivial⟩
    have hlength : (Part.operand .directData f.shiftReg f.dataSize).length = 0#32 := rfl
    rwa [hlength, BitVec.add_zero]

/-- The listing of a shift steps over the extension words of its operand. -/
theorem delta_listed_bitShift (f : BitShiftOperand) :
    delta regPC (Derived.bitShift f).listed = 2 +
    (Part.operand f.addrMode f.addrReg f.dataSize).length := by
  rw [Derived.listed]
  split_ifs <;> simp [delta, Part.delta, Part.length, extSize]

/-! ### The lengths -/

/-- Where both step over the same parts. -/
theorem disassembly_pc_of_consumed {d : Derived} (hd : d.Valid) (hlisted : d.consumed = d.listed)
    (hpc : regPC ∉ d.written) {s t : CPUState BaseMemory} {u : Unit}
    (h : d.execute .cpuState s = .ok u t) : (after d.disassembly s).reg regPC = t.reg regPC := by
  have hstep : Step (· ∈ d.written) d.consumed (d.execute .cpuState)
      (d.execute .cpuState : CpuM BaseMemory Unit) :=
    step_execute hd
  have hconsumed := hstep.consumes s u t h
  rw [hlisted] at hconsumed
  obtain ⟨text, t', hlist, -, hpc'⟩ := (listStep_disassembly hd).lists s (hconsumed.fetched hpc)
  rw [after_of_ok hlist, hpc', hconsumed.moved _ named_regPC hpc]

theorem regPC_not_mem_assigned {mode : AddressingMode} {reg : ℕ} (h : reg < 16) :
    regPC ∉ assigned mode reg := by
  rw [assigned]
  split_ifs
  · simp only [List.mem_singleton, regPC]
    omega
  · exact List.not_mem_nil

theorem regPC_not_mem_written {d : Derived} (hd : d.Valid) (hctl : ¬d.ControlTransfer) :
    regPC ∉ d.written := by
  have hlt {reg : ℕ} (h : reg < 16) : ¬regPC = reg := by
    simp only [regPC]
    omega
  cases d with
  | add f | adda f | addx f | and f | eor f | or f | sub f | suba f | subx f =>
    exact regPC_not_mem_assigned hd.dest.lt
  | addi f | andi f | clr f | eori f | neg f | ori f | subi f =>
    exact regPC_not_mem_assigned hd.dest.lt
  | addq f | moveq f | subq f => exact regPC_not_mem_assigned hd.dest.lt
  | div f | mul f | ext f | move f => exact regPC_not_mem_assigned hd.1.dest.lt
  | bitManip f => exact regPC_not_mem_assigned hd.dest.lt
  | scc f => exact regPC_not_mem_assigned hd.1.lt
  | lea f => simpa [Derived.written] using hlt hd.2
  | link addrReg | unlk addrReg =>
    simpa [Derived.written] using ⟨hlt hd, hlt (by decide : regUSP < 16)⟩
  | pea f => simpa [Derived.written] using hlt (by decide : regUSP < 16)
  | bitShift f | cmp f | cmpa f | cmpi f | illegal | nop | tst f => exact List.not_mem_nil
  | jmp f | jsr f | rts | bcc f => exact absurd trivial hctl

/-- A shift steps over its opcode only. -/
theorem execute_pc_of_bitShift {f : BitShiftOperand} (hf : (Derived.bitShift f).Valid)
    {s t : CPUState BaseMemory} {u : Unit} (h : BitShift.execute .cpuState f s = .ok u t) :
    (after (Derived.bitShift f).disassembly s).reg regPC =
      t.reg regPC + (Part.operand f.addrMode f.addrReg f.dataSize).length := by
  have hstep : Step (· ∈ []) [.opcode] (BitShift.execute .cpuState f)
      (BitShift.execute .cpuState f : CpuM BaseMemory Unit) :=
    step_bitShift hf.2
  obtain ⟨text, t', hlist, -, hpc'⟩ :=
    (listStep_disassembly hf).lists s (fetchable_of_bitShift hf h)
  rw [after_of_ok hlist, hpc', delta_listed_bitShift, (hstep.consumes s u t h).moved _ named_regPC
    List.not_mem_nil]
  simp [delta, Part.delta, Part.length, BitVec.add_assoc]

/-- The executor and the disassembler agree on the length of an instruction, unless it shifts a
memory operand that has extension words. -/
theorem disassembly_pc_eq_iff (opcode : BitVec 16) (hctl : ¬(decode opcode).derived.ControlTransfer)
    (s t : CPUState BaseMemory) (u : Unit)
    (h : (decode opcode).derived.execute .cpuState s = .ok u t) :
    (after (decode opcode).derived.disassembly s).reg regPC = t.reg regPC ↔
    ¬MemoryShiftWithExtension opcode := by
  have hvalid := valid_decode opcode
  by_cases hcls : (decode opcode).derived.cls = .bitShift
  · obtain ⟨f, hf⟩ := Derived.eq_bitShift_of_cls hcls
    have hiff : MemoryShiftWithExtension opcode ↔ (extSize f.addrMode .word).isSome :=
      memoryShift_iff (P := fun mode => (extSize mode .word).isSome) (by decide) hf
    rw [hiff, extSize_isSome f.dataSize]
    rw [hf] at h hvalid ⊢
    rw [execute_pc_of_bitShift hvalid h, Part.length]
    rcases hext : extSize f.addrMode f.dataSize with _ | e
    · simp
    · rcases e with _ | _ | _ <;> simp [DataSize.toWord, DataSize.bytes]
  · exact iff_of_true (disassembly_pc_of_consumed hvalid (Derived.consumed_eq_listed hcls)
      (regPC_not_mem_written hvalid hctl) h) (not_memoryShift (cls_ne_illegal_of_execute h) hcls)

/-- The shift `0xE0E8` of `d16(A0)` leaves the program counter at its extension word,
the listing behind it. -/
theorem shift_displacement_lengths_differ :
    ¬(decode 0xE0E8).derived.ControlTransfer ∧
      ∃ t, (decode 0xE0E8).derived.execute .cpuState
        (CPUState.simple [0xE0, 0xE8, 0x00, 0x10] fun _ => 0) = .ok () t ∧
        (after (decode 0xE0E8).derived.disassembly
          (CPUState.simple [0xE0, 0xE8, 0x00, 0x10] fun _ => 0)).reg regPC ≠ t.reg regPC := by
  have hdecode : (decode 0xE0E8).derived =
      .bitShift { addrMode := .indirectDisplacement, addrReg := 8, shiftReg := 0, immShift := 1,
                  directionLeft := false,
                  isImm := true, isMemory := true, instructionType := .ls, instructionStr := "lsr",
                  dataSize := .word } := by
    rw [decode_eq_opcodeEntry]
    rfl
  rw [hdecode]
  exact ⟨id, _, rfl, by decide⟩

/-- `move.w d16(A0), D1` is four bytes long for both. -/
theorem move_displacement_lengths_agree :
    ∃ t, (decode 0x3228).derived.execute .cpuState
      (CPUState.simple [0x32, 0x28, 0x00, 0x10] fun _ => 0) = .ok () t ∧
      (after (decode 0x3228).derived.disassembly
        (CPUState.simple [0x32, 0x28, 0x00, 0x10] fun _ => 0)).reg regPC = t.reg regPC := by
  have hdecode : (decode 0x3228).derived =
      .move { destMode := .directData, destReg := 1, dataSize := some .word,
              srcMode := .indirectDisplacement,
              srcReg := 8, isMovea := false } := by
    rw [decode_eq_opcodeEntry]
    rfl
  obtain ⟨t, ht⟩ : ∃ t, (decode 0x3228).derived.execute .cpuState
      (CPUState.simple [0x32, 0x28, 0x00, 0x10] fun _ => 0) = .ok () t := by
    rw [hdecode]
    exact ⟨_, rfl⟩
  have hctl : ¬(decode 0x3228).derived.ControlTransfer := by rw [hdecode]; exact id
  exact ⟨t, ht, (disassembly_pc_eq_iff _ hctl _ t () ht).2 (by decide)⟩

end M68kEmu
