import M68kEmu.Frame.Invariants
import M68kEmu.Frame.Operands

/-!
# What `disassembly` does, class by class

A listing reads, and writes no register but the program counter.  Where the extension words of its
operands can be fetched it returns, with the program counter past them (`listStep_disassembly`).
-/

namespace M68kEmu

open Outcome

variable {α β : Type} {ps qs : List Part}

/-- A computation that only reads, and that steps over the parts if they can be fetched. -/
structure ListStep (parts : List Part) (x : CpuM BaseMemory α) : Prop where
  phase : Reads OnlyPc x x
  lists : ∀ s, Fetchable s.memory (s.reg regPC) parts →
    ∃ a t, x s = .ok a t ∧ t.memory = s.memory ∧ t.reg regPC = s.reg regPC + delta regPC parts

/-! ### Rules -/

theorem ListStep.pure (a : α) : ListStep [] (pure a : CpuM BaseMemory α) :=
  ⟨.pure a, fun s _ => ⟨a, s, rfl, rfl, (BitVec.add_zero _).symm⟩⟩

theorem ListStep.bind {x : CpuM BaseMemory α} {f : α → CpuM BaseMemory β} (hx : ListStep ps x)
    (hf : ∀ a, ListStep qs (f a)) : ListStep (ps ++ qs) (x >>= f) := by
  refine ⟨.bind hx.phase fun a => (hf a).phase, fun s hs => ?_⟩
  obtain ⟨hps, hqs⟩ := fetchable_append.1 hs
  obtain ⟨a, t, hxs, hmem, hpc⟩ := hx.lists s hps
  rw [← hmem, ← hpc] at hqs
  obtain ⟨b, u, hft, hmem', hpc'⟩ := (hf a).lists t hqs
  exact ⟨b, u, by rw [bind_of_ok hxs, hft], hmem'.trans hmem,
    by rw [hpc', hpc, delta_append, BitVec.add_assoc]⟩

/-- A text after the parts. -/
theorem ListStep.bind_pure {x : CpuM BaseMemory α} (hx : ListStep ps x) (g : α → β) :
    ListStep ps (x >>= fun a => Pure.pure (g a)) := by
  have h := hx.bind fun a => ListStep.pure (g a)
  rwa [List.append_nil] at h

/-- The lines that fetch an extension word and step over it. -/
theorem listStep_fetch {mode : AddressingMode} {reg : ℕ} {size e : DataSize} {n : BitVec 32}
    (he : extSize mode size = some e) (hn : n = e.toWord) (g : BitVec 32 → β) :
    ListStep [.operand mode reg size] (do
      let pc ← getReg regPC .long
      let v ← memGet pc e
      setReg regPC .long (pc + n)
      return g v) := by
  refine ⟨.bind (reads_getReg _ _) fun _ => .bind (reads_memGet _ _) fun _ =>
    .bind (reads_setReg onlyPc_regPC _) fun _ =>
    .pure _, fun s hs => ?_⟩
  have hacc : s.memory.Accessible (s.reg regPC) e := hs.1 e he
  refine ⟨g (s.memory.read (s.reg regPC) e), s.withReg regPC (s.reg regPC + n), ?_, rfl, ?_⟩
  · rw [bind_of_ok (getReg_long named_regPC), bind_of_ok (memGet_of_accessible hacc),
      bind_of_ok (setReg_long named_regPC)]
    rfl
  · rw [CPUState.reg_withReg_self named_regPC]
    simp [delta, Part.delta, Part.length, he, hn]

theorem listStep_skipOpcode : ListStep [.opcode] (skipOpcode : CpuM BaseMemory Unit) := by
  refine ⟨.bind (reads_getReg _ _) fun _ => reads_setReg onlyPc_regPC _, fun s _ => ?_⟩
  refine ⟨(), s.withReg regPC (s.reg regPC + 2), ?_, rfl, ?_⟩
  · rw [skipOpcode, bind_of_ok (getReg_long named_regPC), setReg_long named_regPC]
  · rw [CPUState.reg_withReg_self named_regPC]
    simp [delta, Part.delta, Part.length]

theorem listStep_effectiveAddress (mode : AddressingMode) (reg : ℕ) (size : DataSize) :
    ListStep [.operand mode reg size]
      (Disassembler.effectiveAddress mode reg size : CpuM BaseMemory String) := by
  have hpure (text : String) (he : extSize mode size = none) :
      ListStep [.operand mode reg size] (Pure.pure text : CpuM BaseMemory String) :=
    ⟨.pure _, fun s _ => ⟨text, s, rfl, rfl, by simp [delta, Part.delta, Part.length, he]⟩⟩
  cases mode with
  | directData | directAddr | indirect | indirectPostincrement | indirectPredecrement | unknown =>
    exact hpure _ rfl
  | indirectDisplacement => exact listStep_fetch (e := .word) rfl rfl _
  | indirectIndex => exact listStep_fetch (e := .word) rfl rfl _
  | pcDisplacement => exact listStep_fetch (e := .word) rfl rfl _
  | pcIndex => exact listStep_fetch (e := .word) rfl rfl _
  | absWord => exact listStep_fetch (e := .word) rfl rfl _
  | absLong => exact listStep_fetch (e := .long) rfl rfl _
  | immediate =>
    exact listStep_fetch rfl rfl fun v => "#$" ++ hex32 (if size = .byte then mask8 v else v)

theorem listStep_getData_immediate (size : DataSize) :
    ListStep [.operand .immediate regD0 size]
      (CPUState.getData .immediate regD0 size : CpuM BaseMemory _) :=
  listStep_fetch rfl rfl fun v => if size = .byte then mask8 v else v

/-! ### The classes -/

theorem listStep_readSize {dataSize : Option DataSize} {f : DataSize → CpuM BaseMemory α}
    (h : dataSize.isSome)
    (hf : ListStep ps (f (dataSize.getD .long))) : ListStep ps (readSize dataSize >>= f) := by
  obtain ⟨size, rfl⟩ := Option.isSome_iff_exists.1 h
  exact hf

theorem listStep_listTwoOperand (name : String) {f : TwoOperand} (h : f.dataSize.isSome) :
    ListStep [.opcode, f.srcPart, f.destPart] (listTwoOperand name f : CpuM BaseMemory String) :=
  listStep_skipOpcode.bind fun _ => listStep_readSize h <|
    (listStep_effectiveAddress _ _ _).bind fun _ => (listStep_effectiveAddress _ _ _).bind_pure _

theorem listStep_listImmediate (name : String) {f : OneOperand} (h : f.dataSize.isSome) :
    ListStep [.opcode, f.immPart, f.destPart] (listImmediate name f : CpuM BaseMemory String) :=
  listStep_listTwoOperand name (f := { f with srcMode := .immediate, srcReg := regD0 }) h

theorem listStep_listOneOperand (name : DataSize → String) {f : OneOperand}
    (h : f.dataSize.isSome) :
    ListStep [.opcode, f.destPart] (listOneOperand name f : CpuM BaseMemory String) :=
  listStep_skipOpcode.bind fun _ => listStep_readSize h <|
    (listStep_effectiveAddress _ _ _).bind_pure _

theorem listStep_bitManip {f : BitManipOperand} (h : f.dataSize.isSome) :
    ListStep [.opcode, f.srcPart, f.destPart] (BitManip.disassembly f : CpuM BaseMemory String) :=
  listStep_skipOpcode.bind fun _ => listStep_readSize h <|
    (listStep_effectiveAddress _ _ _).bind fun _ => (listStep_effectiveAddress _ _ _).bind_pure _

theorem listStep_bitShift (f : BitShiftOperand) :
    ListStep (Derived.bitShift f).listed (BitShift.disassembly f : CpuM BaseMemory String) := by
  rw [BitShift.disassembly, Derived.listed]
  split_ifs
  · exact listStep_skipOpcode.bind fun _ => (listStep_effectiveAddress _ _ _).bind_pure _
  · exact listStep_skipOpcode.bind fun _ => (listStep_effectiveAddress _ _ _).bind fun shift =>
      (listStep_effectiveAddress _ _ _).bind_pure _

theorem listStep_fetchDisplacement :
    ListStep [.opcode, .operand .immediate regD0 .word]
      (Link.fetchDisplacement : CpuM BaseMemory _) := by
  refine ⟨.bind (reads_getReg _ _) fun _ => .bind (reads_memGet _ _) fun _ =>
    .bind (reads_setReg onlyPc_regPC _) fun _ =>
    .pure _, fun s hs => ?_⟩
  have hacc : s.memory.Accessible (s.reg regPC + 2) .word := hs.2.1 .word rfl
  refine ⟨s.memory.read (s.reg regPC + 2) .word, s.withReg regPC (s.reg regPC + 2 + 2), ?_, rfl, ?_⟩
  · rw [Link.fetchDisplacement, bind_of_ok (getReg_long named_regPC),
      bind_of_ok (memGet_of_accessible hacc), bind_of_ok (setReg_long named_regPC)]
    rfl
  · rw [CPUState.reg_withReg_self named_regPC]
    simp [delta, Part.delta, Part.length, extSize, DataSize.toWord, DataSize.bytes,
      BitVec.add_assoc]

theorem listStep_bcc (f : BccOperand) :
    ListStep (.opcode :: f.parts) (Bcc.disassembly f : CpuM BaseMemory String) := by
  have hdisp : ListStep f.parts
      (Bcc.displacement (CPUState.getData .immediate regD0) f : CpuM BaseMemory (BitVec 32)) := by
    rw [BccOperand.parts, Bcc.displacement]
    rcases f.dataSize with _ | _ | _
    · exact .pure _
    · exact (listStep_getData_immediate _).bind_pure _
    · exact listStep_getData_immediate _
  refine ⟨.bind (reads_getReg _ _) fun _ => .bind (reads_setReg onlyPc_regPC _) fun _ =>
    .bind hdisp.phase fun _ => .pure _, fun s hs => ?_⟩
  obtain ⟨v, t, hv, hmem, hpc⟩ := hdisp.lists (s.withReg regPC (s.reg regPC + 2)) (by
    rw [CPUState.reg_withReg_self named_regPC]
    exact hs.2)
  rw [CPUState.reg_withReg_self named_regPC] at hpc
  refine ⟨Bcc.mnemonic f.condition ++ " $" ++ hex32 (s.reg regPC + 2 + v), t, ?_, hmem, ?_⟩
  · rw [Bcc.disassembly, bind_of_ok (getReg_long named_regPC)]
    exact (bind_of_ok (setReg_long named_regPC)).trans ((bind_of_ok hv).trans rfl)
  · rw [hpc, delta, Part.delta_regPC, BitVec.add_assoc]
    rfl

/-- What `disassembly` does, whatever the class. -/
theorem listStep_disassembly {d : Derived} (h : d.Valid) :
    ListStep d.listed (d.disassembly : CpuM BaseMemory String) := by
  cases d with
  | add f | adda f | addx f | and f | cmp f | cmpa f | eor f | or f | sub f | suba f | subx f =>
    exact listStep_listTwoOperand _ h.sized
  | addi f | andi f | cmpi f | eori f | ori f | subi f => exact listStep_listImmediate _ h.sized
  | div f | mul f => exact listStep_listTwoOperand _ h.1.sized
  | move f => exact listStep_listTwoOperand _ h.1.sized
  | addq f | moveq f | subq f => exact listStep_listOneOperand _ h.sized
  | clr f | neg f => exact listStep_listOneOperand _ h.sized
  | ext f => exact listStep_listOneOperand _ h.1.sized
  | jmp f | jsr f | pea f => exact listStep_listOneOperand _ h.2
  | tst f => exact listStep_listOneOperand _ h.2
  | bitManip f => exact listStep_bitManip h.sized
  | bitShift f => exact listStep_bitShift f
  | lea f =>
    exact listStep_skipOpcode.bind fun _ => (listStep_effectiveAddress _ _ _).bind fun src =>
      (listStep_effectiveAddress _ _ _).bind_pure _
  | scc f => exact listStep_skipOpcode.bind fun _ => (listStep_effectiveAddress _ _ _).bind_pure _
  | bcc f => exact listStep_bcc f
  | link addrReg => exact listStep_fetchDisplacement.bind_pure _
  | unlk addrReg | nop | rts | illegal => exact listStep_skipOpcode.bind_pure _

end M68kEmu
