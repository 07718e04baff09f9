import M68kEmu.Frame.Execute

/-!
# The classes of instructions

One lemma for each body that classes share, one for each class with a body of its own, and
`step_execute` over all.
-/

namespace M68kEmu

open Outcome

variable {M' : Type} [IMemory M'] {α : Type} {F : ℕ → Prop} {ps : List Part}

/-! ### Lines that bodies share -/

theorem skipOpcode_apply {M : Type} (s : CPUState M) :
    skipOpcode s = .ok () (s.withReg regPC (s.reg regPC + 2)) := by
  rw [skipOpcode, bind_of_ok (getReg_long named_regPC), setReg_long named_regPC]

theorem consumes_skipOpcode : Consumes F [.opcode] (skipOpcode : CpuM BaseMemory Unit) := by
  intro s u t h
  rw [skipOpcode_apply] at h
  obtain ⟨-, rfl⟩ := EStateM.Result.ok.inj h
  refine ⟨rfl, fun r hr _ => ?_, fun _ => ⟨trivial, trivial⟩⟩
  rw [CPUState.reg_withReg named_regPC hr]
  split_ifs with hpc <;> simp [delta, Part.delta, Part.length, hpc]

theorem readStep_skipOpcode : ReadStep F [.opcode] (skipOpcode : CpuM BaseMemory Unit)
    (skipOpcode : CpuM M' Unit) :=
  ⟨.bind (reads_getReg _ _) fun _ => reads_setReg scratch_regPC _, consumes_skipOpcode⟩

theorem step_readSize {dataSize : Option DataSize} {f : DataSize → CpuM BaseMemory α}
    {g : DataSize → CpuM M' α} (h : ∀ size, dataSize = some size → Step F ps (f size) (g size)) :
    Step F ps (readSize dataSize >>= f) (readSize dataSize >>= g) := by
  rcases dataSize with _ | size
  · exact (readStep_throw (α := α) Fault.uninitialised).step
  · exact h size rfl

section Flags

variable {w : ℕ} {size : DataSize}

omit [IMemory M']

theorem commitStep_setArithmeticFlags (a b c : BitVec 32) :
    CommitStep F (setArithmeticFlags size a b c) (setArithmeticFlags size a b c : CpuM M' Unit) :=
  .bind (commitStep_setFlag (by decide) _) fun _ =>
  .bind (commitStep_setFlag (by decide) _) fun _ =>
  .bind (commitStep_setFlag (by decide) _) fun _ =>
  .bind (commitStep_setFlag (by decide) _) fun _ =>
    commitStep_setFlag (by decide) _

theorem commitStep_setCompareFlags (a b c : BitVec 32) :
    CommitStep F (setCompareFlags size a b c) (setCompareFlags size a b c : CpuM M' Unit) :=
  .bind (commitStep_setFlag (by decide) _) fun _ =>
  .bind (commitStep_setFlag (by decide) _) fun _ =>
  .bind (commitStep_setFlag (by decide) _) fun _ => commitStep_setFlag (by decide) _

theorem commitStep_setLogicFlags (v : BitVec w) :
    CommitStep F (setLogicFlags size v) (setLogicFlags size v : CpuM M' Unit) :=
  .bind (commitStep_setFlag (by decide) _) fun _ =>
  .bind (commitStep_setFlag (by decide) _) fun _ =>
  .bind (commitStep_setFlag (by decide) _) fun _ => commitStep_setFlag (by decide) _

theorem commitStep_setQuickFlags (mode : AddressingMode) (a b c : BitVec 32) :
    CommitStep F (setQuickFlags mode size a b c) (setQuickFlags mode size a b c : CpuM M' Unit) :=
  .ite (commitStep_setArithmeticFlags a b c) (.pure _)

theorem commitStep_setResultFlags (size : DataSize) (a b c : BitVec 32) :
    CommitStep F (setResultFlags size a b c) (setResultFlags size a b c : CpuM M' Unit) :=
  commitStep_setLogicFlags _

end Flags

/-! ### The operands of an object -/

section Operands

variable {size : DataSize}

theorem OneOperand.destPart_eq {f : OneOperand} (h : f.dataSize = some size) :
    f.destPart = .operand f.destMode f.destReg size := by
  rw [OneOperand.destPart, operandOf, h, Option.getD_some]

theorem TwoOperand.srcPart_eq {f : TwoOperand} (h : f.dataSize = some size) :
    f.srcPart = .operand f.srcMode f.srcReg size := by
  rw [TwoOperand.srcPart, operandOf, h, Option.getD_some]

theorem OneOperand.immPart_eq {f : OneOperand} (h : f.dataSize = some size) :
    f.immPart = .operand .immediate regD0 size := by
  rw [OneOperand.immPart, operandOf, h, Option.getD_some]

theorem validOperand_regD0 : ValidOperand .immediate regD0 :=
  ⟨by decide, fun h => absurd h (by decide)⟩

theorem readStep_fetchSource {f : TwoOperand} (hf : f.Valid) (h : f.dataSize = some size) :
    ReadStep F [f.srcPart] (fetchSource .cpuState f size)
      (fetchSource .cpuState f size : CpuM M' _) := by
  rw [TwoOperand.srcPart_eq h]
  exact readStep_getData hf.src size

theorem readStep_fetchExtended {f : TwoOperand} (hf : f.Valid) (h : f.dataSize = some size) :
    ReadStep F [f.srcPart] (Cmpa.fetchExtended .cpuState f size)
      (Cmpa.fetchExtended .cpuState f size : CpuM M' _) :=
  (readStep_fetchSource hf h).bind fun _ => .pure _

theorem readStep_fetchImmediate {f : OneOperand} (h : f.dataSize = some size) :
    ReadStep F [f.immPart] (fetchImmediate .cpuState size)
      (fetchImmediate .cpuState size : CpuM M' _) := by
  rw [OneOperand.immPart_eq h]
  exact readStep_getData validOperand_regD0 size

theorem OneOperand.Valid.step_setData {f : OneOperand} (hf : f.Valid)
    (hF : f.destMode = .directData ∨ f.destMode = .directAddr → F f.destReg)
    (h : f.dataSize = some size) (data : BitVec 32) :
    Step F [f.destPart] (CPUState.setData f.destMode f.destReg size data)
      (CPUState.setData f.destMode f.destReg size data : CpuM M' _) := by
  rw [OneOperand.destPart_eq h]
  exact M68kEmu.step_setData hf.dest hf.alterable hF size data

end Operands

/-! ### Bodies that classes share -/

section Families

theorem step_readModifyWrite {f : OneOperand} (hf : f.Valid)
    (hF : f.destMode = .directData ∨ f.destMode = .directAddr → F f.destReg)
    {fetch : DataSize → CpuM BaseMemory (BitVec 32)} {fetch' : DataSize → CpuM M' (BitVec 32)}
    (hfetch : ∀ size, f.dataSize = some size → ReadStep F ps (fetch size) (fetch' size))
    (op : BitVec 32 → BitVec 32 → BitVec 32)
    {flags : DataSize → BitVec 32 → BitVec 32 → BitVec 32 → CpuM BaseMemory Unit}
    {flags' : DataSize → BitVec 32 → BitVec 32 → BitVec 32 → CpuM M' Unit}
    (hflags : ∀ size a b c, CommitStep F (flags size a b c) (flags' size a b c)) :
    Step F (.opcode :: (ps ++ [f.destPart])) (readModifyWrite .cpuState fetch f op flags)
      (readModifyWrite .cpuState fetch' f op flags') := by
  refine readStep_skipOpcode.andThen fun _ => step_readSize fun size hsize => ?_
  refine (hfetch size hsize).andThen fun srcData => ?_
  refine (readStep_getDataSilent size).andThen fun destData => ?_
  exact (hf.step_setData hF hsize _).andCommit fun _ => hflags size _ _ _

theorem step_extendedArithmetic {f : TwoOperand} (hf : f.Valid)
    (hF : f.destMode = .directData ∨ f.destMode = .directAddr → F f.destReg)
    (op : BitVec 32 → BitVec 32 → BitVec 32 → BitVec 32) :
    Step F [.opcode, f.srcPart, f.destPart] (extendedArithmetic .cpuState f op)
      (extendedArithmetic .cpuState f op : CpuM M' Unit) := by
  refine readStep_skipOpcode.andThen fun _ => step_readSize fun size hsize => ?_
  refine (readStep_getFlag _).andThen fun extend => ?_
  refine (readStep_fetchSource hf hsize).andThen fun srcData => ?_
  refine (readStep_getDataSilent size).andThen fun destData => ?_
  refine (hf.step_setData hF hsize _).andCommit fun _ => ?_
  -- the zero flag is cleared or left, and the other four are set in both cases
  refine .ite (.bind (commitStep_setFlag (by decide) _) fun _ => ?_) ?_ <;>
    exact .bind (commitStep_setFlag (by decide) _) fun _ =>
      .bind (commitStep_setFlag (by decide) _) fun _ =>
      .bind (commitStep_setFlag (by decide) _) fun _ => commitStep_setFlag (by decide) _

theorem step_compareWith {f : OneOperand} (hf : ValidOperand f.destMode f.destReg)
    {fetch : DataSize → CpuM BaseMemory (BitVec 32)} {fetch' : DataSize → CpuM M' (BitVec 32)}
    (hfetch : ∀ size, f.dataSize = some size → ReadStep F ps (fetch size) (fetch' size)) :
    Step F (.opcode :: (ps ++ [f.destPart])) (compareWith .cpuState fetch f)
      (compareWith .cpuState fetch' f) := by
  refine readStep_skipOpcode.andThen fun _ => step_readSize fun size hsize => ?_
  refine (hfetch size hsize).andThen fun srcData => ?_
  rw [OneOperand.destPart_eq hsize]
  exact (readStep_getData hf size).step.andCommit fun _ => commitStep_setCompareFlags _ _ _

end Families

/-! ### Classes with a body of their own -/

section Classes

theorem step_mul {f : SignedOperand} (hf : f.toTwoOperand.Valid ∧ f.destMode = .directData)
    (hF : F f.destReg) : Step F [.opcode, f.srcPart, f.destPart] (Mul.execute .cpuState f)
    (Mul.execute .cpuState f : CpuM M' Unit) := by
  refine readStep_skipOpcode.andThen fun _ => step_readSize fun size hsize => ?_
  refine (readStep_fetchSource hf.1 hsize).andThen fun srcData => ?_
  refine (readStep_getDataSilent size).andThen fun destData => ?_
  rw [OneOperand.destPart_eq hsize]
  exact (step_setData_direct hf.1.dest (.inl hf.2) hF _ _ _).andCommit fun _ =>
    commitStep_setLogicFlags _

theorem step_div {f : SignedOperand} (hf : f.toTwoOperand.Valid ∧ f.destMode = .directData)
    (hF : F f.destReg) : Step F [.opcode, f.srcPart, f.destPart] (Div.execute .cpuState f)
    (Div.execute .cpuState f : CpuM M' Unit) := by
  refine readStep_skipOpcode.andThen fun _ => step_readSize fun size hsize => ?_
  refine (readStep_fetchSource hf.1 hsize).andThen fun srcData => ?_
  refine (readStep_getDataSilent size).andThen fun destData => ?_
  rw [OneOperand.destPart_eq hsize]
  dsimp only
  split_ifs
  · exact (readStep_throw (α := Unit) Fault.divideByZero).step
  · exact (step_setData_direct hf.1.dest (.inl hf.2) hF _ _ _).andCommit fun _ =>
      commitStep_setLogicFlags _

theorem step_ext {f : OneOperand} (hf : f.Valid ∧ f.destMode = .directData) (hF : F f.destReg) :
    Step F [.opcode, f.destPart] (Ext.execute .cpuState f)
      (Ext.execute .cpuState f : CpuM M' Unit) := by
  refine readStep_skipOpcode.andThen fun _ => step_readSize fun size hsize => ?_
  refine (readStep_getData_direct hf.1.dest hf.2 _).andThen fun data => ?_
  exact (hf.1.step_setData (fun _ => hF) hsize _).andCommit fun _ => commitStep_setLogicFlags _

theorem step_tst {f : OneOperand} (hf : ValidOperand f.destMode f.destReg) :
    Step F [.opcode, f.destPart] (Tst.execute .cpuState f)
      (Tst.execute .cpuState f : CpuM M' Unit) := by
  refine readStep_skipOpcode.andThen fun _ => step_readSize fun size hsize => ?_
  rw [OneOperand.destPart_eq hsize]
  exact (readStep_getData hf size).step.andCommit fun _ => commitStep_setLogicFlags _

theorem step_bitManip {f : BitManipOperand} (hf : f.toTwoOperand.Valid)
    (hF : f.destMode = .directData ∨ f.destMode = .directAddr → F f.destReg) :
    Step F [.opcode, f.srcPart, f.destPart] (BitManip.execute .cpuState f)
      (BitManip.execute .cpuState f : CpuM M' Unit) := by
  refine readStep_skipOpcode.andThen fun _ => step_readSize fun size hsize => ?_
  refine (readStep_fetchSource hf hsize).andThen fun srcData => ?_
  refine (readStep_getDataSilent size).andThen fun destData => ?_
  exact (hf.step_setData hF hsize _).andCommit fun _ => commitStep_setFlag (by decide) _

section Shifts

omit [IMemory M']

theorem commitStep_setCarryExtend (v : BitVec 64) :
    CommitStep F (BitShift.setCarryExtend v) (BitShift.setCarryExtend v : CpuM M' Unit) :=
  .bind (commitStep_setFlag (by decide) _) fun _ => commitStep_setFlag (by decide) _

theorem commitStep_rotateExtended (f : BitShiftOperand) (addrData shift : BitVec 64) :
    CommitStep F (BitShift.rotateExtended f addrData shift)
      (BitShift.rotateExtended f addrData shift : CpuM M' _) := by
  refine .bind (commitStep_getFlag _) fun flag => .ite ?_ ?_ <;>
    rcases f.dataSize with _ | _ | _ <;> exact .bind (commitStep_setCarryExtend _) fun _ => .pure _

theorem commitStep_shifted (f : BitShiftOperand) (addrData shift : BitVec 64) :
    CommitStep F (BitShift.shifted f addrData shift)
      (BitShift.shifted f addrData shift : CpuM M' _) := by
  rw [BitShift.shifted, BitShift.shifted]
  rcases f.instructionType with _ | _ | _ | _
  · exact .ite (.bind (commitStep_setCarryExtend _) fun _ => .pure _)
      (.bind (commitStep_setCarryExtend _) fun _ => .pure _)
  · exact .ite (.bind (commitStep_setCarryExtend _) fun _ => .pure _)
      (.bind (commitStep_setCarryExtend _) fun _ => .pure _)
  · exact commitStep_rotateExtended f addrData shift
  · exact .ite (.bind (commitStep_setFlag (by decide) _) fun _ => .pure _)
      (.bind (commitStep_setFlag (by decide) _) fun _ => .pure _)

/-- The lines of `BitShift::execute` from the switch on. -/
theorem commitStep_shiftRest (f : BitShiftOperand) (addrData shift : BitVec 64) :
    CommitStep F (do
      let result ← BitShift.shifted f addrData shift
      setFlag .negative (isNegative result f.dataSize)
      setFlag .zero (isZero result f.dataSize)
      setFlag .overflow false)
    ((do
      let result ← BitShift.shifted f addrData shift
      setFlag .negative (isNegative result f.dataSize)
      setFlag .zero (isZero result f.dataSize)
      setFlag .overflow false) : CpuM M' Unit) :=
  .bind (commitStep_shifted f addrData shift) fun _ =>
  .bind (commitStep_setFlag (by decide) _) fun _ =>
  .bind (commitStep_setFlag (by decide) _) fun _ => commitStep_setFlag (by decide) _

end Shifts

/-- No accessor that moves a register is called with the operand of a shift. -/
theorem step_bitShift {f : BitShiftOperand} (hf : f.shiftReg < 16) :
    Step F [.opcode] (BitShift.execute .cpuState f)
      (BitShift.execute .cpuState f : CpuM M' Unit) := by
  have hreg : ValidOperand .directData f.shiftReg := ⟨hf, fun h => absurd h (by decide)⟩
  refine readStep_skipOpcode.andThen fun _ => ?_
  refine (readStep_getDataSilent _).andThen fun addrData => ?_
  dsimp only
  split_ifs
  · exact (readStep_getData_direct hreg rfl _).andThen fun shiftData =>
      (ReadStep.pure _).andThen fun shift => (commitStep_shiftRest f _ _).step
  · exact (ReadStep.pure _).andThen fun shift => (commitStep_shiftRest f _ _).step

theorem step_move {f : MoveOperand}
    (hf : f.toTwoOperand.Valid ∧ (f.isMovea = true ↔ f.destMode = .directAddr))
    (hF : f.destMode = .directData ∨ f.destMode = .directAddr → F f.destReg) :
    Step F [.opcode, f.srcPart, f.destPart] (Move.execute .cpuState f)
      (Move.execute .cpuState f : CpuM M' Unit) := by
  refine readStep_skipOpcode.andThen fun _ => step_readSize fun size hsize => ?_
  refine (readStep_fetchSource hf.1 hsize).andThen fun srcData => ?_
  by_cases hmovea : f.isMovea = true
  · simp only [if_pos hmovea]
    have hmode : f.destMode = .directData ∨ f.destMode = .directAddr := .inr (hf.2.1 hmovea)
    rw [OneOperand.destPart_eq hsize]
    exact step_setData_direct hf.1.dest hmode (hF hmode) _ _ _
  · simp only [if_neg hmovea]
    exact (hf.1.step_setData hF hsize _).andCommit fun _ =>
      .bind (commitStep_setFlag (by decide) _) fun _ =>
      .bind (commitStep_setFlag (by decide) _) fun _ =>
      .bind (commitStep_setFlag (by decide) _) fun _ =>
      commitStep_setFlag (by decide) _

theorem step_moveq {f : QuickOperand} (hf : f.toOneOperand.Valid)
    (hF : f.destMode = .directData ∨ f.destMode = .directAddr → F f.destReg) :
    Step F [.opcode, f.destPart] (Moveq.execute .cpuState f)
      (Moveq.execute .cpuState f : CpuM M' Unit) := by
  refine readStep_skipOpcode.andThen fun _ => step_readSize fun size hsize => ?_
  exact (hf.step_setData hF hsize _).andCommit fun _ =>
    .bind (commitStep_setFlag (by decide) _) fun _ =>
    .bind (commitStep_setFlag (by decide) _) fun _ =>
    .bind (commitStep_setFlag (by decide) _) fun _ =>
    commitStep_setFlag (by decide) _

theorem step_clr {f : OneOperand} (hf : f.Valid)
    (hF : f.destMode = .directData ∨ f.destMode = .directAddr → F f.destReg) :
    Step F [.opcode, f.destPart] (Clr.execute .cpuState f)
      (Clr.execute .cpuState f : CpuM M' Unit) := by
  refine readStep_skipOpcode.andThen fun _ => step_readSize fun size hsize => ?_
  exact (hf.step_setData hF hsize _).andCommit fun _ =>
    .bind (commitStep_setFlag (by decide) _) fun _ =>
    .bind (commitStep_setFlag (by decide) _) fun _ =>
    .bind (commitStep_setFlag (by decide) _) fun _ =>
    commitStep_setFlag (by decide) _

theorem step_lea {f : LeaOperand}
    (hf : (ValidOperand f.srcMode f.srcReg ∧ isControlAddr f.srcMode) ∧ f.addrReg < 16)
    (hF : F f.addrReg) :
    Step F [.opcode, .operand f.srcMode f.srcReg f.dataSize,
      .operand .directAddr f.addrReg f.dataSize]
      (Lea.execute .cpuState f) (Lea.execute .cpuState f : CpuM M' Unit) := by
  have hreg : ValidOperand .directAddr f.addrReg := ⟨hf.2, fun h => absurd h (by decide)⟩
  refine readStep_skipOpcode.andThen fun _ => ?_
  exact (readStep_getControlAddress hf.1.1 hf.1.2 _).andThen fun srcData =>
    step_setData hreg rfl (fun _ => hF) _ _

theorem step_scc {f : SccOperand}
    (hf : ValidOperand f.destMode f.destReg ∧ isMemoryAlterable f.destMode)
    (hF : f.destMode = .directData ∨ f.destMode = .directAddr → F f.destReg) :
    Step F [.opcode, .operand f.destMode f.destReg .byte] (Scc.execute .cpuState f)
      (Scc.execute .cpuState f : CpuM M' Unit) := by
  refine readStep_skipOpcode.andThen fun _ => ?_
  refine (readStep_checkCondition _).andThen fun condResult => ?_
  split_ifs
  · exact step_setData hf.1 hf.2 hF _ _
  · exact step_setData hf.1 hf.2 hF _ _

theorem step_pea {f : OneOperand}
    (hf : ValidOperand f.destMode f.destReg ∧ isControlAddr f.destMode)
    (hF : F regUSP) :
    Step F [.opcode, f.destPart] (Pea.execute .cpuState f)
      (Pea.execute .cpuState f : CpuM M' Unit) := by
  refine readStep_skipOpcode.andThen fun _ => step_readSize fun size hsize => ?_
  rw [OneOperand.destPart_eq hsize]
  exact (readStep_getControlAddress hf.1 hf.2 _).andThen fun addr => step_stackPush hF _

/-- The displacement word follows the opcode word. -/
theorem readStep_fetchDisplacement :
    ReadStep F [.opcode, .operand .immediate regD0 .word]
      (Link.fetchDisplacement : CpuM BaseMemory _) (Link.fetchDisplacement : CpuM M' _) := by
  refine ⟨.bind (reads_getReg _ _) fun _ => .bind (reads_memGet _ _) fun _ =>
    .bind (reads_setReg scratch_regPC _) fun _ => .pure _, fun s v t h => ?_⟩
  simp [Link.fetchDisplacement, -bind_pure_comp] at h
  obtain ⟨hacc, -, rfl⟩ := h
  refine ⟨rfl, fun r hr _ => ?_, fun _ => ⟨trivial, fun e he => ?_, trivial⟩⟩
  · rw [CPUState.reg_withReg named_regPC hr]
    split_ifs with hpc <;> simp [delta, Part.delta, Part.length, extSize, baseStep, hpc,
      DataSize.toWord, DataSize.bytes, BitVec.add_assoc]
  · cases he
    exact hacc

theorem step_link {addrReg : ℕ} (hreg : addrReg < 16) (hF : F addrReg) (hsp : F regUSP) :
    Step F [.opcode, .operand .immediate regD0 .word] (Link.execute addrReg)
      (Link.execute addrReg : CpuM M' Unit) := by
  refine readStep_fetchDisplacement.andThen fun displacement => ?_
  refine (readStep_getReg _ _).andThen fun addrData => ?_
  refine (step_stackPush hsp _).andCommit fun _ => ?_
  exact .bind (commitStep_getReg named_regUSP _) fun stackPtr =>
    .bind (commitStep_setReg (named_of_lt hreg) hF _ _) fun _ =>
      commitStep_setReg named_regUSP hsp _ _

theorem step_unlk {addrReg : ℕ} (hreg : addrReg < 16) (hF : F addrReg) (hsp : F regUSP) :
    Step F [.opcode] (Unlk.execute addrReg) (Unlk.execute addrReg : CpuM M' Unit) := by
  refine readStep_skipOpcode.andThen fun _ => ?_
  refine (readStep_getReg _ _).andThen fun addrData => ?_
  refine (readStep_setReg scratch_regUSP hsp _).andThen fun _ => ?_
  exact (readStep_stackPop hsp).andThen fun data =>
    (commitStep_setReg (named_of_lt hreg) hF _ _).step

theorem delta_opcode {r : ℕ} (h : r ≠ regPC) (ps : List Part) :
    delta r (.opcode :: ps) = delta r ps := by
  simp [delta, Part.delta, h]

theorem readStep_displacement (f : BccOperand) :
    ReadStep F f.parts (Bcc.displacement (CPUState.getData .immediate regD0) f : CpuM BaseMemory _)
      (Bcc.displacement (CPUState.getData .immediate regD0) f : CpuM M' _) := by
  rw [BccOperand.parts, Bcc.displacement, Bcc.displacement]
  rcases f.dataSize with _ | _ | _
  · exact .pure _
  · exact (readStep_getData validOperand_regD0 _).bind fun data => .pure _
  · exact readStep_getData validOperand_regD0 _

theorem step_bcc (f : BccOperand) (hF : F regPC) (hsp : f.condition = .false → F regUSP) :
    Step F (.opcode :: f.parts) (Bcc.execute .cpuState f)
      (Bcc.execute .cpuState f : CpuM M' Unit) := by
  refine Step.of_delta hF (fun r hr => (delta_opcode hr f.parts).symm) ?_
  rw [← List.append_nil f.parts]
  refine (readStep_getReg _ _).andThen fun opcodePc => ?_
  refine (readStep_setReg scratch_regPC hF _).andThen fun _ => ?_
  refine (readStep_displacement f).andThen fun displacement => ?_
  have hjump (v : BitVec 32) :
      CommitStep F (setReg regPC .long v) (setReg regPC .long v : CpuM M' Unit) :=
    commitStep_setReg named_regPC hF _ _
  cases hcond : f.condition
  case true => exact (hjump _).step
  case false => exact (step_stackPush (hsp hcond) _).andCommit fun _ => hjump _
  all_goals exact (readStep_checkCondition _).andThen fun condResult =>
    (CommitStep.ite (hjump _) (.pure _)).step

theorem step_jmp {f : OneOperand}
    (hf : ValidOperand f.destMode f.destReg ∧ isControlAddr f.destMode) (hF : F regPC) :
    Step F [.opcode, f.destPart] (Jmp.execute .cpuState f)
      (Jmp.execute .cpuState f : CpuM M' Unit) := by
  refine readStep_skipOpcode.andThen fun _ => step_readSize fun size hsize => ?_
  rw [OneOperand.destPart_eq hsize]
  exact (readStep_getControlAddress hf.1 hf.2 _).andThen fun destAddr =>
    (commitStep_setReg named_regPC hF _ _).step

theorem step_jsr {f : OneOperand}
    (hf : ValidOperand f.destMode f.destReg ∧ isControlAddr f.destMode) (hF : F regPC)
    (hsp : F regUSP) :
    Step F [.opcode, f.destPart] (Jsr.execute .cpuState f)
      (Jsr.execute .cpuState f : CpuM M' Unit) := by
  refine readStep_skipOpcode.andThen fun _ => step_readSize fun size hsize => ?_
  rw [OneOperand.destPart_eq hsize]
  refine (readStep_getControlAddress hf.1 hf.2 _).andThen fun destAddr => ?_
  refine (readStep_getReg _ _).andThen fun pc => ?_
  exact (step_stackPush hsp _).andCommit fun _ => commitStep_setReg named_regPC hF _ _

theorem step_rts (hF : F regPC) (hsp : F regUSP) :
    Step F [.opcode] (Rts.execute : CpuM BaseMemory Unit) (Rts.execute : CpuM M' Unit) := by
  refine Step.of_delta hF (fun r hr => (delta_opcode hr []).symm) ?_
  exact (readStep_stackPop hsp).andThen fun returnAddr =>
    (commitStep_setReg named_regPC hF _ _).step

theorem step_illegal :
    Step F [.opcode] (Illegal.execute : CpuM BaseMemory Unit) (Illegal.execute : CpuM M' Unit) :=
  readStep_skipOpcode.andThen fun _ => (readStep_throw _).step

end Classes

/-! ### All classes -/

/-- What `execute` does, whatever the class. -/
theorem step_execute {d : Derived} (h : d.Valid) :
    Step (· ∈ d.written) d.consumed (d.execute .cpuState) (d.execute .cpuState : CpuM M' Unit) := by
  cases d with
  | add f | sub f =>
    exact step_readModifyWrite h.toValid mem_assigned (fun _ => readStep_fetchSource h) _
      fun _ => commitStep_setArithmeticFlags
  | and f | or f | eor f =>
    exact step_readModifyWrite h.toValid mem_assigned (fun _ => readStep_fetchSource h)
      _ commitStep_setResultFlags
  | adda f | suba f =>
    exact step_readModifyWrite h.toValid mem_assigned (fun _ => readStep_fetchSource h)
      _ fun _ _ _ _ => .pure _
  | addi f | subi f =>
    exact step_readModifyWrite h mem_assigned (fun _ => readStep_fetchImmediate) _ fun _ =>
      commitStep_setArithmeticFlags
  | andi f | ori f | eori f =>
    exact step_readModifyWrite h mem_assigned (fun _ => readStep_fetchImmediate)
      _ commitStep_setResultFlags
  | addq f | subq f =>
    exact step_readModifyWrite h mem_assigned (fun _ _ => .pure _) _ fun _ =>
      commitStep_setQuickFlags _
  | neg f =>
    exact step_readModifyWrite h mem_assigned (fun _ _ => .pure _) _ fun _ =>
      commitStep_setArithmeticFlags
  | addx f | subx f => exact step_extendedArithmetic h mem_assigned _
  | cmp f => exact step_compareWith h.dest fun _ => readStep_fetchSource h
  | cmpi f => exact step_compareWith h.dest fun _ => readStep_fetchImmediate
  | cmpa f => exact step_compareWith h.dest fun _ => readStep_fetchExtended h
  | mul f => exact step_mul h (mem_assigned (.inl h.2))
  | div f => exact step_div h (mem_assigned (.inl h.2))
  | ext f => exact step_ext h (mem_assigned (.inl h.2))
  | tst f => exact step_tst h.1
  | bitManip f => exact step_bitManip h mem_assigned
  | bitShift f => exact step_bitShift h.2
  | move f => exact step_move h mem_assigned
  | moveq f => exact step_moveq h mem_assigned
  | clr f => exact step_clr h mem_assigned
  | scc f => exact step_scc h mem_assigned
  | lea f => exact step_lea h (List.mem_singleton_self _)
  | pea f => exact step_pea h.1 (List.mem_singleton_self _)
  | link addrReg => exact step_link h (by simp [Derived.written]) (by simp [Derived.written])
  | unlk addrReg => exact step_unlk h (by simp [Derived.written]) (by simp [Derived.written])
  | bcc f =>
    refine step_bcc f ?_ fun hcond => ?_
    · simp only [Derived.written]
      split_ifs <;> simp
    · simp [Derived.written, hcond]
  | jmp f => exact step_jmp h.1 (List.mem_singleton_self _)
  | jsr f => exact step_jsr h.1 (by simp [Derived.written]) (by simp [Derived.written])
  | rts => exact step_rts (by simp [Derived.written]) (by simp [Derived.written])
  | nop => exact readStep_skipOpcode.step
  | illegal => exact step_illegal

/-- `Illegal` never returns. -/
theorem cls_ne_illegal_of_execute {d : Derived} {s t : CPUState BaseMemory} {u : Unit}
    (h : d.execute .cpuState s = .ok u t) : d.cls ≠ .illegal := by
  intro hcls
  cases d <;> simp [Derived.cls] at hcls
  obtain ⟨_, _, _, hthrow⟩ := bind_eq_ok.1 h
  cases hthrow

/-! ### A step -/

theorem reads_fetchOpcode {F : ℕ → Prop} {M' : Type} [IMemory M'] :
    Reads F (fetchOpcode : CpuM BaseMemory _) (fetchOpcode : CpuM M' _) :=
  .bind (reads_getReg _ _) fun _ => .bind (reads_memGet _ _) fun _ => .pure _

/-- The phases of a step. -/
theorem executes_step {M' : Type} [IMemory M'] :
    Executes (step : CpuM BaseMemory Unit) (step : CpuM M' Unit) :=
  .firstBind reads_fetchOpcode fun opcode => (step_execute (valid_decode opcode)).phase

end M68kEmu
