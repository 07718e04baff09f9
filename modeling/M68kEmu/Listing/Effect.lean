import M68kEmu.Listing.Branch

/-!
# The effect of an object on two states

Class by class, what holds of two runs of the accessors holds of two runs of `execute`
(`OperandRules.execute`).  So `execute` does the same in two states whose operands are taken the
same way.  The branches and the jumps are compared off the program counter (`bcc_sameOutcome`,
`jmp_sameOutcome`, `jsr_sameOutcome`).
-/

namespace M68kEmu

open Outcome

/-! ### Lines that bodies share -/

/-- How two runs of one object are related: by `R os` while the operands `os` are still to be taken,
by `T` after the last of them, and by `E` at an error. -/
structure OperandRules (R : List Operand → CPUState BaseMemory → CPUState BaseMemory → Prop)
    (T E : CPUState BaseMemory → CPUState BaseMemory → Prop) : Prop where
  getData : ∀ {o : Operand} {os : List Operand}, o.reg < 16 → o.use = .get →
    Related (R (o :: os)) (R os) E (CPUState.getData o.mode o.reg o.size)
      (CPUState.getData o.mode o.reg o.size)
  getDataSilent : ∀ {o : Operand} {os : List Operand}, o.reg < 16 → o.use = .getSilent →
    Related (R (o :: os)) (fun s t => R (o :: os) s t ∧ T s t) E
      (CPUState.getDataSilent o.mode o.reg o.size) (CPUState.getDataSilent o.mode o.reg o.size)
  rewriteData : ∀ {o : Operand} {os : List Operand} (data : BitVec 32), o.reg < 16 →
    o.use = .getSilent →
    Related (fun s t => R (o :: os) s t ∧ T s t) T E (CPUState.setData o.mode o.reg o.size data)
      (CPUState.setData o.mode o.reg o.size data)
  setData : ∀ {o : Operand} {os : List Operand} (data : BitVec 32), o.reg < 16 → o.use = .address →
    Related (R (o :: os)) T E (CPUState.setData o.mode o.reg o.size data)
    (CPUState.setData o.mode o.reg o.size data)
  getFlag : ∀ {os : List Operand} (flag : StatusRegisterFlag),
    Related (R os) (R os) E (getFlag flag) (getFlag flag)
  commits : ∀ {α : Type} {x : CpuM BaseMemory α}, Commits x x → Related T T E x x
  done : ∀ {s t : CPUState BaseMemory}, R [] s t → T s t
  direct : ∀ {o : Operand} {s t : CPUState BaseMemory}, o.reg < 16 →
    o.mode = .directData ∨ o.mode = .directAddr → R [o] s t → T s t

/-- The runs of the computation are related, from states whose operands behind the
opcode word are. -/
def Acts (R : List Operand → CPUState BaseMemory → CPUState BaseMemory → Prop)
    (T E : CPUState BaseMemory → CPUState BaseMemory → Prop) (os : List Operand)
    (x : CpuM BaseMemory Unit) : Prop :=
  Related (fun s t => R os s.pastExtWord t.pastExtWord) T E x x

section Rules

variable {R : List Operand → CPUState BaseMemory → CPUState BaseMemory → Prop}
  {T E : CPUState BaseMemory → CPUState BaseMemory → Prop} {os : List Operand} {size : DataSize}

theorem acts_skipOpcode {f : CpuM BaseMemory Unit} (h : Related (R os) T E f f) :
    Acts R T E os (skipOpcode >>= fun _ => f) := by
  intro s t hs
  rw [bind_of_ok (skipOpcode_apply s), bind_of_ok (skipOpcode_apply t)]
  exact h _ _ hs

theorem related_readSize {dataSize : Option DataSize} {f : DataSize → CpuM BaseMemory Unit}
    (hsized : dataSize.isSome)
    (h : ∀ size, dataSize = some size → Related (R os) T E (f size) (f size)) :
    Related (R os) T E (readSize dataSize >>= f) (readSize dataSize >>= f) := by
  obtain ⟨size, rfl⟩ := Option.isSome_iff_exists.1 hsized
  exact h size rfl

theorem OneOperand.dest_eq {f : OneOperand} (h : f.dataSize = some size) (use : Use) :
    f.dest use = ⟨use, f.destMode, f.destReg, size⟩ := by
  rw [OneOperand.dest, h, Option.getD_some]

theorem TwoOperand.src_eq {f : TwoOperand} (h : f.dataSize = some size) :
    f.src = ⟨.get, f.srcMode, f.srcReg, size⟩ := by
  rw [TwoOperand.src, h, Option.getD_some]

theorem OneOperand.imm_eq {f : OneOperand} (h : f.dataSize = some size) :
    f.imm = ⟨.get, .immediate, regD0, size⟩ := by
  rw [OneOperand.imm, h, Option.getD_some]

namespace OperandRules

variable (rules : OperandRules R T E)
include rules

theorem checkCondition (condition : Condition) :
    Related (R os) (R os) E (CPUState.checkCondition condition)
      (CPUState.checkCondition condition) :=
  (rules.getFlag _).bind fun _ => (rules.getFlag _).bind fun _ => (rules.getFlag _).bind fun _ =>
    (rules.getFlag _).bind fun _ => .pure _

theorem fetchSource {f : TwoOperand} (hf : f.srcReg < 16) (h : f.dataSize = some size) :
    Related (R (f.src :: os)) (R os) E (fetchSource .cpuState f size)
      (fetchSource .cpuState f size) := by
  rw [TwoOperand.src_eq h]
  exact rules.getData (o := ⟨.get, f.srcMode, f.srcReg, size⟩) hf rfl

theorem fetchImmediate {f : OneOperand} (h : f.dataSize = some size) :
    Related (R (f.imm :: os)) (R os) E (fetchImmediate .cpuState size)
      (fetchImmediate .cpuState size) := by
  rw [OneOperand.imm_eq h]
  exact rules.getData (o := ⟨.get, .immediate, regD0, size⟩) (by decide : regD0 < 16) rfl

theorem fetchExtended {f : TwoOperand} (hf : f.srcReg < 16) (h : f.dataSize = some size) :
    Related (R (f.src :: os)) (R os) E (Cmpa.fetchExtended .cpuState f size)
      (Cmpa.fetchExtended .cpuState f size) :=
  (rules.fetchSource hf h).bind fun _ => .pure _

/-- A destination that is written after it was read silently. -/
theorem rewrite {f : OneOperand} (hf : f.destReg < 16) (h : f.dataSize = some size)
    {op : BitVec 32 → BitVec 32} {flags : BitVec 32 → CpuM BaseMemory Unit}
    (hflags : ∀ data, Commits (flags data) (flags data)) : Related (R [f.dest .getSilent]) T E
      (CPUState.getDataSilent f.destMode f.destReg size >>= fun data =>
        CPUState.setData f.destMode f.destReg size (op data) >>= fun _ => flags data)
      (CPUState.getDataSilent f.destMode f.destReg size >>= fun data =>
        CPUState.setData f.destMode f.destReg size (op data) >>= fun _ => flags data) := by
  rw [OneOperand.dest_eq h]
  let o : Operand := ⟨.getSilent, f.destMode, f.destReg, size⟩
  refine (rules.getDataSilent (o := o) hf rfl).bind fun data => ?_
  exact (rules.rewriteData (o := o) (op data) hf rfl).bind fun _ => rules.commits (hflags data)

/-- A destination that is written. -/
theorem write {f : OneOperand} (hf : f.destReg < 16) (h : f.dataSize = some size) {data : BitVec 32}
    {flags : CpuM BaseMemory Unit} (hflags : Commits flags flags) :
    Related (R [f.dest .address]) T E (CPUState.setData f.destMode f.destReg size data >>=
      fun _ => flags) (CPUState.setData f.destMode f.destReg size data >>= fun _ => flags) := by
  rw [OneOperand.dest_eq h]
  exact (rules.setData (o := ⟨.address, f.destMode, f.destReg, size⟩) data hf rfl).bind fun _ =>
    rules.commits hflags

/-- A destination that is read. -/
theorem read {f : OneOperand} (hf : f.destReg < 16) (h : f.dataSize = some size)
    {flags : BitVec 32 → CpuM BaseMemory Unit}
    (hflags : ∀ data, Commits (flags data) (flags data)) :
    Related (R [f.dest .get]) T E (CPUState.getData f.destMode f.destReg size >>= flags)
      (CPUState.getData f.destMode f.destReg size >>= flags) := by
  rw [OneOperand.dest_eq h]
  refine (rules.getData (o := ⟨.get, f.destMode, f.destReg, size⟩) hf rfl).bind fun data => ?_
  exact (rules.commits (hflags data)).mono (fun _ _ => rules.done) (fun _ _ => id) fun _ _ => id

/-! ### Bodies that classes share -/

theorem readModifyWrite {f : OneOperand} (hf : f.Valid)
    {fetch : DataSize → CpuM BaseMemory (BitVec 32)} (hfetch : ∀ size, f.dataSize = some size →
      Related (R os) (R [f.dest .getSilent]) E (fetch size) (fetch size))
    (op : BitVec 32 → BitVec 32 → BitVec 32)
    {flags : DataSize → BitVec 32 → BitVec 32 → BitVec 32 → CpuM BaseMemory Unit}
    (hflags : ∀ size a b c, Commits (flags size a b c) (flags size a b c)) :
    Acts R T E os (readModifyWrite .cpuState fetch f op flags) := by
  refine acts_skipOpcode (related_readSize hf.sized fun size hsize => ?_)
  exact (hfetch size hsize).bind fun srcData => rules.rewrite hf.dest.lt hsize fun _ =>
    hflags size _ _ _

theorem extendedArithmetic {f : TwoOperand} (hf : f.Valid)
    (op : BitVec 32 → BitVec 32 → BitVec 32 → BitVec 32) :
    Acts R T E [f.src, f.dest .getSilent] (extendedArithmetic .cpuState f op) := by
  refine acts_skipOpcode (related_readSize hf.sized fun size hsize => ?_)
  refine (rules.getFlag _).bind fun extend => ?_
  refine (rules.fetchSource hf.src.lt hsize).bind fun srcData => ?_
  refine rules.rewrite hf.dest.lt hsize fun destData => ?_
  refine (CommitStep.ite (F := fun _ => False) (.bind (commitStep_setFlag (by decide) _) fun _ =>
    ?_) ?_).phase <;>
    exact .bind (commitStep_setFlag (by decide) _) fun _ =>
      .bind (commitStep_setFlag (by decide) _) fun _ =>
      .bind (commitStep_setFlag (by decide) _) fun _ => commitStep_setFlag (by decide) _

theorem compareWith {f : OneOperand} (hf : f.Valid) {fetch : DataSize → CpuM BaseMemory (BitVec 32)}
    (hfetch : ∀ size, f.dataSize = some size → Related (R os) (R [f.dest .get]) E (fetch size)
      (fetch size)) : Acts R T E os (compareWith .cpuState fetch f) := by
  refine acts_skipOpcode (related_readSize hf.sized fun size hsize => ?_)
  refine (hfetch size hsize).bind fun srcData => rules.read hf.dest.lt hsize fun destData => ?_
  exact (commitStep_setCompareFlags (F := fun _ => False) _ _ _).phase

/-! ### Classes with a body of their own -/

/-- What commits in place of an operand in a register. -/
theorem commitsDirect {α : Type} {o : Operand} {x : CpuM BaseMemory α} (hreg : o.reg < 16)
    (hmode : o.mode = .directData ∨ o.mode = .directAddr) (hx : Commits x x) :
    Related (R [o]) T E x x :=
  (rules.commits hx).mono (fun _ _ => rules.direct hreg hmode) (fun _ _ => id) fun _ _ => id

theorem mul {f : SignedOperand} (hf : f.toTwoOperand.Valid ∧ f.destMode = .directData) :
    Acts R T E [f.src, f.dest .getSilent] (Mul.execute .cpuState f) := by
  have hn : Named f.destReg := named_of_lt hf.1.dest.lt
  refine acts_skipOpcode (related_readSize hf.1.sized fun size hsize => ?_)
  refine (rules.fetchSource hf.1.src.lt hsize).bind fun srcData => ?_
  refine rules.commitsDirect hf.1.dest.lt (.inl hf.2) ?_
  rw [hf.2]
  exact .bind (commits_getReg hn size) fun destData => .bind (commits_setReg hn _ _) fun _ =>
    (commitStep_setLogicFlags (F := fun _ => False) _).phase

theorem div {f : SignedOperand} (hf : f.toTwoOperand.Valid ∧ f.destMode = .directData)
    (hzero : Related T T E (throw .divideByZero : CpuM BaseMemory Unit) (throw .divideByZero)) :
    Acts R T E [f.src, f.dest .getSilent] (Div.execute .cpuState f) := by
  have hn : Named f.destReg := named_of_lt hf.1.dest.lt
  refine acts_skipOpcode (related_readSize hf.1.sized fun size hsize => ?_)
  refine (rules.fetchSource hf.1.src.lt hsize).bind fun srcData => ?_
  rw [hf.2]
  refine (rules.commitsDirect hf.1.dest.lt (.inl hf.2) (commits_getReg hn size)).bind
    fun destData => ?_
  dsimp only
  split_ifs
  · exact hzero
  · exact rules.commits (.bind (commits_setReg hn _ _) fun _ =>
      (commitStep_setLogicFlags (F := fun _ => False) _).phase)

theorem ext {f : OneOperand} (hf : f.Valid ∧ f.destMode = .directData) :
    Acts R T E [f.dest .get] (Ext.execute .cpuState f) := by
  have hn : Named f.destReg := named_of_lt hf.1.dest.lt
  refine acts_skipOpcode (related_readSize hf.1.sized fun size hsize => ?_)
  refine rules.commitsDirect hf.1.dest.lt (.inl hf.2) ?_
  rw [hf.2]
  exact .bind (commits_getReg hn _) fun data => .bind (commits_setReg hn _ _) fun _ =>
    (commitStep_setLogicFlags (F := fun _ => False) _).phase

theorem tst {f : OneOperand} (hf : ValidOperand f.destMode f.destReg ∧ f.dataSize.isSome) :
    Acts R T E [f.dest .get] (Tst.execute .cpuState f) :=
  acts_skipOpcode (related_readSize hf.2 fun _ hsize => rules.read hf.1.lt hsize fun _ =>
    (commitStep_setLogicFlags (F := fun _ => False) _).phase)

theorem bitManip {f : BitManipOperand} (hf : f.toTwoOperand.Valid) :
    Acts R T E [f.src, f.dest .getSilent] (BitManip.execute .cpuState f) := by
  refine acts_skipOpcode (related_readSize hf.sized fun size hsize => ?_)
  refine (rules.fetchSource hf.src.lt hsize).bind fun srcData => ?_
  exact rules.rewrite hf.dest.lt hsize fun destData => commits_setFlag (by decide) _

theorem bitShift {f : BitShiftOperand} (hf : ValidOperand f.addrMode f.addrReg ∧ f.shiftReg < 16) :
    Acts R T E [⟨.getSilent, f.addrMode, f.addrReg, f.dataSize⟩]
      (BitShift.execute .cpuState f) := by
  refine acts_skipOpcode ?_
  refine (rules.getDataSilent (o := ⟨.getSilent, f.addrMode, f.addrReg, f.dataSize⟩) hf.1.lt
    rfl).bind fun addrData => ?_
  refine Related.mono (fun _ _ h => h.2) (fun _ _ => id) (fun _ _ => id) ?_
  dsimp only
  split_ifs
  · exact (rules.commits (commits_getReg (named_of_lt hf.2) _)).bind fun shiftData =>
      (Related.pure _).bind fun shift =>
      rules.commits (commitStep_shiftRest (F := fun _ => False) f _ _).phase
  · exact Related.bind (.pure _) fun shift =>
      rules.commits (commitStep_shiftRest (F := fun _ => False) f _ _).phase

theorem move {f : MoveOperand}
    (hf : f.toTwoOperand.Valid ∧ (f.isMovea = true ↔ f.destMode = .directAddr)) :
    Acts R T E [f.src, f.dest .address] (Move.execute .cpuState f) := by
  refine acts_skipOpcode (related_readSize hf.1.sized fun size hsize => ?_)
  refine (rules.fetchSource hf.1.src.lt hsize).bind fun srcData => ?_
  by_cases hmovea : f.isMovea = true
  · simp only [if_pos hmovea]
    refine rules.commitsDirect hf.1.dest.lt (.inr (hf.2.1 hmovea)) ?_
    rw [hf.2.1 hmovea]
    exact commits_setReg (named_of_lt hf.1.dest.lt) _ _
  · simp only [if_neg hmovea]
    exact rules.write hf.1.dest.lt hsize
      (CommitStep.bind (F := fun _ => False) (commitStep_setFlag (by decide) _) fun _ =>
      .bind (commitStep_setFlag (by decide) _) fun _ =>
      .bind (commitStep_setFlag (by decide) _) fun _ =>
      commitStep_setFlag (by decide) _).phase

theorem moveq {f : QuickOperand} (hf : f.toOneOperand.Valid) :
    Acts R T E [f.dest .address] (Moveq.execute .cpuState f) := by
  refine acts_skipOpcode (related_readSize hf.sized fun size hsize => ?_)
  exact rules.write hf.dest.lt hsize
    (CommitStep.bind (F := fun _ => False) (commitStep_setFlag (by decide) _) fun _ =>
    .bind (commitStep_setFlag (by decide) _) fun _ =>
    .bind (commitStep_setFlag (by decide) _) fun _ =>
    commitStep_setFlag (by decide) _).phase

theorem clr {f : OneOperand} (hf : f.Valid) :
    Acts R T E [f.dest .address] (Clr.execute .cpuState f) := by
  refine acts_skipOpcode (related_readSize hf.sized fun size hsize => ?_)
  exact rules.write hf.dest.lt hsize
    (CommitStep.bind (F := fun _ => False) (commitStep_setFlag (by decide) _) fun _ =>
    .bind (commitStep_setFlag (by decide) _) fun _ =>
    .bind (commitStep_setFlag (by decide) _) fun _ =>
    commitStep_setFlag (by decide) _).phase

theorem scc {f : SccOperand} (hf : f.destReg < 16) :
    Acts R T E [⟨.address, f.destMode, f.destReg, .byte⟩] (Scc.execute .cpuState f) := by
  refine acts_skipOpcode ((rules.checkCondition _).bind fun condResult => ?_)
  split_ifs <;> exact rules.setData (o := ⟨.address, f.destMode, f.destReg, .byte⟩) _ hf rfl

end OperandRules

/-- The classes that take the address of a control operand, and nothing from it. -/
def Derived.TakesAddress : Derived → Prop
  | .lea _ | .pea _ | .jmp _ | .jsr _ => True
  | _ => False

/-- What `execute` does, whatever the class, if it accesses its operands. -/
theorem OperandRules.execute (rules : OperandRules R T E) {d : Derived} (h : d.Valid)
    (hoperands : d.operandList ≠ []) (haddress : ¬d.TakesAddress)
    (hzero : ∀ f, d = .div f → Related T T E (throw .divideByZero : CpuM BaseMemory Unit)
      (throw .divideByZero)) : Acts R T E d.operandList (d.execute .cpuState) := by
  cases d with
  | add f | sub f =>
    exact rules.readModifyWrite h.toValid (fun _ => rules.fetchSource h.src.lt) _ fun _ _ _ _ =>
      (commitStep_setArithmeticFlags (F := fun _ => False) _ _ _).phase
  | and f | or f | eor f =>
    exact rules.readModifyWrite h.toValid (fun _ => rules.fetchSource h.src.lt) _ fun _ _ _ _ =>
      (commitStep_setResultFlags (F := fun _ => False) _ _ _ _).phase
  | adda f | suba f =>
    exact rules.readModifyWrite h.toValid (fun _ => rules.fetchSource h.src.lt) _ fun _ _ _ _ =>
      .pure _
  | addi f | subi f =>
    exact rules.readModifyWrite h (fun _ => rules.fetchImmediate) _ fun _ _ _ _ =>
      (commitStep_setArithmeticFlags (F := fun _ => False) _ _ _).phase
  | andi f | ori f | eori f =>
    exact rules.readModifyWrite h (fun _ => rules.fetchImmediate) _ fun _ _ _ _ =>
      (commitStep_setResultFlags (F := fun _ => False) _ _ _ _).phase
  | addq f | subq f =>
    exact rules.readModifyWrite h (fun _ _ => .pure _) _ fun _ _ _ _ =>
      (commitStep_setQuickFlags (F := fun _ => False) _ _ _ _).phase
  | neg f =>
    exact rules.readModifyWrite h (fun _ _ => .pure _) _ fun _ _ _ _ =>
      (commitStep_setArithmeticFlags (F := fun _ => False) _ _ _).phase
  | addx f | subx f => exact rules.extendedArithmetic h _
  | cmp f => exact rules.compareWith h.toValid fun _ => rules.fetchSource h.src.lt
  | cmpa f => exact rules.compareWith h.toValid fun _ => rules.fetchExtended h.src.lt
  | cmpi f => exact rules.compareWith h fun _ => rules.fetchImmediate
  | mul f => exact rules.mul h
  | div f => exact rules.div h (hzero f rfl)
  | ext f => exact rules.ext h
  | tst f => exact rules.tst h
  | bitManip f => exact rules.bitManip h
  | bitShift f => exact rules.bitShift h
  | move f => exact rules.move h
  | moveq f => exact rules.moveq h
  | clr f => exact rules.clr h
  | scc f => exact rules.scc h.1.lt
  | lea f | pea f | jmp f | jsr f => exact absurd trivial haddress
  | link addrReg | unlk addrReg | bcc f | rts | nop | illegal => exact absurd rfl hoperands

end Rules

/-! ### Two memories -/

section Twins

variable {D : ℕ → Prop} {s t : CPUState BaseMemory}

theorem related_getFlag_ready {os : List Operand} (flag : StatusRegisterFlag) :
    Related (Ready D os) (Ready D os) (Twin D) (getFlag flag) (getFlag flag) := by
  intro s t hs
  refine .inl ⟨s.registers.getFlag flag, s, t, rfl, ?_, hs⟩
  rw [hs.twin.1]
  rfl

/-- Operands that are taken the same way in both states. -/
theorem operandRules_twin : OperandRules (Ready D) (Twin D) (Twin D) where
  getData := related_getData
  getDataSilent hreg huse := (related_getDataSilent hreg huse).mono (fun _ _ => id) (fun _ _ h =>
    ⟨h, h.twin⟩) fun _ _ => id
  rewriteData data hreg _ := (related_setData hreg data).mono (fun _ _ h => h.1)
    (fun _ _ => id) fun _ _ => id
  setData data hreg _ := related_setData hreg data
  getFlag := related_getFlag_ready
  commits := related_commits
  done := id
  direct _ _ := Ready.twin

theorem actsAlike_lea {f : LeaOperand} (hsrc : f.srcReg < 16) (haddr : f.addrReg < 16) :
    Acts (Ready D) (Twin D) (Twin D) (Derived.lea f).operandList (Lea.execute .cpuState f) := by
  refine acts_skipOpcode ?_
  refine (related_getControlAddress (o := ⟨.address, f.srcMode, f.srcReg, f.dataSize⟩) hsrc).bind
    fun addr => ?_
  exact related_commits (commits_setReg (named_of_lt haddr) _ _)

theorem actsAlike_pea {f : OneOperand} (hf : f.destReg < 16) (hsized : f.dataSize.isSome) :
    Acts (Ready D) (Twin D) (Twin D) [f.dest .address] (Pea.execute .cpuState f) := by
  refine acts_skipOpcode (related_readSize hsized fun size hsize => ?_)
  rw [OneOperand.dest_eq hsize]
  exact (related_getControlAddress (o := ⟨.address, f.destMode, f.destReg, size⟩) hf).bind fun _ =>
    related_stackPush_twin _ _

/-- The right rotations through `X` do not use the value of their operand. -/
def BitShiftOperand.IgnoresOperand (f : BitShiftOperand) : Prop :=
  f.instructionType = .rox ∧ f.directionLeft = false

instance (f : BitShiftOperand) : Decidable f.IgnoresOperand := inferInstanceAs (Decidable (_ ∧ _))

theorem shifted_of_ignoresOperand {f : BitShiftOperand} (hf : f.IgnoresOperand)
    (addrData addrData' shift : BitVec 64) :
    (BitShift.shifted f addrData shift : CpuM BaseMemory _) = BitShift.shifted f
      addrData' shift := by
  rw [BitShift.shifted, BitShift.shifted, hf.1]
  simp only [BitShift.rotateExtended, hf.2, Bool.false_eq_true, if_false]

/-- A right rotation through `X` does the same, whatever the data of its operand. -/
theorem bitShift_sameOutcome {f : BitShiftOperand}
    (hf : ValidOperand f.addrMode f.addrReg ∧ f.shiftReg < 16)
    (hignores : f.IgnoresOperand) (h : Twin D s.pastExtWord t.pastExtWord)
    (hext : SameExtension f.addrMode f.dataSize s.pastExtWord t.pastExtWord) :
    SameOutcome (Twin D) (Twin D) (BitShift.execute .cpuState f s)
      (BitShift.execute .cpuState f t) := by
  rw [BitShift.execute, bind_of_ok (skipOpcode_apply s), bind_of_ok (skipOpcode_apply t)]
  refine sameOutcome_getDataSilent_bind h hf.1.lt hext fun v v' _ => ?_
  simp only [shifted_of_ignoresOperand hignores (v'.setWidth 64) (v.setWidth 64)]
  split_ifs
  · exact (related_commits (.bind (commits_getReg (named_of_lt hf.2) _) fun _ =>
      .bind (.pure _) fun _ =>
      (commitStep_shiftRest (F := fun _ => False) f _ _).phase)).sameOutcome h
  · exact (related_commits (.bind (.pure _) fun _ =>
      (commitStep_shiftRest (F := fun _ => False) f _ _).phase)).sameOutcome h

/-! The classes without operands. -/

theorem sameOutcome_stackPop {size : DataSize} (h : Twin D s t)
    (hread : s.memory.Accessible (s.reg regUSP) size →
      s.memory.read (s.reg regUSP) size = t.memory.read (s.reg regUSP) size) :
    SameOutcome (Twin D) (Twin D) (CPUState.stackPop size s) (CPUState.stackPop size t) := by
  rw [CPUState.stackPop, bind_of_ok (getReg_long named_regUSP),
    bind_of_ok (getReg_long named_regUSP), ← h.reg]
  refine (sameOutcome_memGet h hread).bind fun data u u' hu => ?_
  exact ((related_setReg_twin _ _ _).bind fun _ => .pure _).sameOutcome hu

theorem sameOutcome_unlk {addrReg : ℕ} (hreg : addrReg < 16) (h : Twin D s t)
    (hread : s.memory.Accessible (s.reg addrReg) .long →
      s.memory.read (s.reg addrReg) .long = t.memory.read (s.reg addrReg) .long) :
    SameOutcome (Twin D) (Twin D) (Unlk.execute addrReg s) (Unlk.execute addrReg t) := by
  have hn : Named addrReg := named_of_lt hreg
  have hpc : addrReg ≠ regPC := ne_regPC_of_lt hreg
  rw [Unlk.execute, bind_of_ok (skipOpcode_apply s), bind_of_ok (skipOpcode_apply t),
    bind_of_ok (getReg_long hn),
    bind_of_ok (getReg_long hn), CPUState.reg_withReg_of_ne named_regPC hn hpc,
    CPUState.reg_withReg_of_ne named_regPC hn hpc, bind_of_ok (setReg_long named_regUSP),
    bind_of_ok (setReg_long named_regUSP), ← h.reg, ← h.reg]
  refine (sameOutcome_stackPop ((h.withReg _ _).withReg _ _) ?_).bind fun data u u' hu =>
    (related_setReg_twin _ _ _).sameOutcome hu
  rw [CPUState.reg_withReg_self named_regUSP]
  exact hread

theorem sameOutcome_link {addrReg : ℕ} (h : Twin D s t)
    (hread : s.memory.read (s.reg regPC + 2) .word = t.memory.read (s.reg regPC + 2) .word) :
    SameOutcome (Twin D) (Twin D) (Link.execute addrReg s) (Link.execute addrReg t) := by
  have hfetch :
      SameOutcome (Twin D) (Twin D) (Link.fetchDisplacement s) (Link.fetchDisplacement t) := by
    rw [Link.fetchDisplacement, bind_of_ok (getReg_long named_regPC),
      bind_of_ok (getReg_long named_regPC), ← h.reg]
    refine (sameOutcome_memGet h fun _ => hread).bind fun displacement u u' hu => ?_
    exact ((related_setReg_twin _ _ _).bind fun _ => .pure _).sameOutcome hu
  refine hfetch.bind fun displacement u u' hu => ?_
  exact ((related_getReg_twin _ _).bind fun addrData => (related_stackPush_twin _ _).bind fun _ =>
    (related_getReg_twin _ _).bind fun stackPtr => (related_setReg_twin _ _ _).bind fun _ =>
    related_setReg_twin _ _ _).sameOutcome hu

theorem related_skipOpcode_twin : Related (Twin D) (Twin D) (Twin D) skipOpcode skipOpcode :=
  (related_getReg_twin _ _).bind fun _ => related_setReg_twin _ _ _

end Twins

/-! ### All classes -/

namespace Derived

/-- The sizes of the index registers, which the listing does not show.  The target of a jump is all
that depends on them. -/
def indexSizes (d : Derived) (mem : BaseMemory) (pc : BitVec 32) : List (Option DataSize) :=
  match d with
  | .jmp _ | .jsr _ => []
  | d => indexSizesAt mem (pc + 2) d.operandList

/-- The addresses and the sizes of the data that `execute` reads from memory and uses. -/
def dataReads (d : Derived) (s : CPUState BaseMemory) : List (BitVec 32 × DataSize) :=
  match d with
  | .unlk addrReg => [(s.reg addrReg, .long)]
  | .bitShift f =>
    if f.IgnoresOperand then [] else operandReads (Derived.bitShift f).operandList s.pastExtWord
  | d => operandReads d.operandList s.pastExtWord

theorem reg_lt_of_mem_operandList {d : Derived} (h : d.Valid) :
    ∀ o ∈ d.operandList, o.reg < 16 := by
  have hone {o : Operand} (ho : o.reg < 16) : ∀ p ∈ [o], p.reg < 16 := by
    intro p hp
    rwa [List.mem_singleton.1 hp]
  have htwo {o o' : Operand} (ho : o.reg < 16) (ho' : o'.reg < 16) : ∀ p ∈ [o, o'], p.reg < 16 := by
    intro p hp
    rcases List.mem_pair.1 hp with rfl | rfl
    · exact ho
    · exact ho'
  cases d with
  | add f | adda f | addx f | and f | cmp f | cmpa f | eor f | or f | sub f | suba f | subx f =>
    exact htwo h.src.lt h.dest.lt
  | addi f | andi f | cmpi f | eori f | ori f | subi f =>
    exact htwo (by decide : regD0 < 16) h.dest.lt
  | clr f | neg f | addq f | moveq f | subq f => exact hone h.dest.lt
  | div f | mul f | move f => exact htwo h.1.src.lt h.1.dest.lt
  | bitManip f => exact htwo h.src.lt h.dest.lt
  | ext f => exact hone h.1.dest.lt
  | tst f | bitShift f | scc f => exact hone h.1.lt
  | jmp f | jsr f | pea f => exact hone h.1.1.lt
  | lea f => exact htwo h.1.1.lt h.2
  | bcc f | illegal | link addrReg | nop | rts | unlk addrReg =>
    exact fun _ hp => absurd hp List.not_mem_nil

end Derived

/-- Two words are known from their low halves. -/
theorem read_word_inj {m m' : BaseMemory} {addr addr' : BitVec 32}
    (h : ((m.read addr .word).setWidth 16).toNat = ((m'.read addr' .word).setWidth 16).toNat) :
    m.read addr .word = m'.read addr' .word := by
  have hlt (m : BaseMemory) (addr : BitVec 32) : (m.read addr .word).toNat < 2 ^ 16 :=
    (readRealMem_lt : (m.read addr .word).toNat < 2 ^ DataSize.word.bits)
  rw [BitVec.toNat_setWidth, BitVec.toNat_setWidth, Nat.mod_eq_of_lt (hlt m addr),
    Nat.mod_eq_of_lt (hlt m' addr')] at h
  exact BitVec.eq_of_toNat_eq h

section Execute

variable {D : ℕ → Prop} {s t : CPUState BaseMemory} {d : Derived}

theorem Twin.pastExtWord (h : Twin D s t) : Twin D s.pastExtWord t.pastExtWord := by
  rw [CPUState.pastExtWord, CPUState.pastExtWord, h.reg]
  exact h.withReg _ _

theorem reg_pastExtWord (s : CPUState BaseMemory) : s.pastExtWord.reg regPC = s.reg regPC + 2 :=
  CPUState.reg_withReg_self named_regPC

/-- Operands that have the same fields, index registers of the same sizes and the
same data do the same. -/
theorem ready_sameOutcome (hd : d.Valid) (hoperands : d.operandList ≠ []) (hjmp : ∀ f, d ≠ .jmp f)
    (hjsr : ∀ f, d ≠ .jsr f) (hready : Ready D d.operandList s.pastExtWord t.pastExtWord) :
    SameOutcome (Twin D) (Twin D) (d.execute .cpuState s) (d.execute .cpuState t) := by
  by_cases haddress : d.TakesAddress
  · cases d with
    | lea f => exact actsAlike_lea hd.1.1.lt hd.2 _ _ hready
    | pea f => exact actsAlike_pea hd.1.1.lt hd.2 _ _ hready
    | jmp f => exact absurd rfl (hjmp f)
    | jsr f => exact absurd rfl (hjsr f)
    | _ => cases haddress
  · exact operandRules_twin.execute hd hoperands haddress
      (fun _ _ => related_throw (fun _ _ => id) _) _ _ hready

/-- An object with the same fields does the same in both states, if its index registers have the
same sizes and it reads the same data. -/
theorem execute_sameOutcome (hd : d.Valid) (hbcc : ∀ f, d ≠ .bcc f) (h : Twin D s t)
    (hfields : d.extensionFields t.memory (s.reg regPC + 2) = d.extensionFields s.memory
      (s.reg regPC + 2))
    (hindex : d.indexSizes t.memory (s.reg regPC) = d.indexSizes s.memory (s.reg regPC))
    (hdata : ∀ r ∈ d.dataReads s, s.memory.Accessible r.1 r.2 → s.memory.read r.1 r.2 =
      t.memory.read r.1 r.2) :
    SameOutcome (TwinButPc D) (TwinButPc D) (d.execute .cpuState s) (d.execute .cpuState t) := by
  have hbut {r r' : EStateM.Result Fault (CPUState BaseMemory) Unit}
      (hr : SameOutcome (Twin D) (Twin D) r r') : SameOutcome (TwinButPc D) (TwinButPc D) r r' :=
      hr.mono (fun _ _ => Twin.butPc) fun _ _ => Twin.butPc
  have htwin := h.pastExtWord
  have hready {os : List Operand} (hreg : ∀ o ∈ os, o.reg < 16)
      (hfields : fieldsAt t.memory (s.reg regPC + 2) os = fieldsAt s.memory (s.reg regPC + 2) os)
      (hindex : indexSizesAt t.memory (s.reg regPC + 2) os = indexSizesAt s.memory
        (s.reg regPC + 2) os)
      (hdata : ∀ r ∈ operandReads os s.pastExtWord, s.memory.Accessible r.1 r.2 →
        s.memory.read r.1 r.2 = t.memory.read r.1 r.2) :
        Ready D os s.pastExtWord t.pastExtWord := by
    refine ready_of_fields htwin hreg ?_ ?_ hdata <;> rw [reg_pastExtWord, reg_pastExtWord, ← h.reg]
    · exact hfields
    · exact hindex
  cases d with
  | bcc f => exact absurd rfl (hbcc f)
  | jmp f => exact jmp_sameOutcome hd.1.1.lt hd.2 h
  | jsr f => exact jsr_sameOutcome hd.1.1.lt hd.2 h
  | rts => exact rts_sameOutcome h
  | link addrReg =>
    simp only [Derived.extensionFields, List.cons.injEq, Field.target.injEq] at hfields
    exact hbut (sameOutcome_link h (read_word_inj hfields.1.symm))
  | unlk addrReg => exact hbut (sameOutcome_unlk hd h (hdata _ (List.mem_singleton_self _)))
  | nop => exact hbut (related_skipOpcode_twin.sameOutcome h)
  | illegal =>
    exact hbut
      ((related_skipOpcode_twin.bind fun _ => related_throw (fun _ _ => id) _).sameOutcome h)
  | bitShift f =>
    by_cases hignores : f.IgnoresOperand
    · refine hbut
        (bitShift_sameOutcome hd hignores htwin
          (sameExtension_of_field (o := ⟨.getSilent, _, f.addrReg, _⟩) ?_ ?_)) <;>
        rw [reg_pastExtWord, reg_pastExtWord, ← h.reg]
      · exact (List.cons.inj hfields).1
      · exact (List.cons.inj hindex).1
    · rw [Derived.dataReads, if_neg hignores] at hdata
      exact hbut (ready_sameOutcome hd (List.cons_ne_nil _ _) nofun nofun
        (hready (Derived.reg_lt_of_mem_operandList hd) hfields hindex hdata))
  | _ =>
    exact hbut (ready_sameOutcome hd (List.cons_ne_nil _ _) nofun nofun
      (hready (Derived.reg_lt_of_mem_operandList hd) hfields hindex hdata))

end Execute

end M68kEmu
