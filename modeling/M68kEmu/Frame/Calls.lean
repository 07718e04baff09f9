import M68kEmu.Frame.Consumption
import M68kEmu.Model.Cpu

/-!
# The calls of an execution

* `MemberCall R`: the calls on the members `registers` and `memory`, with register indices in `R`.
  The accessors of `CPUState` are built from such calls;
* `ExecuteCall A L`: those calls, and calls of the accessors `A`.  `Limits` says which arguments are
  allowed.  Besides constants the arguments are fields of the object, so an object whose fields are
  within the limits makes calls within them, whatever the accessors do (`calls_execute`).
-/

namespace M68kEmu

open Outcome

variable {M : Type} [IMemory M] {α β : Type}

/-! ### Calls on the members -/

/-- The calls on `registers` and `memory`, with register indices in `R`. -/
inductive MemberCall (R : ℕ → Prop) : Calls Fault (CPUState M)
  | getReg {r : ℕ} (h : R r) (size : DataSize) : MemberCall R (getReg r size)
  | setReg {r : ℕ} (h : R r) (size : DataSize) (data : BitVec 32) :
      MemberCall R (setReg r size data)
  | getFlag (flag : StatusRegisterFlag) : MemberCall R (getFlag flag)
  | setFlag (flag : StatusRegisterFlag) (value : Bool) : MemberCall R (setFlag flag value)
  | memGet (addr : BitVec 32) (size : DataSize) : MemberCall R (memGet addr size)
  | memSet (addr : BitVec 32) (size : DataSize) (data : BitVec 32) :
      MemberCall R (memSet addr size data)

/-- Computations that make such calls only. -/
abbrev MemberCalls (R : ℕ → Prop) : Calls Fault (CPUState M) := Built (MemberCall R)

section Members

variable {R : ℕ → Prop} {reg : ℕ}

@[simp] theorem members_getReg (h : R reg) (size : DataSize) :
    MemberCalls R (getReg reg size : CpuM M _) :=
  .call (.getReg h size)

@[simp] theorem members_setReg (h : R reg) (size : DataSize) (data : BitVec 32) :
    MemberCalls R (setReg reg size data : CpuM M _) :=
  .call (.setReg h size data)

@[simp] theorem members_getFlag (flag : StatusRegisterFlag) :
    MemberCalls R (getFlag flag : CpuM M _) :=
  .call (.getFlag flag)

@[simp] theorem members_setFlag (flag : StatusRegisterFlag) (value : Bool) :
    MemberCalls R (setFlag flag value : CpuM M _) :=
  .call (.setFlag flag value)

@[simp] theorem members_memGet (addr : BitVec 32) (size : DataSize) :
    MemberCalls R (memGet addr size : CpuM M _) :=
  .call (.memGet addr size)

@[simp] theorem members_memSet (addr : BitVec 32) (size : DataSize) (data : BitVec 32) :
    MemberCalls R (memSet addr size data : CpuM M _) :=
  .call (.memSet addr size data)

@[simp] theorem members_pure (a : α) : MemberCalls R (pure a : CpuM M α) := .pure a

/-! ### The accessors -/

theorem members_getExtRegOffset (hindex : ∀ r < 16, R r) (extWord : BitVec 32) :
    MemberCalls R (getExtRegOffset extWord : CpuM M _) :=
  .bind (members_getReg (hindex _ (extReg_lt extWord)) _) fun _ => .pure _

theorem members_getControlAddress (hpc : R regPC) (hindex : ∀ r < 16, R r)
    (mode : AddressingMode) (h : R reg)
    (size : DataSize) : MemberCalls R (CPUState.getControlAddress mode reg size : CpuM M _) := by
  cases mode <;> simp only [CPUState.getControlAddress]
  all_goals
    repeat refine .bind (by simp [h, hpc, members_getExtRegOffset hindex]) fun _ => ?_
    simp [h]

theorem members_getData (hpc : R regPC) (hindex : ∀ r < 16, R r) (mode : AddressingMode) (h : R reg)
    (size : DataSize) : MemberCalls R (CPUState.getData mode reg size : CpuM M _) := by
  cases mode <;> simp only [CPUState.getData]
  all_goals
    repeat refine .bind (by simp [h, hpc, members_getExtRegOffset hindex]) fun _ => ?_
    simp [h]

theorem members_getDataSilent (hpc : R regPC) (hindex : ∀ r < 16, R r)
    (mode : AddressingMode) (h : R reg)
    (size : DataSize) : MemberCalls R (CPUState.getDataSilent mode reg size : CpuM M _) := by
  cases mode <;> simp only [CPUState.getDataSilent]
  all_goals
    repeat refine .bind (by simp [h, hpc, members_getExtRegOffset hindex]) fun _ => ?_
    simp [h]

theorem members_setData (hpc : R regPC) (hindex : ∀ r < 16, R r) (mode : AddressingMode) (h : R reg)
    (size : DataSize) (data : BitVec 32) :
    MemberCalls R (CPUState.setData mode reg size data : CpuM M _) := by
  cases mode <;> simp only [CPUState.setData]
  all_goals
    repeat refine .bind (by simp [h, hpc, members_getExtRegOffset hindex]) fun _ => ?_
    simp [h, hpc]

theorem members_stackPop (hsp : R regUSP) (size : DataSize) :
    MemberCalls R (CPUState.stackPop size : CpuM M _) := by
  unfold CPUState.stackPop
  repeat refine .bind (by simp [hsp]) fun _ => ?_
  simp

theorem members_stackPush (hsp : R regUSP) (size : DataSize) (data : BitVec 32) :
    MemberCalls R (CPUState.stackPush size data : CpuM M _) := by
  unfold CPUState.stackPush
  repeat refine .bind (by simp [hsp]) fun _ => ?_
  simp

theorem members_checkCondition (cond : Condition) :
    MemberCalls R (CPUState.checkCondition cond : CpuM M _) := by
  unfold CPUState.checkCondition
  repeat refine .bind (by simp) fun _ => ?_
  simp

/-! ### Lines that bodies share -/

theorem members_skipOpcode (hpc : R regPC) : MemberCalls R (skipOpcode : CpuM M Unit) :=
  .bind (members_getReg hpc _) fun _ => members_setReg hpc _ _

theorem members_fetchOpcode (hpc : R regPC) : MemberCalls R (fetchOpcode : CpuM M _) :=
  .bind (members_getReg hpc _) fun _ => .bind (members_memGet _ _) fun _ => .pure _

theorem members_setArithmeticFlags (size : DataSize) (a b c : BitVec 32) :
    MemberCalls R (setArithmeticFlags size a b c : CpuM M Unit) := by
  unfold setArithmeticFlags
  repeat refine .bind (by simp) fun _ => ?_
  simp

theorem members_setCompareFlags (size : DataSize) (a b c : BitVec 32) :
    MemberCalls R (setCompareFlags size a b c : CpuM M Unit) := by
  unfold setCompareFlags
  repeat refine .bind (by simp) fun _ => ?_
  simp

theorem members_setLogicFlags {w : ℕ} (size : DataSize) (v : BitVec w) :
    MemberCalls R (setLogicFlags size v : CpuM M Unit) := by
  unfold setLogicFlags
  repeat refine .bind (by simp) fun _ => ?_
  simp

theorem members_setQuickFlags (mode : AddressingMode) (size : DataSize) (a b c : BitVec 32) :
    MemberCalls R (setQuickFlags mode size a b c : CpuM M Unit) :=
  .ite (members_setArithmeticFlags size a b c) (.pure _)

/-- The flags of `Move`, `Moveq` and `Clr`. -/
theorem members_setFourFlags (n z v c : Bool) :
    MemberCalls R
      (do
        setFlag .negative n; setFlag .zero z; setFlag .overflow v; setFlag .carry c :
          CpuM M Unit) := by
  repeat refine .bind (by simp) fun _ => ?_
  simp

theorem members_setCarryExtend (v : BitVec 64) :
    MemberCalls R (BitShift.setCarryExtend v : CpuM M Unit) :=
  .bind (members_setFlag _ _) fun _ => members_setFlag _ _

theorem members_rotateExtended (f : BitShiftOperand) (addrData shift : BitVec 64) :
    MemberCalls R (BitShift.rotateExtended f addrData shift : CpuM M _) := by
  refine .bind (members_getFlag _) fun flag => .ite ?_ ?_ <;>
    rcases f.dataSize with _ | _ | _ <;> exact .bind (members_setCarryExtend _) fun _ => .pure _

theorem members_shifted (f : BitShiftOperand) (addrData shift : BitVec 64) :
    MemberCalls R (BitShift.shifted f addrData shift : CpuM M _) := by
  unfold BitShift.shifted
  rcases f.instructionType with _ | _ | _ | _
  case rox => exact members_rotateExtended f addrData shift
  case ro =>
    exact .ite (.bind (members_setFlag _ _) fun _ => .pure _)
      (.bind (members_setFlag _ _) fun _ => .pure _)
  all_goals
    exact .ite (.bind (members_setCarryExtend _) fun _ => .pure _)
      (.bind (members_setCarryExtend _) fun _ => .pure _)

theorem members_fetchDisplacement (hpc : R regPC) :
    MemberCalls R (Link.fetchDisplacement : CpuM M _) := by
  unfold Link.fetchDisplacement
  repeat refine .bind (by simp [hpc]) fun _ => ?_
  simp

end Members

/-! ### Calls within limits -/

/-- What the arguments of the calls are required to satisfy; the constants among them do. -/
structure Limits where
  Reg : ℕ → Prop
  Mode : AddressingMode → Prop
  /-- the field `data_size`, where it is read -/
  Size : Option DataSize → Prop
  regPC : Reg regPC
  regUSP : Reg regUSP
  regD0 : Reg regD0
  immediate : Mode .immediate
  directData : Mode .directData
  directAddr : Mode .directAddr

/-- The calls of an execution on the accessors `A`. -/
inductive ExecuteCall (A : Accessors M) (L : Limits) : Calls Fault (CPUState M)
  | member {α : Type} {x : CpuM M α} (h : MemberCall L.Reg x) : ExecuteCall A L x
  | getControlAddress {mode : AddressingMode} {reg : ℕ} (hmode : L.Mode mode) (hreg : L.Reg reg)
      (size : DataSize) : ExecuteCall A L (A.getControlAddress mode reg size)
  | getData {mode : AddressingMode} {reg : ℕ} (hmode : L.Mode mode) (hreg : L.Reg reg)
      (size : DataSize) : ExecuteCall A L (A.getData mode reg size)
  | getDataSilent {mode : AddressingMode} {reg : ℕ} (hmode : L.Mode mode) (hreg : L.Reg reg)
      (size : DataSize) : ExecuteCall A L (A.getDataSilent mode reg size)
  | setData {mode : AddressingMode} {reg : ℕ} (hmode : L.Mode mode) (hreg : L.Reg reg)
      (size : DataSize) (data : BitVec 32) : ExecuteCall A L (A.setData mode reg size data)
  | readSize {dataSize : Option DataSize} (h : L.Size dataSize) :
      ExecuteCall A L (readSize dataSize)
  | invalidOpcode {α : Type} : ExecuteCall A L (throw .invalidOpcode : CpuM M α)
  | divideByZero {α : Type} : ExecuteCall A L (throw .divideByZero : CpuM M α)

/-- Computations that make such calls only. -/
abbrev ExecuteCalls (A : Accessors M) (L : Limits) : Calls Fault (CPUState M) :=
  Built (ExecuteCall A L)

/-- The destination and the size are within the limits. -/
structure OneOperand.Within (f : OneOperand) (L : Limits) : Prop where
  destMode : L.Mode f.destMode
  destReg : L.Reg f.destReg
  size : L.Size f.dataSize

/-- The source is, too. -/
structure TwoOperand.Within (f : TwoOperand) (L : Limits) :
    Prop extends OneOperand.Within f.toOneOperand L where
  srcMode : L.Mode f.srcMode
  srcReg : L.Reg f.srcReg

/-- The fields of the object that its `execute` reads are within the limits. -/
def Derived.Within (L : Limits) : Derived → Prop
  | .add f | .adda f | .addx f | .and f | .cmp f | .cmpa f | .eor f | .or f | .sub f | .suba f
  | .subx f => f.Within L
  | .addi f | .andi f | .clr f | .cmpi f | .eori f | .ext f | .neg f | .ori f | .subi f
  | .tst f => f.Within L
  | .jmp f | .jsr f | .pea f => f.Within L
  | .addq f | .moveq f | .subq f => f.toOneOperand.Within L
  | .bitManip f => f.toTwoOperand.Within L
  | .div f | .mul f => f.toTwoOperand.Within L
  | .move f => f.toTwoOperand.Within L
  | .bitShift f => L.Mode f.addrMode ∧ L.Reg f.addrReg ∧ L.Reg f.shiftReg
  | .lea f => L.Mode f.srcMode ∧ L.Reg f.srcReg ∧ L.Reg f.addrReg
  | .link addrReg | .unlk addrReg => L.Reg addrReg
  | .scc f => L.Mode f.destMode ∧ L.Reg f.destReg
  | .bcc _ | .illegal | .nop | .rts => True

section Bodies

variable {A : Accessors M} {L : Limits} {f : OneOperand} {fetch : DataSize → CpuM M (BitVec 32)}

theorem calls_of_members {x : CpuM M α} (h : MemberCalls L.Reg x) : ExecuteCalls A L x := by
  apply h.trans
  intro _ _ hcall
  exact .call (.member hcall)

theorem calls_skipOpcode : ExecuteCalls A L (skipOpcode : CpuM M Unit) :=
  calls_of_members (members_skipOpcode L.regPC)

theorem calls_stackPush (size : DataSize) (data : BitVec 32) :
    ExecuteCalls A L (CPUState.stackPush size data : CpuM M _) :=
  calls_of_members (members_stackPush L.regUSP size data)

/-- The lines that step over the opcode and read the size. -/
theorem calls_afterSize {dataSize : Option DataSize} {g : DataSize → CpuM M α} (h : L.Size dataSize)
    (hg : ∀ size, ExecuteCalls A L (g size)) :
    ExecuteCalls A L (do skipOpcode; let size ← readSize dataSize; g size) :=
  .bind calls_skipOpcode fun _ => .bind (.call (.readSize h)) hg

theorem calls_readModifyWrite (hf : f.Within L) (hfetch : ∀ size, ExecuteCalls A L (fetch size))
    (op : BitVec 32 → BitVec 32 → BitVec 32)
    {flags : DataSize → BitVec 32 → BitVec 32 → BitVec 32 → CpuM M Unit}
    (hflags : ∀ size a b c, MemberCalls L.Reg (flags size a b c)) :
    ExecuteCalls A L (readModifyWrite A fetch f op flags) := by
  refine calls_afterSize hf.size fun size => ?_
  refine .bind (hfetch size) fun srcData =>
    .bind (.call (.getDataSilent hf.destMode hf.destReg size)) fun destData => ?_
  exact .bind (.call (.setData hf.destMode hf.destReg size _)) fun _ =>
    calls_of_members (hflags size _ _ _)

theorem calls_extendedArithmetic {f : TwoOperand} (hf : f.Within L)
    (op : BitVec 32 → BitVec 32 → BitVec 32 → BitVec 32) :
    ExecuteCalls A L (extendedArithmetic A f op) := by
  refine calls_afterSize hf.size fun size => .bind (calls_of_members (members_getFlag _))
    fun extend => ?_
  refine .bind (.call (.getData hf.srcMode hf.srcReg size)) fun srcData => ?_
  refine .bind (.call (.getDataSilent hf.destMode hf.destReg size)) fun destData => ?_
  refine .bind (.call (.setData hf.destMode hf.destReg size _)) fun _ => calls_of_members ?_
  refine .ite (.bind (members_setFlag _ _) fun _ => ?_) ?_
  all_goals
    repeat refine .bind (by simp) fun _ => ?_
    simp

theorem calls_compareWith (hf : f.Within L) (hfetch : ∀ size, ExecuteCalls A L (fetch size)) :
    ExecuteCalls A L (compareWith A fetch f) := by
  refine calls_afterSize hf.size fun size => .bind (hfetch size) fun srcData => ?_
  refine .bind (.call (.getData hf.destMode hf.destReg size)) fun destData => ?_
  exact calls_of_members (members_setCompareFlags size _ _ _)

theorem calls_fetchSource {f : TwoOperand} (hf : f.Within L) (size : DataSize) :
    ExecuteCalls A L (fetchSource A f size) := .call (.getData hf.srcMode hf.srcReg size)

theorem calls_fetchImmediate (size : DataSize) : ExecuteCalls A L (fetchImmediate A size) :=
  .call (.getData L.immediate L.regD0 size)

theorem calls_mul {f : SignedOperand} (hf : f.toTwoOperand.Within L) :
    ExecuteCalls A L (Mul.execute A f) := by
  refine calls_afterSize hf.size fun size => .bind (.call (.getData hf.srcMode hf.srcReg size))
    fun srcData => ?_
  refine .bind (.call (.getDataSilent hf.destMode hf.destReg size)) fun destData => ?_
  exact .bind (.call (.setData hf.destMode hf.destReg _ _)) fun _ =>
    calls_of_members (members_setLogicFlags _ _)

theorem calls_div {f : SignedOperand} (hf : f.toTwoOperand.Within L) :
    ExecuteCalls A L (Div.execute A f) := by
  refine calls_afterSize hf.size fun size => .bind (.call (.getData hf.srcMode hf.srcReg size))
    fun srcData => ?_
  refine .bind (.call (.getDataSilent hf.destMode hf.destReg size)) fun destData => ?_
  refine .ite (.call .divideByZero) ?_
  exact .bind (.call (.setData hf.destMode hf.destReg _ _)) fun _ =>
    calls_of_members (members_setLogicFlags _ _)

theorem calls_ext (hf : f.Within L) : ExecuteCalls A L (Ext.execute A f) := by
  refine calls_afterSize hf.size fun size => .bind (.call (.getData hf.destMode hf.destReg _))
    fun data => ?_
  exact .bind (.call (.setData hf.destMode hf.destReg _ _)) fun _ =>
    calls_of_members (members_setLogicFlags _ _)

theorem calls_tst (hf : f.Within L) : ExecuteCalls A L (Tst.execute A f) := by
  refine calls_afterSize hf.size fun size => .bind (.call (.getData hf.destMode hf.destReg _))
    fun eaData => ?_
  exact calls_of_members (members_setLogicFlags _ _)

theorem calls_bitManip {f : BitManipOperand} (hf : f.toTwoOperand.Within L) :
    ExecuteCalls A L (BitManip.execute A f) := by
  refine calls_afterSize hf.size fun size => .bind (.call (.getData hf.srcMode hf.srcReg size))
    fun srcData => ?_
  refine .bind (.call (.getDataSilent hf.destMode hf.destReg size)) fun destData => ?_
  exact .bind (.call (.setData hf.destMode hf.destReg _ _)) fun _ =>
    calls_of_members (members_setFlag _ _)

theorem calls_bitShift {f : BitShiftOperand} (hmode : L.Mode f.addrMode) (haddr : L.Reg f.addrReg)
    (hshift : L.Reg f.shiftReg) : ExecuteCalls A L (BitShift.execute A f) := by
  have hrest (addrData shift : BitVec 64) : MemberCalls L.Reg (do
      let result ← BitShift.shifted f addrData shift
      setFlag .negative (isNegative result f.dataSize)
      setFlag .zero (isZero result f.dataSize)
      setFlag .overflow false : CpuM M Unit) := by
    refine .bind (members_shifted f _ _) fun result => ?_
    repeat refine .bind (by simp) fun _ => ?_
    simp
  refine .bind calls_skipOpcode fun _ => .bind (.call (.getDataSilent hmode haddr _))
    fun addrData => ?_
  dsimp only
  split_ifs
  · refine .bind (.call (.getData L.directData hshift f.dataSize)) fun shiftData => ?_
    exact .bind (.pure _) fun shift => calls_of_members (hrest _ _)
  · exact .bind (.pure _) fun shift => calls_of_members (hrest _ _)

theorem calls_move {f : MoveOperand} (hf : f.toTwoOperand.Within L) :
    ExecuteCalls A L (Move.execute A f) := by
  refine calls_afterSize hf.size fun size => .bind (.call (.getData hf.srcMode hf.srcReg size))
    fun srcData => ?_
  refine .ite (.call (.setData hf.destMode hf.destReg _ _)) ?_
  exact .bind (.call (.setData hf.destMode hf.destReg _ _)) fun _ =>
    calls_of_members (members_setFourFlags _ _ _ _)

theorem calls_moveq {f : QuickOperand} (hf : f.toOneOperand.Within L) :
    ExecuteCalls A L (Moveq.execute A f) := by
  refine calls_afterSize hf.size fun size =>
    .bind (.call (.setData hf.destMode hf.destReg _ _)) fun _ => ?_
  exact calls_of_members (members_setFourFlags _ _ _ _)

theorem calls_clr (hf : f.Within L) : ExecuteCalls A L (Clr.execute A f) := by
  refine calls_afterSize hf.size fun size =>
    .bind (.call (.setData hf.destMode hf.destReg _ _)) fun _ => ?_
  exact calls_of_members (members_setFourFlags _ _ _ _)

theorem calls_lea {f : LeaOperand} (hmode : L.Mode f.srcMode) (hsrc : L.Reg f.srcReg)
    (haddr : L.Reg f.addrReg) : ExecuteCalls A L (Lea.execute A f) := by
  refine .bind calls_skipOpcode fun _ => .bind (.call (.getControlAddress hmode hsrc f.dataSize))
    fun srcData => ?_
  exact .call (.setData L.directAddr haddr _ _)

theorem calls_scc {f : SccOperand} (hmode : L.Mode f.destMode) (hreg : L.Reg f.destReg) :
    ExecuteCalls A L (Scc.execute A f) := by
  refine .bind calls_skipOpcode fun _ => .bind (calls_of_members (members_checkCondition _))
    fun condResult => ?_
  exact .ite (.call (.setData hmode hreg _ _)) (.call (.setData hmode hreg _ _))

theorem calls_pea (hf : f.Within L) : ExecuteCalls A L (Pea.execute A f) := by
  refine calls_afterSize hf.size fun size => ?_
  exact .bind (.call (.getControlAddress hf.destMode hf.destReg size)) fun addr =>
    calls_stackPush _ _

theorem calls_link {addrReg : ℕ} (h : L.Reg addrReg) :
    ExecuteCalls A L (Link.execute addrReg : CpuM M Unit) := by
  apply calls_of_members
  refine .bind (members_fetchDisplacement L.regPC) fun displacement =>
    .bind (members_getReg h _) fun addrData => ?_
  refine .bind (members_stackPush L.regUSP _ _) fun _ =>
    .bind (members_getReg L.regUSP _) fun stackPtr => ?_
  exact .bind (members_setReg h _ _) fun _ => members_setReg L.regUSP _ _

theorem calls_unlk {addrReg : ℕ} (h : L.Reg addrReg) :
    ExecuteCalls A L (Unlk.execute addrReg : CpuM M Unit) := by
  apply calls_of_members
  refine .bind (members_skipOpcode L.regPC) fun _ => .bind (members_getReg h _) fun addrData => ?_
  refine .bind (members_setReg L.regUSP _ _) fun _ =>
    .bind (members_stackPop L.regUSP _) fun data => ?_
  exact members_setReg h _ _

theorem calls_displacement (f : BccOperand) :
    ExecuteCalls A L (Bcc.displacement (A.getData .immediate regD0) f) := by
  have hread (size : DataSize) : ExecuteCalls A L (A.getData .immediate regD0 size) :=
    calls_fetchImmediate size
  unfold Bcc.displacement
  rcases f.dataSize with _ | _ | _
  · exact .pure _
  · exact .bind (hread _) fun data => .pure _
  · exact hread _

theorem calls_bcc (f : BccOperand) : ExecuteCalls A L (Bcc.execute A f) := by
  have hjump (v : BitVec 32) : ExecuteCalls A L (setReg regPC .long v : CpuM M Unit) :=
    calls_of_members (members_setReg L.regPC _ _)
  refine .bind (calls_of_members (members_getReg L.regPC _)) fun opcodePc =>
    .bind (hjump _) fun _ => ?_
  refine .bind (calls_displacement f) fun displacement => ?_
  cases f.condition
  case true => exact hjump _
  case false => exact .bind (calls_stackPush _ _) fun _ => hjump _
  all_goals
    exact .bind (calls_of_members (members_checkCondition _)) fun condResult =>
      .ite (hjump _) (.pure _)

theorem calls_jmp (hf : f.Within L) : ExecuteCalls A L (Jmp.execute A f) := by
  refine calls_afterSize hf.size fun size => ?_
  refine .bind (.call (.getControlAddress hf.destMode hf.destReg size)) fun destAddr => ?_
  exact calls_of_members (members_setReg L.regPC _ _)

theorem calls_jsr (hf : f.Within L) : ExecuteCalls A L (Jsr.execute A f) := by
  refine calls_afterSize hf.size fun size => ?_
  refine .bind (.call (.getControlAddress hf.destMode hf.destReg size)) fun destAddr =>
    calls_of_members ?_
  refine .bind (members_getReg L.regPC _) fun pc =>
    .bind (members_stackPush L.regUSP _ _) fun _ => ?_
  exact members_setReg L.regPC _ _

theorem calls_rts : ExecuteCalls A L (Rts.execute : CpuM M Unit) := by
  apply calls_of_members
  exact .bind (members_stackPop L.regUSP _) fun _ => members_setReg L.regPC _ _

end Bodies

/-- An execution makes calls within the limits that the fields of its object are within. -/
theorem calls_execute {A : Accessors M} {L : Limits} {d : Derived} (h : d.Within L) :
    ExecuteCalls A L (d.execute A) := by
  cases d with
  | add f | sub f =>
    exact calls_readModifyWrite h.toWithin (calls_fetchSource h) _ members_setArithmeticFlags
  | and f | or f | eor f =>
    exact calls_readModifyWrite h.toWithin (calls_fetchSource h) _ fun _ _ _ _ =>
      members_setLogicFlags _ _
  | adda f | suba f =>
    exact calls_readModifyWrite h.toWithin (calls_fetchSource h) _ fun _ _ _ _ => .pure _
  | addi f | subi f =>
    exact calls_readModifyWrite h calls_fetchImmediate _ members_setArithmeticFlags
  | andi f | ori f | eori f =>
    exact calls_readModifyWrite h calls_fetchImmediate _ fun _ _ _ _ => members_setLogicFlags _ _
  | addq f | subq f => exact calls_readModifyWrite h (fun _ => .pure _) _ (members_setQuickFlags _)
  | neg f => exact calls_readModifyWrite h (fun _ => .pure _) _ members_setArithmeticFlags
  | addx f | subx f => exact calls_extendedArithmetic h _
  | cmp f => exact calls_compareWith h.toWithin (calls_fetchSource h)
  | cmpi f => exact calls_compareWith h calls_fetchImmediate
  | cmpa f =>
    exact calls_compareWith h.toWithin fun size => .bind (calls_fetchSource h size) fun _ => .pure _
  | mul f => exact calls_mul h
  | div f => exact calls_div h
  | ext f => exact calls_ext h
  | tst f => exact calls_tst h
  | bitManip f => exact calls_bitManip h
  | bitShift f => exact calls_bitShift h.1 h.2.1 h.2.2
  | move f => exact calls_move h
  | moveq f => exact calls_moveq h
  | clr f => exact calls_clr h
  | scc f => exact calls_scc h.1 h.2
  | lea f => exact calls_lea h.1 h.2.1 h.2.2
  | pea f => exact calls_pea h
  | link addrReg => exact calls_link h
  | unlk addrReg => exact calls_unlk h
  | bcc f => exact calls_bcc f
  | jmp f => exact calls_jmp h
  | jsr f => exact calls_jsr h
  | rts => exact calls_rts
  | nop => exact calls_skipOpcode
  | illegal => exact .bind calls_skipOpcode fun _ => .call .invalidOpcode

end M68kEmu
