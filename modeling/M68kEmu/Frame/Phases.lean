import M68kEmu.Frame.Registers
import M68kEmu.Lib.Outcome
import M68kEmu.Model.Disassembler

/-!
# The phases of a step

What the accessors are built from.  `Reads F` are the computations that read registers, flags
and memory, write whole registers of `F`, and may throw; `Commits` are those that write
registers and arithmetic flags and cannot throw; `Executes` are reads, then at most one store to
memory, then commits.

The predicates relate the same code over two memories `M` and `M'`, so that one derivation serves
both for facts about a run and for the comparison of a run with the run over an instrumented memory.
-/

namespace M68kEmu

open Outcome

/-- The registers that a step may write before its store: the program counter and the
address registers. -/
def Scratch (r : ℕ) : Prop := r = regPC ∨ (8 ≤ r ∧ r < 16)

theorem Scratch.named {r : ℕ} (h : Scratch r) : Named r := by
  simp only [Scratch, Named] at *
  omega

theorem scratch_regPC : Scratch regPC := .inl rfl

theorem scratch_regUSP : Scratch regUSP := .inr (by decide)

variable {M M' : Type} [IMemory M] [IMemory M']

/-- The primitives of the read phase. -/
inductive ReadPrim (F : ℕ → Prop) : Pairs Fault (CPUState M) (CPUState M')
  | getReg (r : ℕ) (size : DataSize) : ReadPrim F (getReg r size) (getReg r size)
  | getFlag (flag : StatusRegisterFlag) : ReadPrim F (getFlag flag) (getFlag flag)
  | memGet (addr : BitVec 32) (size : DataSize) : ReadPrim F (memGet addr size) (memGet addr size)
  | setReg {r : ℕ} (h : F r) (v : BitVec 32) : ReadPrim F (setReg r .long v) (setReg r .long v)
  | throw {α : Type} (e : Fault) : ReadPrim F (throw e : CpuM M α) (throw e)

/-- The store. -/
inductive StorePrim : Pairs Fault (CPUState M) (CPUState M')
  | memSet (addr : BitVec 32) (size : DataSize) (data : BitVec 32) :
    StorePrim (memSet addr size data) (memSet addr size data)

/-- The primitives of the commit phase. -/
inductive CommitPrim : Pairs Fault (CPUState M) (CPUState M')
  | getReg {r : ℕ} (h : Named r) (size : DataSize) : CommitPrim (getReg r size) (getReg r size)
  | getFlag (flag : StatusRegisterFlag) : CommitPrim (getFlag flag) (getFlag flag)
  | setReg {r : ℕ} (h : Named r) (size : DataSize) (v : BitVec 32) :
      CommitPrim (setReg r size v) (setReg r size v)
  | setFlag {flag : StatusRegisterFlag} (h : flag.bit < 5) (value : Bool) :
    CommitPrim (setFlag flag value) (setFlag flag value)

/-- Read-phase computations. -/
abbrev Reads (F : ℕ → Prop) : Pairs Fault (CPUState M) (CPUState M') := Composed (ReadPrim F)

/-- Commit-phase computations. -/
abbrev Commits : Pairs Fault (CPUState M) (CPUState M') := Composed CommitPrim

/-- Computations in three phases. -/
abbrev Executes : Pairs Fault (CPUState M) (CPUState M') :=
  Phased (ReadPrim Scratch) StorePrim CommitPrim

/-! ### The primitives -/

section Primitives

variable {F : ℕ → Prop}

theorem reads_getReg (r : ℕ) (size : DataSize) :
    Reads F (getReg r size : CpuM M _) (getReg r size : CpuM M' _) :=
  .prim (.getReg r size)

theorem reads_getFlag (flag : StatusRegisterFlag) :
    Reads F (getFlag flag : CpuM M _) (getFlag flag : CpuM M' _) :=
  .prim (.getFlag flag)

theorem reads_memGet (addr : BitVec 32) (size : DataSize) :
    Reads F (memGet addr size : CpuM M _) (memGet addr size : CpuM M' _) :=
  .prim (.memGet addr size)

theorem reads_setReg {r : ℕ} (h : F r) (v : BitVec 32) :
    Reads F (setReg r .long v : CpuM M _) (setReg r .long v : CpuM M' _) :=
  .prim (.setReg h v)

theorem reads_throw {α : Type} (e : Fault) : Reads F (throw e : CpuM M α) (throw e : CpuM M' α) :=
  .prim (.throw e)

theorem executes_memSet (addr : BitVec 32) (size : DataSize) (data : BitVec 32) :
    Executes (memSet addr size data : CpuM M _) (memSet addr size data : CpuM M' _) :=
  .second (.memSet addr size data)

omit [IMemory M] [IMemory M']

theorem commits_getReg {r : ℕ} (h : Named r) (size : DataSize) :
    Commits (getReg r size : CpuM M _) (getReg r size : CpuM M' _) :=
  .prim (.getReg h size)

theorem commits_getFlag (flag : StatusRegisterFlag) :
    Commits (getFlag flag : CpuM M _) (getFlag flag : CpuM M' _) :=
  .prim (.getFlag flag)

theorem commits_setReg {r : ℕ} (h : Named r) (size : DataSize) (v : BitVec 32) :
    Commits (setReg r size v : CpuM M _) (setReg r size v : CpuM M' _) :=
  .prim (.setReg h size v)

theorem commits_setFlag {flag : StatusRegisterFlag} (h : flag.bit < 5) (value : Bool) :
    Commits (setFlag flag value : CpuM M _) (setFlag flag value : CpuM M' _) :=
  .prim (.setFlag h value)

end Primitives

/-! ### The accessors -/

section Accessors

variable {F : ℕ → Prop} {mode : AddressingMode} {reg : ℕ}

theorem reads_getExtRegOffset (extWord : BitVec 32) :
    Reads F (getExtRegOffset extWord : CpuM M _) (getExtRegOffset extWord : CpuM M' _) :=
  .bind (reads_getReg _ _) fun _ => .pure _

theorem reads_stackPop (hsp : F regUSP) (size : DataSize) :
    Reads F (CPUState.stackPop size : CpuM M _) (CPUState.stackPop size : CpuM M' _) :=
  .bind (reads_getReg _ _) fun _ => .bind (reads_memGet _ _) fun _ =>
  .bind (reads_setReg hsp _) fun _ => .pure _

theorem executes_stackPush (size : DataSize) (data : BitVec 32) :
    Executes (CPUState.stackPush size data : CpuM M _) (CPUState.stackPush size data : CpuM M' _) :=
  .firstBind (reads_getReg _ _) fun _ => .firstBind (reads_setReg scratch_regUSP _) fun _ =>
    executes_memSet _ _ _

theorem reads_checkCondition (cond : Condition) :
    Reads F (CPUState.checkCondition cond : CpuM M _) (CPUState.checkCondition cond : CpuM M' _) :=
  .bind (reads_getFlag _) fun _ => .bind (reads_getFlag _) fun _ => .bind (reads_getFlag _) fun _ =>
  .bind (reads_getFlag _) fun _ => .pure _

theorem reads_getControlAddress (hpc : F regPC) (size : DataSize) :
    Reads F (CPUState.getControlAddress mode reg size : CpuM M _)
      (CPUState.getControlAddress mode reg size : CpuM M' _) := by
  cases mode with
  | directData | directAddr | indirectPostincrement | indirectPredecrement | immediate
  | unknown => exact .pure _
  | indirect => exact reads_getReg _ _
  | indirectDisplacement =>
    exact .bind (reads_getReg _ _) fun _ => .bind (reads_getReg _ _) fun _ =>
      .bind (reads_memGet _ _) fun _ =>
      .bind (reads_setReg hpc _) fun _ => .pure _
  | indirectIndex =>
    exact .bind (reads_getReg _ _) fun _ => .bind (reads_getReg _ _) fun _ =>
      .bind (reads_memGet _ _) fun _ =>
      .bind (reads_getExtRegOffset _) fun _ => .bind (reads_setReg hpc _) fun _ => .pure _
  | pcDisplacement =>
    exact .bind (reads_getReg _ _) fun _ => .bind (reads_memGet _ _) fun _ =>
      .bind (reads_setReg hpc _) fun _ =>
      .pure _
  | pcIndex =>
    exact .bind (reads_getReg _ _) fun _ => .bind (reads_memGet _ _) fun _ =>
      .bind (reads_getExtRegOffset _) fun _ => .bind (reads_setReg hpc _) fun _ => .pure _
  | absWord | absLong =>
    exact .bind (reads_getReg _ _) fun _ => .bind (reads_setReg hpc _) fun _ => reads_memGet _ _

theorem reads_getDataSilent (size : DataSize) :
    Reads F (CPUState.getDataSilent mode reg size : CpuM M _)
      (CPUState.getDataSilent mode reg size : CpuM M' _) := by
  cases mode with
  | directData | directAddr => exact reads_getReg _ _
  | indirect | indirectPostincrement | indirectPredecrement =>
    exact .bind (reads_getReg _ _) fun _ => reads_memGet _ _
  | indirectDisplacement =>
    exact .bind (reads_getReg _ _) fun _ => .bind (reads_getReg _ _) fun _ =>
      .bind (reads_memGet _ _) fun _ =>
      reads_memGet _ _
  | indirectIndex =>
    exact .bind (reads_getReg _ _) fun _ => .bind (reads_getReg _ _) fun _ =>
      .bind (reads_memGet _ _) fun _ =>
      .bind (reads_getExtRegOffset _) fun _ => reads_memGet _ _
  | pcDisplacement | absWord | absLong =>
    exact .bind (reads_getReg _ _) fun _ => .bind (reads_memGet _ _) fun _ => reads_memGet _ _
  | pcIndex =>
    exact .bind (reads_getReg _ _) fun _ => .bind (reads_memGet _ _) fun _ =>
      .bind (reads_getExtRegOffset _) fun _ => reads_memGet _ _
  | immediate => exact .bind (reads_getReg _ _) fun _ => .bind (reads_memGet _ _) fun _ => .pure _
  | unknown => exact .pure _

/-- The modes that move their base register. -/
def MovesBase (mode : AddressingMode) : Prop :=
  mode = .indirectPostincrement ∨ mode = .indirectPredecrement

instance : DecidablePred MovesBase := fun _ => inferInstanceAs (Decidable (_ ∨ _))

theorem reads_getData (hpc : F regPC) (hreg : MovesBase mode → F reg) (size : DataSize) :
    Reads F (CPUState.getData mode reg size : CpuM M _)
      (CPUState.getData mode reg size : CpuM M' _) := by
  cases mode with
  | directData | directAddr => exact reads_getReg _ _
  | indirect => exact .bind (reads_getReg _ _) fun _ => reads_memGet _ _
  | indirectPostincrement =>
    exact .bind (reads_getReg _ _) fun _ => .bind (reads_memGet _ _) fun _ =>
      .bind (reads_setReg (hreg (.inl rfl)) _) fun _ => .pure _
  | indirectPredecrement =>
    exact .bind (reads_getReg _ _) fun _ => .bind (reads_memGet _ _) fun _ =>
      .bind (reads_setReg (hreg (.inr rfl)) _) fun _ => .pure _
  | indirectDisplacement =>
    exact .bind (reads_getReg _ _) fun _ => .bind (reads_getReg _ _) fun _ =>
      .bind (reads_memGet _ _) fun _ =>
      .bind (reads_setReg hpc _) fun _ => reads_memGet _ _
  | indirectIndex =>
    exact .bind (reads_getReg _ _) fun _ => .bind (reads_getReg _ _) fun _ =>
      .bind (reads_memGet _ _) fun _ =>
      .bind (reads_getExtRegOffset _) fun _ => .bind (reads_setReg hpc _) fun _ => reads_memGet _ _
  | pcDisplacement | absWord | absLong =>
    exact .bind (reads_getReg _ _) fun _ => .bind (reads_memGet _ _) fun _ =>
      .bind (reads_setReg hpc _) fun _ =>
      reads_memGet _ _
  | pcIndex =>
    exact .bind (reads_getReg _ _) fun _ => .bind (reads_memGet _ _) fun _ =>
      .bind (reads_getExtRegOffset _) fun _ => .bind (reads_setReg hpc _) fun _ => reads_memGet _ _
  | immediate =>
    exact .bind (reads_getReg _ _) fun _ => .bind (reads_memGet _ _) fun _ =>
      .bind (reads_setReg hpc _) fun _ =>
      .pure _
  | unknown => exact .pure _

/-- The store comes last, or only register writes come after it. -/
theorem executes_setData (hreg : reg < 16) (size : DataSize) (data : BitVec 32) :
    Executes (CPUState.setData mode reg size data : CpuM M _)
      (CPUState.setData mode reg size data : CpuM M' _) := by
  have hnamed : Named reg := named_of_lt hreg
  cases mode with
  | directData | directAddr => exact .third (commits_setReg hnamed _ _)
  | indirect => exact .firstBind (reads_getReg _ _) fun _ => executes_memSet _ _ _
  | indirectPostincrement | indirectPredecrement =>
    exact .firstBind (reads_getReg _ _) fun _ =>
      .bindThird (executes_memSet _ _ _) fun _ => commits_setReg hnamed _ _
  | indirectDisplacement =>
    exact .firstBind (reads_getReg _ _) fun _ => .firstBind (reads_getReg _ _) fun _ =>
      .firstBind (reads_memGet _ _) fun _ => .firstBind (reads_setReg scratch_regPC _) fun _ =>
        executes_memSet _ _ _
  | indirectIndex =>
    exact .firstBind (reads_getReg _ _) fun _ => .firstBind (reads_getReg _ _) fun _ =>
      .firstBind (reads_memGet _ _) fun _ => .firstBind (reads_getExtRegOffset _) fun _ =>
      .firstBind (reads_setReg scratch_regPC _) fun _ => executes_memSet _ _ _
  | absWord =>
    exact .firstBind (reads_getReg _ _) fun _ => .firstBind (reads_memGet _ _) fun _ =>
      .bindThird (executes_memSet _ _ _) fun _ => commits_setReg named_regPC _ _
  | absLong =>
    exact .firstBind (reads_getReg _ _) fun _ => .firstBind (reads_memGet _ _) fun _ =>
      .firstBind (reads_setReg scratch_regPC _) fun _ => executes_memSet _ _ _
  | pcDisplacement | pcIndex | immediate | unknown => exact .third (.pure _)

end Accessors

end M68kEmu
