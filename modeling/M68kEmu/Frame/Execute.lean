import M68kEmu.Frame.Operands
import M68kEmu.Frame.Phases

/-!
# What `execute` does, class by class

`Step F parts x y` says at once that a computation has the three phases and that it consumes the
parts.  Its rules follow the shape of the method bodies: reads first, then the access that may
store, then flag and register writes.  `step_execute` puts the classes together; everything that is
proved about all instructions follows from it.
-/

namespace M68kEmu

open Outcome

variable {M' : Type} [IMemory M'] {α β : Type}

/-- A read-phase computation that consumes the parts. -/
structure ReadStep (F : ℕ → Prop) (parts : List Part) (x : CpuM BaseMemory α) (y : CpuM M' α) :
    Prop where
  phase : Reads Scratch x y
  consumes : Consumes F parts x

/-- A commit-phase computation that consumes nothing. -/
structure CommitStep (F : ℕ → Prop) (x : CpuM BaseMemory α) (y : CpuM M' α) : Prop where
  phase : Commits x y
  consumes : Consumes F [] x

/-- A computation in three phases that consumes the parts. -/
structure Step (F : ℕ → Prop) (parts : List Part) (x : CpuM BaseMemory α) (y : CpuM M' α) :
    Prop where
  phase : Executes x y
  consumes : Consumes F parts x

section Rules

variable {F : ℕ → Prop} {ps qs : List Part} {x : CpuM BaseMemory α} {y : CpuM M' α}
    {f : α → CpuM BaseMemory β} {g : α → CpuM M' β}

theorem ReadStep.step (h : ReadStep F ps x y) : Step F ps x y := ⟨.first h.phase, h.consumes⟩

theorem CommitStep.step (h : CommitStep F x y) : Step F [] x y := ⟨.third h.phase, h.consumes⟩

theorem ReadStep.pure (a : α) : ReadStep F [] (pure a) (pure a : CpuM M' α) := ⟨.pure a, .pure a⟩

theorem ReadStep.bind (hx : ReadStep F ps x y) (hf : ∀ a, ReadStep F qs (f a) (g a)) :
    ReadStep F (ps ++ qs) (x >>= f) (y >>= g) :=
  ⟨.bind hx.phase fun a => (hf a).phase, hx.consumes.bind fun a => (hf a).consumes⟩

/-- Reads before the rest. -/
theorem ReadStep.andThen (hx : ReadStep F ps x y) (hf : ∀ a, Step F qs (f a) (g a)) :
    Step F (ps ++ qs) (x >>= f) (y >>= g) :=
  ⟨.firstBind hx.phase fun a => (hf a).phase, hx.consumes.bind fun a => (hf a).consumes⟩

/-- Commits after the rest. -/
theorem Step.andCommit (hx : Step F ps x y) (hf : ∀ a, CommitStep F (f a) (g a)) :
    Step F ps (x >>= f) (y >>= g) :=
  ⟨.bindThird hx.phase fun a => (hf a).phase, by
    have := hx.consumes.bind fun a => (hf a).consumes
    rwa [List.append_nil] at this⟩

/-- Where the program counter is free, only the movement of the base registers counts. -/
theorem Step.of_delta (hF : F regPC) (hd : ∀ r, r ≠ regPC → delta r ps = delta r qs)
    (h : Step F ps x y) : Step F qs x y :=
  ⟨h.phase, fun s a t hs =>
    { memSize := (h.consumes s a t hs).memSize
      moved := fun r hr hr' => by
        rw [(h.consumes s a t hs).moved r hr hr', hd r fun hpc => hr' (hpc ▸ hF)]
      fetched := fun hF' => absurd hF hF' }⟩

omit [IMemory M']

theorem CommitStep.pure (a : α) : CommitStep F (pure a) (pure a : CpuM M' α) := ⟨.pure a, .pure a⟩

theorem CommitStep.bind (hx : CommitStep F x y) (hf : ∀ a, CommitStep F (f a) (g a)) :
    CommitStep F (x >>= f) (y >>= g) :=
  ⟨.bind hx.phase fun a => (hf a).phase, hx.consumes.bind fun a => (hf a).consumes⟩

theorem CommitStep.ite {c : Prop} [Decidable c] {x' : CpuM BaseMemory α} {y' : CpuM M' α}
    (h : CommitStep F x y)
    (h' : CommitStep F x' y') : CommitStep F (if c then x else x') (if c then y else y') := by
  split_ifs
  · exact h
  · exact h'

end Rules

/-! ### The pieces -/

section Pieces

variable {F : ℕ → Prop} {mode : AddressingMode} {reg : ℕ} {size : DataSize}

theorem readStep_throw (e : Fault) {ps : List Part} :
    ReadStep F ps (throw e : CpuM BaseMemory α) (throw e : CpuM M' α) := ⟨reads_throw e, .throw e⟩

theorem readStep_getReg (r : ℕ) (size : DataSize) :
    ReadStep F [] (getReg r size) (getReg r size : CpuM M' _) :=
  ⟨reads_getReg _ _, consumes_getReg _ _⟩

theorem readStep_getFlag (flag : StatusRegisterFlag) :
    ReadStep F [] (getFlag flag) (getFlag flag : CpuM M' _) :=
  ⟨reads_getFlag _, consumes_getFlag _⟩

theorem readStep_setReg (h : Scratch reg) (hF : F reg) (v : BitVec 32) :
    ReadStep F [] (setReg reg .long v) (setReg reg .long v : CpuM M' _) :=
  ⟨reads_setReg h v, consumes_setReg h.named hF _ _⟩

theorem readStep_getData (h : ValidOperand mode reg) (size : DataSize) :
    ReadStep F [.operand mode reg size] (CPUState.getData mode reg size)
      (CPUState.getData mode reg size : CpuM M' _) :=
  ⟨reads_getData scratch_regPC (fun hm => .inr ⟨h.base hm, h.lt⟩) size, consumes_getData h.lt⟩

/-- A register operand moves nothing, at any size. -/
theorem readStep_getData_direct (h : ValidOperand mode reg) (hmode : mode = .directData)
    (size : DataSize) : ReadStep F [] (CPUState.getData mode reg size)
    (CPUState.getData mode reg size : CpuM M' _) := by
  subst hmode
  exact ⟨(readStep_getData (F := F) h size).phase, consumes_getReg _ _⟩

theorem readStep_getDataSilent (size : DataSize) :
    ReadStep F [] (CPUState.getDataSilent mode reg size)
      (CPUState.getDataSilent mode reg size : CpuM M' _) :=
  ⟨reads_getDataSilent size, consumes_getDataSilent⟩

theorem readStep_getControlAddress (h : ValidOperand mode reg) (hmode : isControlAddr mode)
    (size : DataSize) :
    ReadStep F [.operand mode reg size] (CPUState.getControlAddress mode reg size)
      (CPUState.getControlAddress mode reg size : CpuM M' _) :=
  ⟨reads_getControlAddress scratch_regPC size, consumes_getControlAddress h.lt hmode⟩

theorem readStep_checkCondition (cond : Condition) :
    ReadStep F [] (CPUState.checkCondition cond) (CPUState.checkCondition cond : CpuM M' _) :=
  ⟨reads_checkCondition cond, consumes_checkCondition cond⟩

theorem readStep_stackPop (hF : F regUSP) :
    ReadStep F [] (CPUState.stackPop size) (CPUState.stackPop size : CpuM M' _) :=
  ⟨reads_stackPop scratch_regUSP size, consumes_stackPop hF⟩

theorem step_stackPush (hF : F regUSP) (data : BitVec 32) :
    Step F [] (CPUState.stackPush size data) (CPUState.stackPush size data : CpuM M' _) :=
  ⟨executes_stackPush size data, consumes_stackPush hF data⟩

theorem step_setData (h : ValidOperand mode reg) (hmode : isMemoryAlterable mode)
    (hF : mode = .directData ∨ mode = .directAddr → F reg) (size : DataSize) (data : BitVec 32) :
    Step F [.operand mode reg size] (CPUState.setData mode reg size data)
      (CPUState.setData mode reg size data : CpuM M' _) :=
  ⟨executes_setData h.lt size data, consumes_setData h.lt hmode hF data⟩

/-- A register destination is the same part whatever the size of the write. -/
theorem step_setData_direct (h : ValidOperand mode reg)
    (hmode : mode = .directData ∨ mode = .directAddr) (hF : F reg)
    (size size' : DataSize) (data : BitVec 32) :
    Step F [.operand mode reg size] (CPUState.setData mode reg size' data)
      (CPUState.setData mode reg size' data : CpuM M' _) := by
  refine ⟨executes_setData h.lt size' data, fun s u t hs => ?_⟩
  have hmove : ∀ r, delta r [.operand mode reg size] = 0 := by
    intro r
    obtain rfl | rfl := hmode <;> simp [delta, Part.delta, Part.length, extSize, baseStep]
  have hset : setReg reg size' data s = .ok u t := by
    obtain rfl | rfl := hmode <;> exact hs
  have hkept := consumes_setReg (named_of_lt h.lt) hF size' data s u t hset
  refine ⟨hkept.memSize, fun r hr hr' => by rw [hkept.moved r hr hr', hmove, delta], fun _ => ?_⟩
  refine ⟨fun e he => ?_, trivial⟩
  obtain rfl | rfl := hmode <;> cases he

omit [IMemory M']

theorem commitStep_setFlag {flag : StatusRegisterFlag} (h : flag.bit < 5) (b : Bool) :
    CommitStep F (setFlag flag b) (setFlag flag b : CpuM M' _) :=
  ⟨commits_setFlag h b, consumes_setFlag h b⟩

theorem commitStep_getFlag (flag : StatusRegisterFlag) :
    CommitStep F (getFlag flag) (getFlag flag : CpuM M' _) :=
  ⟨commits_getFlag flag, consumes_getFlag flag⟩

theorem commitStep_getReg (h : Named reg) (size : DataSize) :
    CommitStep F (getReg reg size) (getReg reg size : CpuM M' _) :=
  ⟨commits_getReg h size, consumes_getReg _ _⟩

theorem commitStep_setReg (h : Named reg) (hF : F reg) (size : DataSize) (v : BitVec 32) :
    CommitStep F (setReg reg size v) (setReg reg size v : CpuM M' _) :=
  ⟨commits_setReg h size v, consumes_setReg h hF size v⟩

end Pieces

end M68kEmu
