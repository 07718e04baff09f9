import M68kEmu.Semantics.BitManip
import M68kEmu.Step.WriteFrame

/-!
# The bus writes of the test instructions

The calls of `IMemory::set` are what a memory sees of a write, even of one that changes no byte.
`TST` and the compare instructions make none, over any memory.  `BTST` shares `execute` with the
three operations that modify their bit, and with it the write-back: where its operand lies in memory
and the reads return, it stores the byte that it has read.
-/

namespace M68kEmu

open Outcome

/-! ### The calls -/

/-- The calls of `IMemory::set` that `execute` makes. -/
def Derived.busWrites {M : Type} [IMemory M] (d : Derived) (s : CPUState M) : List SetCall :=
  (after (d.execute .cpuState) s.traced).memory.sets

/-- `BTST`, `TST`, `CMP`, `CMPI` and `CMPA`. -/
def Derived.IsTest : Derived → Prop
  | .bitManip f => f.instructionType = .btst
  | .tst _ | .cmp _ | .cmpi _ | .cmpa _ => True
  | _ => False

/-! ### Computations that make no call -/

section Quiet

variable {M : Type} {α β : Type}

/-- The computation logs no call, whether it returns or throws. -/
def Quiet (x : CpuM (Traced M) α) : Prop := ∀ s, (after x s).memory.sets = s.memory.sets

theorem Quiet.pure (a : α) : Quiet (pure a : CpuM (Traced M) α) := fun _ => rfl

theorem Quiet.bind {x : CpuM (Traced M) α} {f : α → CpuM (Traced M) β} (hx : Quiet x)
    (hf : ∀ a, Quiet (f a)) : Quiet (x >>= f) := by
  intro s
  have hs := hx s
  rcases h : x s with ⟨a, t⟩ | ⟨e, t⟩
  · rw [after_of_ok h] at hs
    rw [after, bind_of_ok h, ← hs]
    exact hf a t
  · rw [after_of_error h] at hs
    rw [after, bind_of_error h]
    exact hs

theorem quiet_getReg (r : ℕ) (size : DataSize) : Quiet (getReg r size : CpuM (Traced M) _) := by
  intro s
  rw [after, getReg]
  rcases s.registers.get r size with _ | _ <;> rfl

theorem quiet_setReg (r : ℕ) (size : DataSize) (v : BitVec 32) :
    Quiet (setReg r size v : CpuM (Traced M) _) := by
  intro s
  rw [after, setReg]
  rcases s.registers.set r size v with _ | _ <;> rfl

theorem quiet_skipOpcode : Quiet (skipOpcode : CpuM (Traced M) Unit) :=
  (quiet_getReg _ _).bind fun _ => quiet_setReg _ _ _

theorem quiet_readSize (size : Option DataSize) : Quiet (readSize size : CpuM (Traced M) _) := by
  rcases size with _ | size <;> exact fun _ => rfl

theorem quiet_getExtRegOffset (extWord : BitVec 32) :
    Quiet (getExtRegOffset extWord : CpuM (Traced M) _) :=
  (quiet_getReg _ _).bind fun _ => .pure _

theorem quiet_setFlag (flag : StatusRegisterFlag) (b : Bool) :
    Quiet (setFlag flag b : CpuM (Traced M) _) :=
  fun _ => rfl

theorem quiet_setLogicFlags {w : ℕ} (size : DataSize) (result : BitVec w) :
    Quiet (setLogicFlags size result : CpuM (Traced M) _) :=
  (quiet_setFlag _ _).bind fun _ => (quiet_setFlag _ _).bind fun _ =>
    (quiet_setFlag _ _).bind fun _ =>
    quiet_setFlag _ _

theorem quiet_setCompareFlags (size : DataSize) (srcData destData result : BitVec 32) :
    Quiet (setCompareFlags size srcData destData result : CpuM (Traced M) _) :=
  (quiet_setFlag _ _).bind fun _ => (quiet_setFlag _ _).bind fun _ =>
    (quiet_setFlag _ _).bind fun _ =>
    quiet_setFlag _ _

variable [IMemory M]

theorem quiet_memGet (addr : BitVec 32) (size : DataSize) :
    Quiet (memGet addr size : CpuM (Traced M) _) := by
  intro s
  rw [after, memGet]
  simp only [IMemory.get]
  rcases IMemory.get addr.toNat size s.memory.memory with _ | _ <;> rfl

/-- The read phase makes no call. -/
theorem Quiet.of_reads {F : ℕ → Prop} {x : CpuM (Traced M) α} (h : Reads F x x) : Quiet x := by
  suffices hrelated : ∀ l : List SetCall, Related (fun s s' => s = s' ∧ s.memory.sets = l)
      (fun s s' => s = s' ∧ s.memory.sets = l) (fun s s' => s = s' ∧ s.memory.sets = l) x x by
    intro s
    obtain ⟨a, t, _, hs, -, -, ht⟩ | ⟨e, t, _, hs, -, -, ht⟩ :=
      hrelated s.memory.sets s s ⟨rfl, rfl⟩
    · rw [after_of_ok hs, ht]
    · rw [after_of_error hs, ht]
  intro l
  have hquiet {γ : Type} {y : CpuM (Traced M) γ} (hy : Quiet y) :
      Related (fun s s' => s = s' ∧ s.memory.sets = l)
      (fun s s' => s = s' ∧ s.memory.sets = l) (fun s s' => s = s' ∧ s.memory.sets = l) y y := by
    refine .of_eq (fun s a t hs ht => ?_) fun s e t hs ht => ?_
    · rw [← after_of_ok ht, hy s, hs]
    · rw [← after_of_error ht, hy s, hs]
  refine h.related fun hprim => ?_
  cases hprim with
  | getReg r size => exact hquiet (quiet_getReg r size)
  | getFlag flag => exact hquiet fun _ => rfl
  | memGet addr size => exact hquiet (quiet_memGet addr size)
  | setReg _ v => exact hquiet (quiet_setReg _ _ v)
  | throw e => exact hquiet fun _ => rfl

theorem quiet_getData (mode : AddressingMode) (reg : ℕ) (size : DataSize) :
    Quiet (CPUState.getData mode reg size : CpuM (Traced M) _) :=
  .of_reads (F := fun _ => True) (reads_getData trivial (fun _ => trivial) size)

theorem quiet_getDataSilent (mode : AddressingMode) (reg : ℕ) (size : DataSize) :
    Quiet (CPUState.getDataSilent mode reg size : CpuM (Traced M) _) :=
  .of_reads (F := fun _ => True) (reads_getDataSilent size)

end Quiet

/-! ### Computations that make one call -/

section Stores

variable {M : Type} {α β γ : Type}

/-- The computation logs a call exactly from those states from which `reads` returns. -/
def StoresIff (reads : CpuM (Traced M) γ) (x : CpuM (Traced M) α) : Prop :=
  ∀ s, (after x s).memory.sets = s.memory.sets ↔ ¬∃ c t, reads s = .ok c t

/-- Quiet reads before the store. -/
theorem Quiet.andThen {x : CpuM (Traced M) α} {g : α → CpuM (Traced M) γ}
    {f : α → CpuM (Traced M) β} (hx : Quiet x)
    (hf : ∀ a, StoresIff (g a) (f a)) : StoresIff (x >>= g) (x >>= f) := by
  intro s
  have hs := hx s
  rcases h : x s with ⟨a, t⟩ | ⟨e, t⟩
  · rw [after_of_ok h] at hs
    rw [after, bind_of_ok h, bind_of_ok h, ← hs]
    exact hf a t
  · rw [after_of_error h] at hs
    rw [after, bind_of_error h, bind_of_error h]
    simpa using hs

/-- A quiet read of the address, and the store. -/
theorem Quiet.andStore {x : CpuM (Traced M) α} {f : α → CpuM (Traced M) β} (hx : Quiet x)
    (hf : ∀ a, StoresIff (Pure.pure a) (f a)) : StoresIff x (x >>= f) := by
  have h := hx.andThen hf
  rwa [bind_pure] at h

/-- Quiet computations after the store. -/
theorem StoresIff.andQuiet {reads : CpuM (Traced M) γ} {x : CpuM (Traced M) α}
    {f : α → CpuM (Traced M) β}
    (hx : StoresIff reads x) (hf : ∀ a, Quiet (f a)) : StoresIff reads (x >>= f) := by
  intro s
  refine Iff.trans ?_ (hx s)
  rcases h : x s with ⟨a, t⟩ | ⟨e, t⟩
  · rw [after, bind_of_ok h, after_of_ok h]
    exact Eq.congr_left (hf a t)
  · rw [after, bind_of_error h, after_of_error h]

variable [IMemory M]

theorem storesIff_memSet (c : γ) (addr : BitVec 32) (size : DataSize) (data : BitVec 32) :
    StoresIff (pure c) (memSet addr size data : CpuM (Traced M) Unit) := by
  intro s
  refine iff_of_false (fun hsets => ?_) fun hnot => hnot ⟨c, s, rfl⟩
  have hcall : (after (memSet addr size data) s).memory.sets = s.memory.sets ++
      [⟨addr.toNat, size⟩] := by
    rw [after, memSet]
    simp only [IMemory.set]
    rcases IMemory.set addr.toNat size data s.memory.memory with _ | _ <;> rfl
  rw [hcall] at hsets
  simp at hsets

end Stores

/-! ### The address of a store -/

section Destination

variable {M : Type} [IMemory M]

/-- The lines of `CPUState::setData` that find the address for its call of `IMemory::set`. -/
def destinationAddress (mode : AddressingMode) (reg : ℕ) (size : DataSize) : CpuM M (BitVec 32) :=
  match mode with
  | .indirect | .indirectPostincrement => getReg reg .long
  | .indirectPredecrement => do
    let addr ← getReg reg .long
    return decremented reg size addr
  | .indirectDisplacement => do
    let addr ← getReg reg .long
    let pc ← getReg regPC .long
    let offset ← memGet pc .word
    setReg regPC .long (pc + 2)
    return addr + castInt16 offset
  | .indirectIndex => do
    let addr ← getReg reg .long
    let pc ← getReg regPC .long
    let extWord ← memGet pc .word
    let extRegOffset ← getExtRegOffset extWord
    setReg regPC .long (pc + 2)
    return addr + extRegOffset + castInt8 extWord
  | .absWord => do
    let pc ← getReg regPC .long
    let signedWord ← memGet pc .word
    return castInt16 signedWord
  | .absLong => do
    let pc ← getReg regPC .long
    let addr ← memGet pc .long
    setReg regPC .long (pc + 4)
    return addr
  | .directAddr | .directData | .pcDisplacement | .pcIndex | .immediate | .unknown => return 0

/-- A store to memory makes its call exactly if its address can be found. -/
theorem storesIff_setData {mode : AddressingMode} (h : isDataAlterable mode)
    (hmode : mode ≠ .directData) (reg : ℕ) (size : DataSize) (data : BitVec 32) :
    StoresIff (destinationAddress mode reg size : CpuM (Traced M) _)
      (CPUState.setData mode reg size data) := by
  cases mode with
  | directData => exact absurd rfl hmode
  | directAddr | immediate | pcDisplacement | pcIndex | unknown => exact absurd h (by decide)
  | indirect => exact (quiet_getReg _ _).andStore fun _ => storesIff_memSet _ _ _ _
  | indirectPostincrement =>
    exact (quiet_getReg _ _).andStore fun _ => (storesIff_memSet _ _ _ _).andQuiet fun _ =>
      quiet_setReg _ _ _
  | indirectPredecrement =>
    exact (quiet_getReg _ _).andThen fun _ => (storesIff_memSet _ _ _ _).andQuiet fun _ =>
      quiet_setReg _ _ _
  | indirectDisplacement =>
    exact (quiet_getReg _ _).andThen fun _ => (quiet_getReg _ _).andThen fun _ =>
      (quiet_memGet _ _).andThen fun _ =>
      (quiet_setReg _ _ _).andThen fun _ => storesIff_memSet _ _ _ _
  | indirectIndex =>
    exact (quiet_getReg _ _).andThen fun _ => (quiet_getReg _ _).andThen fun _ =>
      (quiet_memGet _ _).andThen fun _ =>
      (quiet_getExtRegOffset _).andThen fun _ => (quiet_setReg _ _ _).andThen fun _ =>
        storesIff_memSet _ _ _ _
  | absWord =>
    exact (quiet_getReg _ _).andThen fun _ => (quiet_memGet _ _).andThen fun _ =>
      (storesIff_memSet _ _ _ _).andQuiet fun _ => quiet_setReg _ _ _
  | absLong =>
    exact (quiet_getReg _ _).andThen fun _ => (quiet_memGet _ _).andThen fun _ =>
      (quiet_setReg _ _ _).andThen fun _ =>
      storesIff_memSet _ _ _ _

theorem reads_destinationAddress {M' : Type} [IMemory M'] (mode : AddressingMode) (reg : ℕ)
    (size : DataSize) : Reads Scratch (destinationAddress mode reg size : CpuM M _)
    (destinationAddress mode reg size : CpuM M' _) := by
  have hpc (v : BitVec 32) : Reads Scratch (setReg regPC .long v : CpuM M _)
      (setReg regPC .long v : CpuM M' _) :=
    reads_setReg scratch_regPC v
  cases mode with
  | directData | directAddr | immediate | pcDisplacement | pcIndex | unknown => exact .pure _
  | indirect | indirectPostincrement => exact reads_getReg _ _
  | indirectPredecrement => exact .bind (reads_getReg _ _) fun _ => .pure _
  | indirectDisplacement =>
    exact .bind (reads_getReg _ _) fun _ => .bind (reads_getReg _ _) fun _ =>
      .bind (reads_memGet _ _) fun _ =>
      .bind (hpc _) fun _ => .pure _
  | indirectIndex =>
    exact .bind (reads_getReg _ _) fun _ => .bind (reads_getReg _ _) fun _ =>
      .bind (reads_memGet _ _) fun _ =>
      .bind (reads_getExtRegOffset _) fun _ => .bind (hpc _) fun _ => .pure _
  | absWord => exact .bind (reads_getReg _ _) fun _ => .bind (reads_memGet _ _) fun _ => .pure _
  | absLong =>
    exact .bind (reads_getReg _ _) fun _ => .bind (reads_memGet _ _) fun _ =>
      .bind (hpc _) fun _ => .pure _

end Destination

/-! ### The bit test -/

section BitTest

variable {M : Type} [IMemory M]

/-- What a bit operation on a memory operand does before it stores: it reads the bit number and the
operand, and finds the address of the store. -/
def BitManip.readsBeforeStore (f : BitManipOperand) : CpuM M (BitVec 32) := do
  skipOpcode
  let dataSize ← readSize f.dataSize
  let _ ← CPUState.getData f.srcMode f.srcReg dataSize
  let _ ← CPUState.getDataSilent f.destMode f.destReg dataSize
  destinationAddress f.destMode f.destReg dataSize

/-- The instruction is a `BTST` of a memory operand, and its reads return. -/
def Derived.TestsMemoryBit (d : Derived) (s : CPUState M) : Prop :=
  ∃ f, d = .bitManip f ∧ f.instructionType = .btst ∧ f.destMode ≠ .directData ∧
    ∃ address t, BitManip.readsBeforeStore f s = .ok address t

theorem reads_readSize {M' : Type} [IMemory M'] (size : Option DataSize) :
    Reads Scratch (readSize size : CpuM M _) (readSize size : CpuM M' _) := by
  rcases size with _ | size
  · exact reads_throw _
  · exact .pure _

/-- A read does not see the log. -/
theorem related_get_traced_memory (address : ℕ) (size : DataSize) :
    Related (fun mem traced => traced.memory = mem) (fun mem traced => traced.memory = mem)
      (fun mem traced => traced.memory = mem) (IMemory.get address size : EStateM Fault M _)
      (IMemory.get address size : EStateM Fault (Traced M) _) := by
  rintro mem traced rfl
  rcases hget : IMemory.get address size traced.memory with ⟨v, mem⟩ | ⟨e, mem⟩
  · exact .inl ⟨v, mem, ⟨mem, traced.sets⟩, rfl, by simp only [IMemory.get, hget], rfl⟩
  · exact .inr ⟨e, mem, ⟨mem, traced.sets⟩, rfl, by simp only [IMemory.get, hget], rfl⟩

/-- The reads go over the memory with a log as over the memory itself. -/
theorem readsBeforeStore_traced {f : BitManipOperand} (hsrc : ValidOperand f.srcMode f.srcReg)
    (s : CPUState M) : (∃ address t, BitManip.readsBeforeStore f s.traced = .ok address t) ↔
      ∃ address t, BitManip.readsBeforeStore f s = .ok address t := by
  have hreads : Reads Scratch (BitManip.readsBeforeStore f : CpuM M _)
      (BitManip.readsBeforeStore f : CpuM (Traced M) _) := by
    refine .bind (.bind (reads_getReg _ _) fun _ => reads_setReg scratch_regPC _) fun _ => ?_
    refine .bind (reads_readSize _) fun size => ?_
    refine .bind (reads_getData scratch_regPC (fun hmode => .inr ⟨hsrc.base hmode, hsrc.lt⟩) size)
      fun _ => ?_
    exact .bind (reads_getDataSilent size) fun _ => reads_destinationAddress _ _ size
  have hrelated := related_of_reads (R := fun mem (traced : Traced M) => traced.memory = mem)
    (fun _ _ h => h) related_get_traced_memory hreads
  obtain ⟨address, t, t', hs, hs', -⟩ | ⟨e, t, t', hs, hs', -⟩ := hrelated s s.traced ⟨rfl, rfl⟩
  · exact iff_of_true ⟨address, t', hs'⟩ ⟨address, t, hs⟩
  · simp [hs, hs']

/-- A bit operation on a memory operand makes a call exactly if its reads return. -/
theorem storesIff_bitManip {f : BitManipOperand} (hdest : isDataAlterable f.destMode)
    (hmode : f.destMode ≠ .directData) :
    StoresIff (BitManip.readsBeforeStore f) (BitManip.execute .cpuState f : CpuM (Traced M) Unit) :=
  quiet_skipOpcode.andThen fun _ => (quiet_readSize _).andThen fun _ =>
    (quiet_getData _ _ _).andThen fun _ =>
    (quiet_getDataSilent _ _ _).andThen fun _ =>
    (storesIff_setData hdest hmode _ _ _).andQuiet fun _ => quiet_setFlag _ _

/-- A bit operation on a data register makes no call. -/
theorem quiet_bitManip {f : BitManipOperand} (hmode : f.destMode = .directData) :
    Quiet (BitManip.execute .cpuState f : CpuM (Traced M) Unit) := by
  refine quiet_skipOpcode.bind fun _ => (quiet_readSize _).bind fun _ =>
    (quiet_getData _ _ _).bind fun _ =>
    (quiet_getDataSilent _ _ _).bind fun _ => ?_
  rw [hmode]
  exact (quiet_setReg _ _ _).bind fun _ => quiet_setFlag _ _

theorem quiet_tst (f : OneOperand) : Quiet (Tst.execute .cpuState f : CpuM (Traced M) Unit) :=
  quiet_skipOpcode.bind fun _ => (quiet_readSize _).bind fun _ =>
    (quiet_getData _ _ _).bind fun _ =>
    quiet_setLogicFlags _ _

theorem quiet_compareWith {fetch : DataSize → CpuM (Traced M) (BitVec 32)}
    (hfetch : ∀ size, Quiet (fetch size))
    (f : OneOperand) : Quiet (compareWith .cpuState fetch f) :=
  quiet_skipOpcode.bind fun _ => (quiet_readSize _).bind fun _ => (hfetch _).bind fun _ =>
    (quiet_getData _ _ _).bind fun _ => quiet_setCompareFlags _ _ _ _

theorem quiet_cmp (f : TwoOperand) : Quiet (Cmp.execute .cpuState f : CpuM (Traced M) Unit) :=
  quiet_compareWith (quiet_getData f.srcMode f.srcReg) f.toOneOperand

theorem quiet_cmpi (f : OneOperand) : Quiet (Cmpi.execute .cpuState f : CpuM (Traced M) Unit) :=
  quiet_compareWith (quiet_getData .immediate regD0) f

theorem quiet_cmpa (f : TwoOperand) : Quiet (Cmpa.execute .cpuState f : CpuM (Traced M) Unit) :=
  quiet_compareWith (fun size => (quiet_getData f.srcMode f.srcReg size).bind fun _ => .pure _)
    f.toOneOperand

/-- An object whose execution is quiet has nothing to write, and is no exception. -/
theorem busWrites_iff_of_quiet {d : Derived}
    (hquiet : Quiet (d.execute .cpuState : CpuM (Traced M) Unit))
    (hcls : d.cls ≠ .bitManip) (s : CPUState M) : d.busWrites s = [] ↔ ¬d.TestsMemoryBit s := by
  refine iff_of_true (hquiet s.traced) ?_
  rintro ⟨f, rfl, -⟩
  exact hcls rfl

end BitTest

/-! ### The test instructions -/

/-- A test instruction makes no call of `IMemory::set`, except for a `BTST` of a memory operand
whose reads return. -/
theorem test_writes_nothing_iff {M : Type} [IMemory M] (opcode : BitVec 16)
    (htest : (decode opcode).derived.IsTest) (s : CPUState M) :
    (decode opcode).derived.busWrites s = [] ↔ ¬(decode opcode).derived.TestsMemoryBit s := by
  rcases hd : (decode opcode).derived <;> rw [hd] at htest <;> try exact htest.elim
  case bitManip f =>
    have hfields := fields_of_bitManip hd
    by_cases hmode : f.destMode = .directData
    · refine iff_of_true (quiet_bitManip hmode s.traced) ?_
      rintro ⟨g, hg, -, hmemory, -⟩
      exact hmemory (Derived.bitManip.inj hg ▸ hmode)
    · refine (storesIff_bitManip hfields.alterable hmode s.traced).trans (not_congr ?_)
      refine (readsBeforeStore_traced hfields.valid.src s).trans
        ⟨fun h => ⟨f, rfl, htest, hmode, h⟩, ?_⟩
      rintro ⟨g, hg, -, -, hreads⟩
      rwa [Derived.bitManip.inj hg]
  case tst f => exact busWrites_iff_of_quiet (d := .tst f) (quiet_tst f) nofun s
  case cmp f => exact busWrites_iff_of_quiet (d := .cmp f) (quiet_cmp f) nofun s
  case cmpi f => exact busWrites_iff_of_quiet (d := .cmpi f) (quiet_cmpi f) nofun s
  case cmpa f => exact busWrites_iff_of_quiet (d := .cmpa f) (quiet_cmpa f) nofun s

/-- `btst #0, (A0)` writes back the byte that it tests. -/
theorem btst_writes_back :
    (decode 0x0810).derived.IsTest ∧
      (decode 0x0810).derived.busWrites (CPUState.simple [0x08, 0x10, 0x00, 0x00] fun _ => 0) =
      [⟨0, .byte⟩] := by
  have hdecode : (decode 0x0810).derived =
      .bitManip { destMode := .indirect, destReg := 8, dataSize := some .byte,
                  srcMode := .immediate, srcReg := 4,
                  instructionType := .btst, instructionStr := "btst", dataBitsModulo := 8 } := by
    rw [decode_eq_opcodeEntry]
    rfl
  rw [hdecode]
  exact ⟨rfl, rfl⟩

/-- `tst.w (A0)` only reads. -/
theorem tst_writes_nothing :
    (decode 0x4A50).derived.busWrites (CPUState.simple [0x4A, 0x50] fun _ => 0) = [] := by
  have hdecode : (decode 0x4A50).derived =
      .tst { destMode := .indirect, destReg := 8, dataSize := some .word } := by
    rw [decode_eq_opcodeEntry]
    rfl
  have htest : (decode 0x4A50).derived.IsTest := by
    rw [hdecode]
    trivial
  refine (test_writes_nothing_iff 0x4A50 htest _).2 ?_
  rw [hdecode]
  rintro ⟨f, hf, -⟩
  cases hf

end M68kEmu
