import M68kEmu.Decode.Regular
import M68kEmu.Semantics.BitManip
import M68kEmu.Step.WriteFrame

/-!
# Which instructions change an address register

The address instructions assign address registers, the modes `(An)+` and `-(An)` move them, and the
stack instructions move `A7`.  The 68000 has no data operation with an address register as
destination, but the predicate that the constructors of `And`, `Or`, `Eor`, the immediate forms,
`Neg` and `Clr` test admits one: it looks for a memory operand that can be written, and accepts
both kinds of registers.  Those opcodes are executed, and there is a state in which such a step
changes its register.
-/

namespace M68kEmu

open Outcome

/-! ### The instructions -/

namespace Derived

/-- `MOVEA`, `ADDA`, `SUBA`, `LEA`, `LINK`, `UNLK`, and `ADDQ` and `SUBQ` with the
register as destination. -/
def AssignsAddress (d : Derived) (r : ℕ) : Prop :=
  match d with
  | .move f => f.isMovea = true
  | .adda _ | .suba _ | .lea _ | .link _ | .unlk _ => True
  | .addq f | .subq f => f.destMode = .directAddr ∧ f.destReg = r
  | _ => False

/-- The register is the base of an operand `(An)+` or `-(An)`. -/
def MovesBaseOf (d : Derived) (r : ℕ) : Prop :=
  ∃ mode size, MovesBase mode ∧ .operand mode r size ∈ d.listed

/-- `BSR`, `JSR`, `RTS` and `PEA`. -/
def UsesStack : Derived → Prop
  | .bcc f => f.condition = .false
  | .jsr _ | .pea _ | .rts => True
  | _ => False

/-- The instruction may change the address register. -/
def MayChange (d : Derived) (r : ℕ) : Prop :=
  d.AssignsAddress r ∨ d.MovesBaseOf r ∨ (r = regA7 ∧ d.UsesStack)

/-- A data operation with an address register as destination. -/
def DataToAddress : Derived → Prop
  | .add f | .and f | .eor f | .or f | .sub f => f.destMode = .directAddr
  | .addi f | .andi f | .clr f | .eori f | .neg f | .ori f | .subi f => f.destMode = .directAddr
  | _ => False

end Derived

/-- In every step on the opcode that completes, only the address registers change that the
instruction may change. -/
def KeepsAddressRegisters (opcode : BitVec 16) : Prop :=
  ∀ s t : CPUState BaseMemory, fetchOpcode s = .ok opcode s → step s = .ok () t →
    ∀ r, 8 ≤ r → r < 16 → t.reg r ≠ s.reg r → (decode opcode).derived.MayChange r

/-! ### What the constructors exclude -/

section Constructors

variable {opcode : BitVec 16}

/-- `Addx` and `Subx` add data registers, or memory. -/
theorem destMode_createExtended {cls : TwoOperand → Derived} (hcls : cls.Injective) {f : TwoOperand}
    (h : (createExtended cls opcode).derived = cls f) : f.destMode ≠ .directAddr := by
  obtain rfl := hcls h
  dsimp only
  split_ifs <;> decide

/-- `Scc` and the bit operations test for a data operand. -/
theorem ne_directAddr_of_isDataAlterable {mode : AddressingMode} (h : isDataAlterable mode) :
    mode ≠ .directAddr := by
  rintro rfl
  cases h

/-- Towards an address register, `Add`, `Sub`, `And` and `Or` take their source from
a data register. -/
theorem source_createOpMode {cls : TwoOperand → Derived} (hcls : cls.Injective) {f : TwoOperand}
    (h : (createOpMode cls opcode).derived = cls f) (hmode : f.destMode = .directAddr) :
    f.srcMode = .directData ∧ f.srcReg < 8 := by
  simp only [createOpMode] at h
  split_ifs at h <;> obtain rfl := hcls h
  · exact ⟨rfl, (matches_directData _).data rfl⟩
  · cases hmode

theorem source_eor {f : TwoOperand} (h : (Eor.create opcode).derived = .eor f)
    (hmode : f.destMode = .directAddr) : f.srcMode = .directData ∧ f.srcReg < 8 := by
  simp only [Eor.create] at h
  split_ifs at h <;> obtain rfl := Derived.eor.inj h
  · exact ⟨rfl, (matches_directData _).data rfl⟩
  · cases hmode

end Constructors

/-! ### The registers that a step changes -/

/-- A register that a part moves is the base of an operand. -/
theorem exists_base_of_part {r : ℕ} (hr : r ≠ regPC) {part : Part} (h : part.delta r ≠ 0) :
    ∃ mode size, MovesBase mode ∧ part = .operand mode r size := by
  unfold Part.delta at h
  rw [if_neg hr] at h
  rcases part with _ | ⟨mode, reg, size⟩
  · exact absurd rfl h
  · dsimp only at h
    split_ifs at h with hreg
    · refine ⟨mode, size, ?_, by rw [hreg]⟩
      by_contra hmoves
      exact h (baseStep_of_not_movesBase hmoves)
    · exact absurd rfl h

theorem exists_base_of_delta {r : ℕ} (hr : r ≠ regPC) {parts : List Part} (h : delta r parts ≠ 0) :
    ∃ mode size, MovesBase mode ∧ .operand mode r size ∈ parts := by
  induction parts with
  | nil => exact absurd rfl h
  | cons part parts ih =>
    by_cases hpart : part.delta r = 0
    · have hrest : delta r parts ≠ 0 := by simpa [delta, hpart] using h
      obtain ⟨mode, size, hmoves, hmem⟩ := ih hrest
      exact ⟨mode, size, hmoves, List.mem_cons_of_mem _ hmem⟩
    · obtain ⟨mode, size, hmoves, rfl⟩ := exists_base_of_part hr hpart
      exact ⟨mode, size, hmoves, List.mem_cons_self⟩

/-- What moves is listed, as the shifts move nothing. -/
theorem mem_listed_of_consumed {d : Derived} {part : Part} (h : part ∈ d.consumed)
    (hpart : part ≠ .opcode) : part ∈ d.listed := by
  by_cases hcls : d.cls = .bitShift
  · obtain ⟨f, rfl⟩ := Derived.eq_bitShift_of_cls hcls
    exact absurd (List.mem_singleton.1 h) hpart
  · rwa [Derived.consumed_eq_listed hcls] at h

/-- An address register that a destination assigns is the destination. -/
theorem dest_of_mem_assigned {mode : AddressingMode} {reg r : ℕ}
    (hmatches : MatchesRegister mode reg) (hr : 8 ≤ r)
    (h : r ∈ assigned mode reg) : mode = .directAddr ∧ reg = r := by
  rw [assigned] at h
  split_ifs at h with hmode
  · obtain rfl := List.mem_singleton.1 h
    obtain hdata | haddr := hmode
    · exact absurd (hmatches.data hdata) (by omega)
    · exact ⟨haddr, rfl⟩
  · cases h

/-- An address register that an instruction assigns may change, or is the destination
of a data operation. -/
theorem mayChange_of_written {opcode : BitVec 16} {r : ℕ} (hr : 8 ≤ r) (hlt : r < 16)
    (h : r ∈ (decode opcode).derived.written) (hdata : ¬(decode opcode).derived.DataToAddress) :
    (decode opcode).derived.MayChange r := by
  have hregular := regular_decode opcode
  have hvalid := valid_decode opcode
  have hpc : r ≠ regPC := ne_regPC_of_lt hlt
  rcases hd : (decode opcode).derived <;> rw [hd] at h hdata hregular hvalid
  case add f | and f | eor f | or f | sub f =>
    exact absurd (dest_of_mem_assigned hregular.dest hr h).1 hdata
  case addi f | andi f | clr f | eori f | neg f | ori f | subi f =>
    exact absurd (dest_of_mem_assigned hregular hr h).1 hdata
  case adda f | suba f | lea f | link addrReg | unlk addrReg => exact .inl trivial
  case addq f | subq f => exact .inl (dest_of_mem_assigned hregular hr h)
  case move f => exact .inl (hvalid.2.2 (dest_of_mem_assigned hregular.dest hr h).1)
  case addx f | subx f =>
    refine absurd (dest_of_mem_assigned hregular.dest hr h).1 ?_
    exact destMode_createExtended (fun _ _ heq => by cases heq; rfl) (created_of_decode hd nofun).2
  case mul f | div f =>
    have hdest := (dest_of_mem_assigned hregular.1.dest hr h).1
    rw [hvalid.2] at hdest
    cases hdest
  case ext f =>
    have hdest := (dest_of_mem_assigned hregular hr h).1
    rw [hvalid.2] at hdest
    cases hdest
  case moveq f =>
    have hdest := (dest_of_mem_assigned hregular.1 hr h).1
    obtain rfl := Derived.moveq.inj (created_of_decode hd nofun).2
    cases hdest
  case bitManip f =>
    refine absurd (dest_of_mem_assigned hregular.1.dest hr h).1 ?_
    exact ne_directAddr_of_isDataAlterable (fields_of_bitManip hd).alterable
  case scc f =>
    refine absurd (dest_of_mem_assigned hregular hr h).1 ?_
    obtain ⟨haccepted, hcreate⟩ := created_of_decode hd nofun
    obtain rfl := Derived.scc.inj hcreate
    exact ne_directAddr_of_isDataAlterable haccepted
  case pea f =>
    exact .inr (.inr ⟨List.mem_singleton.1 h, trivial⟩)
  case jsr f | rts =>
    obtain rfl | rfl : r = regUSP ∨ r = regPC := by simpa [Derived.written] using h
    · exact .inr (.inr ⟨rfl, trivial⟩)
    · exact absurd rfl hpc
  case bcc f =>
    rw [Derived.written] at h
    split_ifs at h with hcond
    · obtain rfl | rfl : r = regUSP ∨ r = regPC := by simpa using h
      · exact .inr (.inr ⟨rfl, hcond⟩)
      · exact absurd rfl hpc
    · exact absurd (List.mem_singleton.1 h) hpc
  case jmp f => exact absurd (List.mem_singleton.1 h) hpc
  all_goals cases h

/-- A step keeps the address registers that its instruction may not change, unless it is a data
operation with an address register as destination. -/
theorem keeps_of_not_dataToAddress {opcode : BitVec 16}
    (hdata : ¬(decode opcode).derived.DataToAddress) : KeepsAddressRegisters opcode := by
  intro s t hfetch h r hr hlt hne
  rw [step, stepWith, bind_of_ok hfetch] at h
  have hstep : Step (· ∈ (decode opcode).derived.written) (decode opcode).derived.consumed
      ((decode opcode).derived.execute .cpuState)
      ((decode opcode).derived.execute .cpuState : CpuM BaseMemory Unit) :=
    step_execute (valid_decode opcode)
  by_cases hwritten : r ∈ (decode opcode).derived.written
  · exact mayChange_of_written hr hlt hwritten hdata
  · have hmoved := (hstep.consumes s () t h).moved r (named_of_lt hlt) hwritten
    have hdelta : delta r (decode opcode).derived.consumed ≠ 0 :=
      fun hzero => hne (by rw [hmoved, hzero]; simp)
    obtain ⟨mode, size, hmoves, hmem⟩ := exists_base_of_delta (ne_regPC_of_lt hlt) hdelta
    have hoperand : Part.operand mode r size ≠ .opcode := by simp
    exact .inr (.inl ⟨mode, size, hmoves, mem_listed_of_consumed hmem hoperand⟩)

/-! ### A data operation that changes its address register -/

/-- A state at the opcode, with the words `2` after it: every data register holds 2,
every address register 1. -/
def probe (opcode : BitVec 16) : CPUState BaseMemory :=
  (CPUState.simple [0, 0, 0, 2, 0, 2] fun r => if r < 8 then 2 else if r < 16 then 1
    else 0).stored 0 .word (opcode.setWidth 32)

section Probe

variable {opcode : BitVec 16} {size : DataSize}

theorem reg_probe {r : ℕ} (h : 8 ≤ r) (hlt : r < 16) : (probe opcode).reg r = 1 := by
  have huser : (probe opcode).registers.supervisor = (0 : BitVec 32).getLsbD 13 := rfl
  have hbank : (probe opcode).registers.bank r = r :=
    if_neg fun hsup => absurd (huser ▸ hsup.2) (by decide)
  rw [CPUState.reg, hbank]
  exact (if_neg (by omega)).trans (if_pos hlt)

theorem fetchOpcode_probe : fetchOpcode (probe opcode) = .ok opcode (probe opcode) := by
  have hpc : (probe opcode).reg regPC = 0 := rfl
  have hacc : (probe opcode).memory.Accessible 0 .word :=
    (by decide : (simpleMemory fun _ => 0).Accessible 0 .word)
  rw [fetchOpcode, bind_of_ok (getReg_long named_regPC), hpc,
    bind_of_ok (memGet_of_accessible hacc)]
  refine congrArg (EStateM.Result.ok · _) (BitVec.eq_of_toNat_eq ?_)
  rw [BitVec.toNat_setWidth, BaseMemory.read, probe, CPUState.stored, BaseMemory.write,
    toNat_readRealMem_writeRealMem, BitVec.toNat_setWidth]
  have := opcode.isLt
  simp only [DataSize.bits, DataSize.bytes]
  omega

/-- The source is 2 in its low word, and the address registers still hold 1. -/
def FetchesTwo (fetch : DataSize → CpuM BaseMemory (BitVec 32)) (opcode : BitVec 16)
    (size : DataSize) : Prop :=
  ∃ src s₁, fetch size ((probe opcode).withReg regPC ((probe opcode).reg regPC + 2)) = .ok src s₁ ∧
    (src = 2 ∨ src = 0x20002) ∧ ∀ r, 8 ≤ r → r < 16 → s₁.reg r = 1

theorem reg_probe_withReg {r : ℕ} (h : 8 ≤ r) (hlt : r < 16) (v : BitVec 32) :
    ((probe opcode).withReg regPC v).reg r = 1 := by
  rw [CPUState.reg_withReg_of_ne named_regPC (named_of_lt hlt) (ne_regPC_of_lt hlt),
    reg_probe h hlt]

theorem fetchesTwo_directData {f : TwoOperand} (h : f.srcMode = .directData ∧ f.srcReg < 8) :
    FetchesTwo (fetchSource .cpuState f) opcode size := by
  have hnamed : Named f.srcReg := named_of_lt (by omega)
  refine ⟨2, (probe opcode).withReg regPC ((probe opcode).reg regPC + 2), ?_, .inl rfl,
    fun r hr hlt => reg_probe_withReg hr hlt _⟩
  show CPUState.getData f.srcMode f.srcReg size _ = _
  rw [h.1]
  refine (getReg_apply hnamed size).trans ?_
  have hreg : (probe opcode).reg f.srcReg = 2 := by
    rw [CPUState.reg, Registers.bank_of_ne (by simp only [regA7]; omega)]
    exact if_pos h.2
  rw [CPUState.reg_withReg_of_ne named_regPC hnamed (ne_regPC_of_lt (by omega)), hreg]
  cases size <;> rfl

theorem fetchesTwo_immediate : FetchesTwo (fetchImmediate .cpuState) opcode size := by
  have hpc : ((probe opcode).withReg regPC ((probe opcode).reg regPC + 2)).reg regPC = 2 := rfl
  have hacc : (simpleMemory fun _ => 0).Accessible 2 (immediateSize size) := by
    cases size <;> decide
  have hread (e : DataSize) : (probe opcode).memory.read 2 e =
      (CPUState.simple [0, 0, 0, 2, 0, 2] fun _ => 0).memory.read 2 e := by
    refine readRealMem_congr fun i hi _ => ?_
    have hword : maskAddr (0 : BitVec 32).toNat + DataSize.word.bytes ≤ i := hi
    exact writeRealMem_of_outside (.inr hword)
  have hvalue : (probe opcode).memory.immediate 2 size = if size = .long then 0x20002 else 2 := by
    rw [BaseMemory.immediate, hread]
    cases size <;> rfl
  refine ⟨if size = .long then 0x20002 else 2,
    (probe opcode).withReg regPC (2 + (immediateSize size).toWord), ?_, ?_,
    fun r hr hlt => reg_probe_withReg hr hlt _⟩
  · refine (getData_immediate regD0 (hpc ▸ hacc)).trans ?_
    rw [hpc, CPUState.withReg_withReg named_regPC, CPUState.memory_withReg, hvalue]
  · split_ifs
    · exact .inr rfl
    · exact .inl rfl

end Probe

/-- The step from the probe completes and changes an address register that it may not change. -/
def ChangesProbe (opcode : BitVec 16) (d : Derived) : Prop :=
  ∃ r t, 8 ≤ r ∧ r < 16 ∧ d.execute .cpuState (probe opcode) = .ok () t ∧
    t.reg r ≠ (probe opcode).reg r ∧ ¬d.MayChange r

/-- The operation changes a destination that holds 1, at every size. -/
def ChangesOne (op : BitVec 32 → BitVec 32 → BitVec 32) : Prop :=
  ∀ size src, src = 2 ∨ src = 0x20002 → Registers.merge 1 (op src (Registers.sized 1 size)) size ≠ 1

/-- A computation that completes and keeps the registers. -/
def KeepsRegisters (x : CpuM BaseMemory Unit) : Prop :=
  ∀ s, ∃ t, x s = .ok () t ∧ ∀ r, Named r → t.reg r = s.reg r

theorem keepsRegisters_of_commitStep {x : CpuM BaseMemory Unit}
    (h : CommitStep (fun _ => False) x (x : CpuM BaseMemory Unit))
    (hok : ∀ s, ∃ t, x s = .ok () t) : KeepsRegisters x := by
  intro s
  obtain ⟨t, ht⟩ := hok s
  refine ⟨t, ht, fun r hr => ?_⟩
  simpa [delta] using (h.consumes s () t ht).moved r hr id

section Operations

variable {opcode : BitVec 16} {f : OneOperand}
    {flags : DataSize → BitVec 32 → BitVec 32 → BitVec 32 → CpuM BaseMemory Unit}

/-- An operation on an address register that holds 1. -/
theorem readModifyWrite_changes (fetch : DataSize → CpuM BaseMemory (BitVec 32))
    (op : BitVec 32 → BitVec 32 → BitVec 32) {s s₁ : CPUState BaseMemory} {size : DataSize}
    {src : BitVec 32}
    (hmode : f.destMode = .directAddr) (hreg : f.destReg < 16) (hsize : f.dataSize = some size)
    (hfetch : fetch size (s.withReg regPC (s.reg regPC + 2)) = .ok src s₁)
    (hdest : s₁.reg f.destReg = 1)
    (hop : Registers.merge 1 (op src (Registers.sized 1 size)) size ≠ 1)
    (hflags : ∀ size a b c, KeepsRegisters (flags size a b c)) :
    ∃ t, readModifyWrite .cpuState fetch f op flags s = .ok () t ∧ t.reg f.destReg ≠ 1 := by
  have hnamed : Named f.destReg := named_of_lt hreg
  have hread :
      CPUState.getDataSilent f.destMode f.destReg size s₁ = .ok (Registers.sized 1 size) s₁ := by
    rw [hmode, ← hdest]
    exact getReg_apply hnamed size
  have hwrite (v : BitVec 32) : CPUState.setData f.destMode f.destReg size v s₁ =
      .ok () (s₁.withReg f.destReg (Registers.merge 1 v size)) := by
    rw [hmode, ← hdest]
    exact setReg_apply hnamed size
  obtain ⟨t, ht, hkept⟩ :=
    hflags size src (Registers.sized 1 size) (op src (Registers.sized 1 size))
    (s₁.withReg f.destReg (Registers.merge 1 (op src (Registers.sized 1 size)) size))
  refine ⟨t, ?_, ?_⟩
  · unfold readModifyWrite
    rw [bind_of_ok (skipOpcode_apply s), hsize, readSize, pure_bind, bind_of_ok hfetch]
    exact (bind_of_ok hread).trans ((bind_of_ok (hwrite _)).trans ht)
  · rwa [hkept _ hnamed, CPUState.reg_withReg_self hnamed]

/-- A data operation on the probe, with a source that fetches 2. -/
theorem changesProbe_of_readModifyWrite {d : Derived}
    {fetch : DataSize → CpuM BaseMemory (BitVec 32)} {op : BitVec 32 → BitVec 32 → BitVec 32}
    (hexecute : d.execute .cpuState = readModifyWrite .cpuState fetch f op flags)
    (hmode : f.destMode = .directAddr) (hf : f.Valid)
    (hmatches : MatchesRegister f.destMode f.destReg)
    (hfetch : ∀ size, FetchesTwo fetch opcode size) (hop : ChangesOne op)
    (hflags : ∀ size a b c, KeepsRegisters (flags size a b c)) (hnot : ¬d.MayChange f.destReg) :
    ChangesProbe opcode d := by
  obtain ⟨size, hsize⟩ := Option.isSome_iff_exists.1 hf.sized
  have hreg := hf.dest.lt
  have haddr := hmatches.addr hmode
  obtain ⟨src, s₁, hsrc, htwo, hkept⟩ := hfetch size
  obtain ⟨t, ht, hne⟩ :=
    readModifyWrite_changes fetch op hmode hreg hsize hsrc (hkept _ haddr hreg) (hop size src htwo)
    hflags
  exact ⟨f.destReg, t, haddr, hreg, hexecute ▸ ht, by rwa [reg_probe haddr hreg], hnot⟩

end Operations

/-! ### The operations -/

theorem keepsRegisters_setArithmeticFlags (size : DataSize) (a b c : BitVec 32) :
    KeepsRegisters (setArithmeticFlags size a b c) :=
  keepsRegisters_of_commitStep (commitStep_setArithmeticFlags a b c) fun _ => ⟨_, rfl⟩

theorem keepsRegisters_setResultFlags (size : DataSize) (a b c : BitVec 32) :
    KeepsRegisters (setResultFlags size a b c) :=
  keepsRegisters_of_commitStep (commitStep_setResultFlags size a b c) fun _ => ⟨_, rfl⟩

theorem changesOne_add : ChangesOne fun src dest => src + dest := by
  rintro size src (rfl | rfl) <;> cases size <;> decide

theorem changesOne_sub : ChangesOne fun src dest => dest - src := by
  rintro size src (rfl | rfl) <;> cases size <;> decide

theorem changesOne_and : ChangesOne fun src dest => src &&& dest := by
  rintro size src (rfl | rfl) <;> cases size <;> decide

theorem changesOne_or : ChangesOne fun src dest => dest ||| src := by
  rintro size src (rfl | rfl) <;> cases size <;> decide

theorem changesOne_xor : ChangesOne fun src dest => dest ^^^ src := by
  rintro size src (rfl | rfl) <;> cases size <;> decide

/-- The part moves no register. -/
def Part.Still (part : Part) : Prop :=
  ∀ mode reg size, part = .operand mode reg size → ¬MovesBase mode

/-- An operand in a register, or an immediate, moves nothing. -/
theorem still_operandOf {mode : AddressingMode} {reg : ℕ} {size : Option DataSize}
    (h : mode = .directData ∨ mode = .directAddr ∨ mode = .immediate) :
    (operandOf mode reg size).Still := by
  rintro mode' reg' size' heq
  cases heq
  obtain rfl | rfl | rfl := h <;> decide

/-- An instruction of a class that assigns no address register, and whose operands move
none, may change none. -/
theorem not_mayChange {d : Derived} {r : ℕ} {parts : List Part} (hassigns : ¬d.AssignsAddress r)
    (hstack : ¬d.UsesStack) (hlisted : d.listed = .opcode :: parts)
    (hstill : ∀ part ∈ parts, part.Still) : ¬d.MayChange r := by
  rintro (h | ⟨mode, size, hmoves, hmem⟩ | ⟨-, h⟩)
  · exact hassigns h
  · rw [hlisted] at hmem
    obtain h | hmem := List.mem_cons.1 hmem
    · cases h
    · exact hstill _ hmem mode r size rfl hmoves
  · exact hstack h

section Classes

variable {opcode : BitVec 16}

theorem changesProbe_of_neg {f : OneOperand} (hmode : f.destMode = .directAddr) (hf : f.Valid)
    (hmatches : MatchesRegister f.destMode f.destReg)
    (hnot : ¬(Derived.neg f).MayChange f.destReg) : ChangesProbe opcode (.neg f) := by
  obtain ⟨size, hsize⟩ := Option.isSome_iff_exists.1 hf.sized
  have hreg := hf.dest.lt
  have haddr := hmatches.addr hmode
  have hop : Registers.merge 1 (0 - Registers.sized 1 size) size ≠ 1 := by cases size <;> decide
  have hprobe : ((probe opcode).withReg regPC ((probe opcode).reg regPC + 2)).reg f.destReg = 1 :=
    reg_probe_withReg haddr hreg _
  obtain ⟨t, ht, hne⟩ :=
    readModifyWrite_changes (fun _ => pure 0) (fun src dest => src - dest) hmode hreg hsize rfl
    hprobe hop keepsRegisters_setArithmeticFlags
  exact ⟨f.destReg, t, haddr, hreg, ht, by rwa [reg_probe haddr hreg], hnot⟩

theorem changesProbe_of_clr {f : OneOperand} (hmode : f.destMode = .directAddr) (hf : f.Valid)
    (hmatches : MatchesRegister f.destMode f.destReg)
    (hnot : ¬(Derived.clr f).MayChange f.destReg) : ChangesProbe opcode (.clr f) := by
  obtain ⟨size, hsize⟩ := Option.isSome_iff_exists.1 hf.sized
  have hreg := hf.dest.lt
  have haddr := hmatches.addr hmode
  have hnamed : Named f.destReg := named_of_lt hreg
  let s₁ := (probe opcode).withReg regPC ((probe opcode).reg regPC + 2)
  have hwrite : CPUState.setData f.destMode f.destReg size 0 s₁ =
      .ok () (s₁.withReg f.destReg (Registers.merge (s₁.reg f.destReg) 0 size)) := by
    rw [hmode]
    exact setReg_apply hnamed size
  have hflags : KeepsRegisters (setFlag .negative false >>= fun _ => setFlag .zero true >>= fun _ =>
      setFlag .overflow false >>= fun _ => setFlag .carry false) :=
    keepsRegisters_of_commitStep
      (.bind (commitStep_setFlag (by decide) _) fun _ =>
        .bind (commitStep_setFlag (by decide) _) fun _ =>
        .bind (commitStep_setFlag (by decide) _) fun _ =>
          commitStep_setFlag (by decide) _) fun _ => ⟨_, rfl⟩
  obtain ⟨t, ht, hkept⟩ := hflags (s₁.withReg f.destReg (Registers.merge (s₁.reg f.destReg) 0 size))
  refine ⟨f.destReg, t, haddr, hreg, ?_, ?_, hnot⟩
  · show Clr.execute .cpuState f (probe opcode) = _
    rw [Clr.execute, bind_of_ok (skipOpcode_apply _), hsize, readSize, pure_bind]
    exact (bind_of_ok hwrite).trans ht
  · rw [hkept _ hnamed, CPUState.reg_withReg_self hnamed, reg_probe_withReg haddr hreg,
      reg_probe haddr hreg]
    cases size <;> decide

variable {d : Derived} {op : BitVec 32 → BitVec 32 → BitVec 32}
    {flags : DataSize → BitVec 32 → BitVec 32 → BitVec 32 → CpuM BaseMemory Unit}

/-- An operation with a data register as source. -/
theorem changesProbe_of_source {f : TwoOperand}
    (hexecute : d.execute .cpuState = readModifyWrite .cpuState (fetchSource .cpuState f)
      f.toOneOperand op flags)
    (hlisted : d.listed = [.opcode, f.srcPart, f.destPart]) (hassigns : ¬d.AssignsAddress f.destReg)
    (hstack : ¬d.UsesStack) (hmode : f.destMode = .directAddr)
    (hsource : f.srcMode = .directData ∧ f.srcReg < 8)
    (hf : f.Valid) (hmatches : f.Matches) (hop : ChangesOne op)
    (hflags : ∀ size a b c, KeepsRegisters (flags size a b c)) : ChangesProbe opcode d := by
  refine changesProbe_of_readModifyWrite hexecute hmode hf.toValid hmatches.dest
    (fun _ => fetchesTwo_directData hsource) hop hflags (not_mayChange hassigns hstack hlisted ?_)
  exact List.forall_mem_cons.2
    ⟨still_operandOf (.inl hsource.1),
      List.forall_mem_singleton.2 (still_operandOf (.inr (.inl hmode)))⟩

/-- An operation with an immediate source. -/
theorem changesProbe_of_immediate {f : OneOperand}
    (hexecute : d.execute .cpuState = readModifyWrite .cpuState
      (fetchImmediate .cpuState) f op flags)
    (hlisted : d.listed = [.opcode, f.immPart, f.destPart]) (hassigns : ¬d.AssignsAddress f.destReg)
    (hstack : ¬d.UsesStack) (hmode : f.destMode = .directAddr) (hf : f.Valid)
    (hmatches : MatchesRegister f.destMode f.destReg) (hop : ChangesOne op)
    (hflags : ∀ size a b c, KeepsRegisters (flags size a b c)) : ChangesProbe opcode d := by
  refine changesProbe_of_readModifyWrite hexecute hmode hf hmatches
    (fun _ => fetchesTwo_immediate) hop hflags (not_mayChange hassigns hstack hlisted ?_)
  exact List.forall_mem_cons.2
    ⟨still_operandOf (.inr (.inr rfl)),
      List.forall_mem_singleton.2 (still_operandOf (.inr (.inl hmode)))⟩

/-- A data operation with an address register as destination changes it, from some state. -/
theorem changesProbe_of_dataToAddress (h : (decode opcode).derived.DataToAddress) :
    ChangesProbe opcode (decode opcode).derived := by
  have hregular := regular_decode opcode
  have hvalid := valid_decode opcode
  rcases hd : (decode opcode).derived <;> rw [hd] at h hregular hvalid <;> try exact h.elim
  case add f =>
    have hsource :=
      source_createOpMode (fun _ _ => Derived.add.inj) (created_of_decode hd nofun).2 h
    exact changesProbe_of_source rfl rfl id id h hsource hvalid hregular changesOne_add
      keepsRegisters_setArithmeticFlags
  case sub f =>
    have hsource :=
      source_createOpMode (fun _ _ => Derived.sub.inj) (created_of_decode hd nofun).2 h
    exact changesProbe_of_source rfl rfl id id h hsource hvalid hregular changesOne_sub
      keepsRegisters_setArithmeticFlags
  case and f =>
    have hsource :=
      source_createOpMode (fun _ _ => Derived.and.inj) (created_of_decode hd nofun).2 h
    exact changesProbe_of_source rfl rfl id id h hsource hvalid hregular changesOne_and
      keepsRegisters_setResultFlags
  case or f =>
    have hsource := source_createOpMode (fun _ _ => Derived.or.inj) (created_of_decode hd nofun).2 h
    exact changesProbe_of_source rfl rfl id id h hsource hvalid hregular changesOne_or
      keepsRegisters_setResultFlags
  case eor f =>
    have hsource := source_eor (created_of_decode hd nofun).2 h
    exact changesProbe_of_source rfl rfl id id h hsource hvalid hregular changesOne_xor
      keepsRegisters_setResultFlags
  case addi f =>
    exact changesProbe_of_immediate rfl rfl id id h hvalid hregular changesOne_add
      keepsRegisters_setArithmeticFlags
  case subi f =>
    exact changesProbe_of_immediate rfl rfl id id h hvalid hregular changesOne_sub
      keepsRegisters_setArithmeticFlags
  case andi f =>
    exact changesProbe_of_immediate rfl rfl id id h hvalid hregular changesOne_and
      keepsRegisters_setResultFlags
  case ori f =>
    exact changesProbe_of_immediate rfl rfl id id h hvalid hregular changesOne_or
      keepsRegisters_setResultFlags
  case eori f =>
    exact changesProbe_of_immediate rfl rfl id id h hvalid hregular changesOne_xor
      keepsRegisters_setResultFlags
  case neg f =>
    exact changesProbe_of_neg h hvalid hregular
      (not_mayChange id id rfl (List.forall_mem_singleton.2 (still_operandOf (.inr (.inl h)))))
  case clr f =>
    exact changesProbe_of_clr h hvalid hregular
      (not_mayChange id id rfl (List.forall_mem_singleton.2 (still_operandOf (.inr (.inl h)))))

end Classes

/-! ### All opcodes -/

/-- A step changes only the address registers that its instruction may change, for exactly those
opcodes that are not decoded as a data operation with an address register as destination. -/
theorem keeps_address_registers_iff (opcode : BitVec 16) :
    KeepsAddressRegisters opcode ↔ ¬(decode opcode).derived.DataToAddress := by
  refine ⟨fun hkeeps hdata => ?_, keeps_of_not_dataToAddress⟩
  obtain ⟨r, t, hr, hlt, h, hne, hnot⟩ := changesProbe_of_dataToAddress hdata
  refine hnot (hkeeps (probe opcode) t fetchOpcode_probe ?_ r hr hlt hne)
  rwa [step, stepWith, bind_of_ok fetchOpcode_probe]

/-- `clr.w A0` is executed, and clears the low word of `A0`. -/
theorem clr_changes_address_register : ¬KeepsAddressRegisters 0x4248 := by
  have hdecode :
      (decode 0x4248).derived =
      .clr { destMode := .directAddr, destReg := 8, dataSize := some .word } := by
    rw [decode_eq_opcodeEntry]
    rfl
  intro hkeeps
  have hfetch : fetchOpcode (CPUState.simple [0x42, 0x48] fun r => if r = 8 then 1 else 0) =
      .ok 0x4248 (CPUState.simple [0x42, 0x48] fun r => if r = 8 then 1 else 0) := rfl
  obtain ⟨t, ht, hreg⟩ :
      ∃ t, step (CPUState.simple [0x42, 0x48] fun r => if r = 8 then 1 else 0) = .ok () t ∧
      t.reg 8 = 0 := by
    rw [step, stepWith, bind_of_ok hfetch, hdecode]
    exact ⟨_, rfl, rfl⟩
  have hmay := hkeeps _ t hfetch ht 8 (by decide) (by decide) (by rw [hreg]; decide)
  rw [hdecode] at hmay
  exact not_mayChange id id rfl (List.forall_mem_singleton.2 (still_operandOf (.inr (.inl rfl))))
    hmay

end M68kEmu
