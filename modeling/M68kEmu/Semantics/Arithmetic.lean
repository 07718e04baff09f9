import M68kEmu.Frame.Classes
import M68kEmu.Semantics.Flags
import M68kEmu.Semantics.Operand
import M68kEmu.Step.Isolation

/-!
# Addition and subtraction

What `ADD`, `ADDI`, `ADDQ`, `SUB`, `SUBI`, `SUBQ` and `NEG` do to their destination and to the
flags, against the integers that their operands are.  The result is right everywhere.  The carry of
long operands is always clear, since the sum is cut to 32 bits before the carry is looked for; and
the subtractions set the overflow of the sum of their operands.  The theorems say for which operands
all flags are right.
-/

namespace M68kEmu

open ConditionCodes Outcome

/-! ### Operands -/

/-- The operands of an instruction at its size, and the destination operand. -/
structure ArithmeticOperands where
  size : DataSize
  src : BitVec size.bits
  dest : BitVec size.bits
  mode : AddressingMode
  reg : ℕ

/-- The operands of the instructions with a source and a destination. -/
def arithmeticOperands (fetch : DataSize → CpuM BaseMemory (BitVec 32)) (f : OneOperand) :
    CpuM BaseMemory ArithmeticOperands := do
  skipOpcode
  let size ← readSize f.dataSize
  let src ← fetch size
  let dest ← CPUState.getDataSilent f.destMode f.destReg size
  return ⟨size, src.setWidth size.bits, dest.setWidth size.bits, f.destMode, f.destReg⟩

/-- The operands of `NEG`, which subtracts its operand from zero. -/
def negationOperands (f : OneOperand) : CpuM BaseMemory ArithmeticOperands := do
  skipOpcode
  let size ← readSize f.dataSize
  let data ← CPUState.getDataSilent f.destMode f.destReg size
  return ⟨size, data.setWidth size.bits, 0, f.destMode, f.destReg⟩

namespace Derived

/-- `ADD`, `ADDI`, and `ADDQ` to anything but an address register. -/
def IsAddition : Derived → Prop
  | .add _ | .addi _ => True
  | .addq f => f.destMode ≠ .directAddr
  | _ => False

/-- The numbers that the instruction adds. -/
def additionOperands : Derived → CpuM BaseMemory ArithmeticOperands
  | .add f => arithmeticOperands (fetchSource .cpuState f) f.toOneOperand
  | .addi f => arithmeticOperands (fetchImmediate .cpuState) f
  | .addq f => arithmeticOperands (fun _ => pure (f.immData.setWidth 32)) f.toOneOperand
  | _ => throw .invalidOpcode

/-- `SUB`, `SUBI`, `NEG`, and `SUBQ` to anything but an address register. -/
def IsSubtraction : Derived → Prop
  | .sub _ | .subi _ | .neg _ => True
  | .subq f => f.destMode ≠ .directAddr
  | _ => False

/-- The numbers that the instruction subtracts, the source from the destination. -/
def subtractionOperands : Derived → CpuM BaseMemory ArithmeticOperands
  | .sub f => arithmeticOperands (fetchSource .cpuState f) f.toOneOperand
  | .subi f => arithmeticOperands (fetchImmediate .cpuState) f
  | .subq f => arithmeticOperands (fun _ => pure (f.immData.setWidth 32)) f.toOneOperand
  | .neg f => negationOperands f
  | _ => throw .invalidOpcode

end Derived

/-- The destination holds the result, and the flags are those of the result, with the given
carry and overflow.  `s` is the state before the instruction and `s₁` the one in which it
reads its destination. -/
structure FlaggedResult (o : ArithmeticOperands) (result : BitVec o.size.bits)
    (carry overflow : Prop) (s s₁ t : CPUState BaseMemory) : Prop where
  value : ((s₁.locate o.mode o.reg o.size).value t o.size).toNat = result.toNat
  around : (s₁.locate o.mode o.reg o.size).Around o.size s₁ t
  extend : t.registers.getFlag .extend = true ↔ carry
  carry : t.registers.getFlag .carry = true ↔ carry
  overflow : t.registers.getFlag .overflow = true ↔ overflow
  negative : t.registers.getFlag .negative = result.msb
  zero : t.registers.getFlag .zero = true ↔ result = 0
  status : t.registers.regBuffer regSR &&& systemBits = s.registers.regBuffer regSR &&& systemBits

/-! ### The flags -/

section Flags

variable {s t : CPUState BaseMemory} {size : DataSize} {a b result : BitVec 32} {u : Unit}

/-- The flags that the arithmetic instructions set. -/
structure ArithmeticFlags (size : DataSize) (a b result : BitVec 32) (s t : CPUState BaseMemory) :
    Prop where
  memory : t.memory = s.memory
  reg : ∀ r, Named r → t.reg r = s.reg r
  extend : t.registers.getFlag .extend = decide (2 ^ size.bits ≤ result.toNat)
  carry : t.registers.getFlag .carry = decide (2 ^ size.bits ≤ result.toNat)
  overflow : t.registers.getFlag .overflow = (a.setWidth size.bits).saddOverflow
    (b.setWidth size.bits)
  negative : t.registers.getFlag .negative = (result.setWidth size.bits).msb
  zero : t.registers.getFlag .zero = decide (result.setWidth size.bits = 0)

theorem arithmeticFlags_of_eq_ok (h : setArithmeticFlags size a b result s = .ok u t) :
    ArithmeticFlags size a b result s t := by
  simp [setArithmeticFlags] at h
  subst h
  refine ⟨rfl, fun r hr => ?_, ?_, ?_, ?_, ?_, ?_⟩
  · simp only [CPUState.reg_withFlag (by decide : StatusRegisterFlag.bit .carry < 5) hr,
      CPUState.reg_withFlag (by decide : StatusRegisterFlag.bit .overflow < 5) hr,
      CPUState.reg_withFlag (by decide : StatusRegisterFlag.bit .zero < 5) hr,
      CPUState.reg_withFlag (by decide : StatusRegisterFlag.bit .negative < 5) hr,
      CPUState.reg_withFlag (by decide : StatusRegisterFlag.bit .extend < 5) hr]
  all_goals
    simp only [CPUState.withFlag, getFlag_setFlag, isNegative_eq, isZero_eq,
      isOverflow_eq, isCarry_eq]
    simp

/-- The flags of `ADDQ` and `SUBQ`, where they set any. -/
theorem arithmeticFlags_of_quick {mode : AddressingMode} (hmode : mode ≠ .directAddr)
    (h : setQuickFlags mode size a b result s = .ok u t) : ArithmeticFlags size a b result s t := by
  rw [setQuickFlags, if_pos hmode] at h
  exact arithmeticFlags_of_eq_ok h

end Flags

/-! ### The instructions that read, modify and write -/

/-- A computation that fetches a source operand: it reads, and gets a number of the size. -/
structure OperandFetch (fetch : DataSize → CpuM BaseMemory (BitVec 32)) : Prop where
  reads : ∀ size, Reads Scratch (fetch size) (fetch size)
  lt : ∀ size s v t, fetch size s = .ok v t → v.toNat < 2 ^ size.bits

theorem operandFetch_getData {mode : AddressingMode} {reg : ℕ} (h : ValidOperand mode reg) :
    OperandFetch (CPUState.getData mode reg) where
  reads size := (readStep_getData (F := fun _ => False) h size).phase
  lt _ _ _ _ := getData_lt

theorem operandFetch_fetchImmediate : OperandFetch (fetchImmediate .cpuState) :=
  operandFetch_getData (validOperand_immediate 0 0)

theorem operandFetch_pure {v : BitVec 32} (hv : v.toNat < 256) : OperandFetch fun _ => pure v where
  reads _ := .pure v
  lt size s v' t h := by
    obtain ⟨rfl, -⟩ := EStateM.Result.ok.inj h
    cases size <;> simp only [DataSize.bits, DataSize.bytes] <;> omega

theorem immData_lt (f : QuickOperand) : (f.immData.setWidth 32).toNat < 256 := by
  rw [BitVec.toNat_setWidth]
  exact Nat.lt_of_le_of_lt (Nat.mod_le _ _) f.immData.isLt

section ReadModifyWrite

variable {s t : CPUState BaseMemory} {u : Unit} {f : OneOperand}
    {fetch : DataSize → CpuM BaseMemory (BitVec 32)} {op : BitVec 32 → BitVec 32 → BitVec 32}
    {flags : DataSize → BitVec 32 → BitVec 32 → BitVec 32 → CpuM BaseMemory Unit}

theorem getDataSilent_lt {mode : AddressingMode} {reg : ℕ} {size : DataSize} {v : BitVec 32}
    (hreg : reg < 16)
    (hmode : isMemoryAlterable mode) (h : CPUState.getDataSilent mode reg size s = .ok v t) :
    v.toNat < 2 ^ size.bits := by
  obtain ⟨-, -, rfl, -⟩ := (getDataSilent_eq_ok hreg hmode).1 h
  cases s.locate mode reg size with
  | register r => exact sized_lt _ _
  | memory addr => exact readRealMem_lt

/-- What a completed instruction of the family has read and written: `s₁` is the state in which it
reads its destination, and `s₂` the one in which it sets the flags. -/
structure ReadModifyWritten (fetch : DataSize → CpuM BaseMemory (BitVec 32)) (f : OneOperand)
    (op : BitVec 32 → BitVec 32 → BitVec 32) (size : DataSize) (src dest : BitVec 32)
    (s s₁ s₂ : CPUState BaseMemory) : Prop where
  sized : f.dataSize = some size
  source : fetch size (s.withReg regPC (s.reg regPC + 2)) = .ok src s₁
  source_lt : src.toNat < 2 ^ size.bits
  read : CPUState.getDataSilent f.destMode f.destReg size s₁ = .ok dest s₁
  read_lt : dest.toNat < 2 ^ size.bits
  kept : DataKept s s₁
  rewritten : Rewritten f.destMode f.destReg size (op src dest) s₁ s₂
    (s₁.locate f.destMode f.destReg size)

/-- Fetching an operand keeps the data. -/
theorem dataKept_of_fetch (hfetch : OperandFetch fetch) {size : DataSize} {src : BitVec 32}
    {s₁ : CPUState BaseMemory}
    (h : fetch size (s.withReg regPC (s.reg regPC + 2)) = .ok src s₁) : DataKept s s₁ := by
  have hkept : DataKept s (after (fetch size) (s.withReg regPC (s.reg regPC + 2))) :=
    keeps_of_reads (hfetch.reads size) (fun _ => Scratch.named) (fun _ _ v hr ht => ht.withReg hr v)
      ((DataKept.refl s).withReg scratch_regPC _)
  rwa [after_of_ok h] at hkept

theorem readModifyWritten_of_eq_ok {size : DataSize} {src dest : BitVec 32}
    {s₁ s₁' s₂ : CPUState BaseMemory}
    (hf : f.Valid) (hfetch : OperandFetch fetch) (hsize : f.dataSize = some size)
    (hsrc : fetch size (s.withReg regPC (s.reg regPC + 2)) = .ok src s₁)
    (hdest : CPUState.getDataSilent f.destMode f.destReg size s₁ = .ok dest s₁')
    (hset : CPUState.setData f.destMode f.destReg size (op src dest) s₁' = .ok u s₂) :
    ReadModifyWritten fetch f op size src dest s s₁ s₂ := by
  obtain rfl : s₁ = s₁' := ((getDataSilent_eq_ok hf.dest.lt hf.alterable).1 hdest).2.2.2
  exact
    { sized := hsize
      source := hsrc
      source_lt := hfetch.lt _ _ _ _ hsrc
      read := hdest
      read_lt := getDataSilent_lt hf.dest.lt hf.alterable hdest
      kept := dataKept_of_fetch hfetch hsrc
      rewritten := rewritten_of_setData hf.dest.lt hf.alterable hset }

/-- The phases of a completed instruction of the family; the status register is as before
until the flags are set. -/
theorem readModifyWrite_eq_ok (hf : f.Valid) (hfetch : OperandFetch fetch)
    (h : readModifyWrite .cpuState fetch f op flags s = .ok u t) :
    ∃ size src dest s₁ s₂, ReadModifyWritten fetch f op size src dest s s₁ s₂ ∧
      s₂.registers.regBuffer regSR = s.registers.regBuffer regSR ∧
      flags size src dest (op src dest) s₂ = .ok u t := by
  obtain ⟨size, hsize⟩ := Option.isSome_iff_exists.1 hf.sized
  rw [readModifyWrite, bind_of_ok (skipOpcode_apply s), hsize, readSize, pure_bind] at h
  obtain ⟨src, s₁, hsrc, h⟩ := bind_eq_ok.1 h
  obtain ⟨dest, s₁', hdest, h⟩ := bind_eq_ok.1 h
  obtain ⟨_, s₂, hset, hflags⟩ := bind_eq_ok.1 h
  have hrun := readModifyWritten_of_eq_ok hf hfetch hsize hsrc hdest hset
  obtain rfl : s₁ = s₁' := ((getDataSilent_eq_ok hf.dest.lt hf.alterable).1 hdest).2.2.2
  have hstatus := status_of_setData hf.dest.lt hf.alterable hset
  exact ⟨size, src, dest, s₁, s₂, hrun, hstatus.trans hrun.kept.status, hflags⟩

theorem ReadModifyWritten.operands {size : DataSize} {src dest : BitVec 32}
    {s₁ s₂ : CPUState BaseMemory} (h : ReadModifyWritten fetch f op size src dest s s₁ s₂) :
    arithmeticOperands fetch f s =
      .ok ⟨size, src.setWidth size.bits, dest.setWidth size.bits, f.destMode, f.destReg⟩ s₁ := by
  rw [arithmeticOperands, bind_of_ok (skipOpcode_apply s), h.sized, readSize, pure_bind,
    bind_of_ok h.source, bind_of_ok h.read]
  rfl

/-- The result of an arithmetic instruction is always right; its flags are if the carry and the
overflow that it sets are. -/
theorem flaggedResult_iff {o : ArithmeticOperands} {a b result : BitVec 32}
    {s₁ s₂ : CPUState BaseMemory} {carry overflow : Prop} (hreg : o.reg < 16)
    (hwritten : Rewritten o.mode o.reg o.size result s₁ s₂ (s₁.locate o.mode o.reg o.size))
    (hflags : ArithmeticFlags o.size a b result s₂ t) (hisolated : Isolated s t) :
    FlaggedResult o (result.setWidth o.size.bits) carry overflow s s₁ t ↔
      (2 ^ o.size.bits ≤ result.toNat ↔ carry) ∧
        ((a.setWidth o.size.bits).saddOverflow (b.setWidth o.size.bits) = true ↔ overflow) := by
  constructor
  · intro h
    have hcarry := h.carry
    have hoverflow := h.overflow
    rw [hflags.carry, decide_eq_true_eq] at hcarry
    rw [hflags.overflow] at hoverflow
    exact ⟨hcarry, hoverflow⟩
  · rintro ⟨hcarry, hoverflow⟩
    refine ⟨?_, ?_, ?_, ?_, ?_, hflags.negative, ?_, hisolated.status⟩
    · rw [Location.value_congr (fun _ => named_of_locate hreg _) hflags.memory hflags.reg,
        hwritten.value, BitVec.toNat_setWidth]
    · exact hwritten.around.congr (fun _ => named_of_locate hreg _) hflags.memory hflags.reg
    · rw [hflags.extend, decide_eq_true_eq, hcarry]
    · rw [hflags.carry, decide_eq_true_eq, hcarry]
    · rw [hflags.overflow, hoverflow]
    · rw [hflags.zero, decide_eq_true_eq]

end ReadModifyWrite

/-! ### Addition -/

/-- The carry of a sum of small numbers reaches the bits above them, unless there are none. -/
theorem sum_carry_iff {size : DataSize} {x y : BitVec 32} (hx : x.toNat < 2 ^ size.bits)
    (hy : y.toNat < 2 ^ size.bits) :
    (2 ^ size.bits ≤ (x + y).toNat ↔ 2 ^ size.bits ≤ x.toNat + y.toNat) ↔
      (size = .long → x.toNat + y.toNat < 2 ^ 32) := by
  rw [BitVec.toNat_add]
  cases size <;> simp only [DataSize.bits, DataSize.bytes] at hx hy ⊢ <;> simp <;> omega

/-- The operands for which the flags of a sum are right. -/
def AdditionFaithful (o : ArithmeticOperands) : Prop :=
  o.size = .long → o.src.toNat + o.dest.toNat < 2 ^ 32

/-- The instruction adds: the destination ends as the sum, with the flags of the sum. -/
def Adds (o : ArithmeticOperands) (s s₁ t : CPUState BaseMemory) : Prop :=
  FlaggedResult o (o.src + o.dest) (2 ^ o.size.bits ≤ o.src.toNat + o.dest.toNat)
    (¬InSignedRange o.size.bits (o.src.toInt + o.dest.toInt)) s s₁ t

/-- An addition, over any source. -/
theorem adds_iff_of_readModifyWrite {f : OneOperand} (hf : f.Valid)
    {fetch : DataSize → CpuM BaseMemory (BitVec 32)} (hfetch : OperandFetch fetch)
    {flags : DataSize → BitVec 32 → BitVec 32 → BitVec 32 → CpuM BaseMemory Unit}
    {s t : CPUState BaseMemory} {u : Unit}
    (hflags : ∀ size a b c s, flags size a b c s = .ok u t → ArithmeticFlags size a b c s t)
    (h : readModifyWrite .cpuState fetch f (fun src dest => src + dest) flags s = .ok u t)
    (hisolated : Isolated s t) : ∃ o s₁, arithmeticOperands fetch f s = .ok o s₁ ∧ DataKept s s₁ ∧
    (Adds o s s₁ t ↔ AdditionFaithful o) := by
  obtain ⟨size, src, dest, s₁, s₂, hrun, -, hset⟩ := readModifyWrite_eq_ok hf hfetch h
  refine ⟨_, s₁, hrun.operands, hrun.kept, ?_⟩
  rw [Adds, AdditionFaithful]
  dsimp only
  have hreg : f.destReg < 16 := hf.dest.lt
  rw [← BitVec.setWidth_add _ _ (bits_le size),
    flaggedResult_iff hreg hrun.rewritten (hflags _ _ _ _ _ hset) hisolated,
    and_iff_left (saddOverflow_iff _ _), toNat_setWidth_of_lt hrun.source_lt,
    toNat_setWidth_of_lt hrun.read_lt, sum_carry_iff hrun.source_lt hrun.read_lt]

/-- After `ADD`, `ADDI`, and `ADDQ` to anything but an address register, the destination holds the
sum, everything around it is as before, and all flags are those of the sum, exactly when the sum of
long operands has no carry. -/
theorem addition_adds_iff (opcode : BitVec 16) (hadd : (decode opcode).derived.IsAddition)
    (s t : CPUState BaseMemory)
    (u : Unit) (h : (decode opcode).derived.execute .cpuState s = .ok u t) :
    ∃ o s₁, (decode opcode).derived.additionOperands s = .ok o s₁ ∧ DataKept s s₁ ∧
      (Adds o s s₁ t ↔ AdditionFaithful o) := by
  have hvalid := valid_decode opcode
  have hisolated := execute_isolated hvalid h
  rcases hd : (decode opcode).derived <;> rw [hd] at hadd h hvalid
  case add f =>
    have hf : f.Valid := hvalid
    exact adds_iff_of_readModifyWrite hf.toValid (operandFetch_getData hf.src)
      (fun _ _ _ _ _ => arithmeticFlags_of_eq_ok) h hisolated
  case addi f =>
    exact adds_iff_of_readModifyWrite hvalid operandFetch_fetchImmediate
      (fun _ _ _ _ _ => arithmeticFlags_of_eq_ok) h hisolated
  case addq f =>
    have hmode : f.destMode ≠ .directAddr := hadd
    exact adds_iff_of_readModifyWrite hvalid (operandFetch_pure (immData_lt f))
      (fun _ _ _ _ _ => arithmeticFlags_of_quick hmode) h hisolated
  all_goals exact hadd.elim

/-- The object of `add.l D1, D0`. -/
theorem decode_add_long : (decode 0xD081).derived =
    .add { destMode := .directData, destReg := 0, dataSize := some .long, srcMode := .directData,
           srcReg := 1 } := by
  rw [decode_eq_opcodeEntry]
  rfl

/-- `add.l D1, D0` with 1 and `0xFFFFFFFF` in the registers leaves `X` and `C` clear. -/
theorem addition_long_loses_carry :
    let s := CPUState.simple [0xD0, 0x81] fun i => if i = 0 then 0xFFFFFFFF
        else if i = 1 then 1 else 0
    ∃ t s₁, (decode 0xD081).derived.execute .cpuState s = .ok () t ∧
      (decode 0xD081).derived.additionOperands s = .ok ⟨.long, 1, 0xFFFFFFFF, .directData, 0⟩ s₁ ∧
      t.registers.getFlag .carry = false ∧ ¬Adds ⟨.long, 1, 0xFFFFFFFF, .directData, 0⟩ s s₁ t := by
  rw [decode_add_long]
  refine ⟨_, _, rfl, rfl, rfl, fun h => ?_⟩
  have hcarry := h.carry.2 (by decide)
  cases hcarry

/-- `add.l D1, D0` with 1 and 2 in the registers adds. -/
theorem addition_small_long_adds :
    let s := CPUState.simple [0xD0, 0x81] fun i => if i = 0 then 2 else if i = 1 then 1 else 0
    ∃ t s₁, (decode 0xD081).derived.execute .cpuState s = .ok () t ∧
      Adds ⟨.long, 1, 2, .directData, 0⟩ s s₁ t := by
  intro s
  obtain ⟨t, ht⟩ : ∃ t, (decode 0xD081).derived.execute .cpuState s = .ok () t := by
    rw [decode_add_long]
    exact ⟨_, rfl⟩
  obtain ⟨o, s₁, ho, -, hadds⟩ :=
    addition_adds_iff 0xD081 (by rw [decode_add_long]; trivial) s t () ht
  rw [decode_add_long] at ho
  obtain ⟨rfl, -⟩ := EStateM.Result.ok.inj ho
  exact ⟨t, s₁, ht, hadds.2 fun _ => by decide⟩

/-! ### Subtraction -/

/-- The operands for which the flags of a difference are right: neither the difference nor the sum
leaves the signed range, and the difference of long operands has no borrow. -/
structure SubtractionFaithful (o : ArithmeticOperands) : Prop where
  difference : InSignedRange o.size.bits (o.dest.toInt - o.src.toInt)
  sum : InSignedRange o.size.bits (o.src.toInt + o.dest.toInt)
  borrow : o.size = .long → o.src.toNat ≤ o.dest.toNat

/-- The instruction subtracts: the destination ends as the difference, with the flags
of the difference. -/
def Subtracts (o : ArithmeticOperands) (s s₁ t : CPUState BaseMemory) : Prop :=
  FlaggedResult o (o.dest - o.src) (o.dest.toNat < o.src.toNat)
    (¬InSignedRange o.size.bits (o.dest.toInt - o.src.toInt)) s s₁ t

/-- The sum overflows exactly when the difference does, and so neither does. -/
theorem overflow_faithful_iff {w : ℕ} (x y : BitVec w) :
    (y.saddOverflow x = true ↔ ¬InSignedRange w (x.toInt - y.toInt)) ↔
      InSignedRange w (x.toInt - y.toInt) ∧ InSignedRange w (y.toInt + x.toInt) := by
  rw [← ssubOverflow_iff, ← Bool.eq_iff_iff,
    saddOverflow_eq_ssubOverflow_iff, ← Bool.not_eq_true, ← Bool.not_eq_true,
    saddOverflow_iff, ssubOverflow_iff, not_not, not_not, and_comm]

theorem saddOverflow_comm {w : ℕ} (x y : BitVec w) : x.saddOverflow y = y.saddOverflow x := by
  rw [BitVec.saddOverflow, BitVec.saddOverflow, Int.add_comm]

/-- A subtraction whose carry is the borrow of its operands and whose overflow is
that of their sum. -/
theorem subtracts_iff {o : ArithmeticOperands} {a b result : BitVec 32}
    {s s₁ s₂ t : CPUState BaseMemory} (hreg : o.reg < 16)
    (hwritten : Rewritten o.mode o.reg o.size result s₁ s₂ (s₁.locate o.mode o.reg o.size))
    (hflags : ArithmeticFlags o.size a b result s₂ t) (hisolated : Isolated s t)
    (hresult : result.setWidth o.size.bits = o.dest - o.src)
    (hborrow : 2 ^ o.size.bits ≤ result.toNat ↔ o.size ≠ .long ∧ o.dest.toNat < o.src.toNat)
    (hover : (a.setWidth o.size.bits).saddOverflow (b.setWidth o.size.bits) =
      o.src.saddOverflow o.dest) : Subtracts o s s₁ t ↔ SubtractionFaithful o := by
  have hcarry : (2 ^ o.size.bits ≤ result.toNat ↔ o.dest.toNat < o.src.toNat) ↔
      (o.size = .long → o.src.toNat ≤ o.dest.toNat) := by
    rw [hborrow]
    by_cases hlong : o.size = .long
    · simp [hlong]
    · simp [hlong]
  rw [Subtracts, ← hresult, flaggedResult_iff hreg hwritten hflags hisolated, hover, hcarry,
    overflow_faithful_iff]
  exact ⟨fun h => ⟨h.2.1, h.2.2, h.1⟩, fun h => ⟨h.borrow, h.difference, h.sum⟩⟩

/-- A subtraction, over any source. -/
theorem subtracts_iff_of_readModifyWrite {f : OneOperand} (hf : f.Valid)
    {fetch : DataSize → CpuM BaseMemory (BitVec 32)} (hfetch : OperandFetch fetch)
    {flags : DataSize → BitVec 32 → BitVec 32 → BitVec 32 → CpuM BaseMemory Unit}
    {s t : CPUState BaseMemory} {u : Unit}
    (hflags : ∀ size a b c s, flags size a b c s = .ok u t → ArithmeticFlags size a b c s t)
    (h : readModifyWrite .cpuState fetch f (fun src dest => dest - src) flags s = .ok u t)
    (hisolated : Isolated s t) : ∃ o s₁, arithmeticOperands fetch f s = .ok o s₁ ∧ DataKept s s₁ ∧
    (Subtracts o s s₁ t ↔ SubtractionFaithful o) := by
  obtain ⟨size, src, dest, s₁, s₂, hrun, -, hset⟩ := readModifyWrite_eq_ok hf hfetch h
  refine ⟨_, s₁, hrun.operands, hrun.kept,
    subtracts_iff hf.dest.lt hrun.rewritten (hflags _ _ _ _ _ hset) hisolated
    (setWidth_sub (bits_le size)) ?_ rfl⟩
  dsimp only
  rw [toNat_setWidth_of_lt hrun.source_lt, toNat_setWidth_of_lt hrun.read_lt]
  exact borrow_iff hrun.read_lt hrun.source_lt

/-- `NEG`, which subtracts its operand from zero. -/
theorem subtracts_iff_of_neg {f : OneOperand} (hf : f.Valid) {s t : CPUState BaseMemory} {u : Unit}
    (h : Neg.execute .cpuState f s = .ok u t) (hisolated : Isolated s t) :
    ∃ o s₁, negationOperands f s = .ok o s₁ ∧ DataKept s s₁ ∧
    (Subtracts o s s₁ t ↔ SubtractionFaithful o) := by
  obtain ⟨size, src, dest, s₁, s₂, hrun, -, hset⟩ :=
    readModifyWrite_eq_ok hf (operandFetch_pure (by decide)) h
  obtain ⟨rfl, hs₁⟩ := EStateM.Result.ok.inj hrun.source
  have hzero : (0 : BitVec 32).setWidth size.bits = 0 := BitVec.setWidth_zero _ _
  refine ⟨⟨size, dest.setWidth size.bits, 0, f.destMode, f.destReg⟩, s₁, ?_, hrun.kept,
    subtracts_iff hf.dest.lt hrun.rewritten (arithmeticFlags_of_eq_ok hset) hisolated ?_ ?_ ?_⟩
  · rw [negationOperands, bind_of_ok (skipOpcode_apply s), hrun.sized, readSize, pure_bind, hs₁,
      bind_of_ok hrun.read]
    rfl
  · exact (setWidth_sub (bits_le size)).trans (by rw [hzero])
  · dsimp only
    rw [toNat_setWidth_of_lt hrun.read_lt]
    exact borrow_iff hrun.source_lt hrun.read_lt
  · dsimp only
    rw [hzero, saddOverflow_comm]

/-- After `SUB`, `SUBI`, `NEG`, and `SUBQ` to anything but an address register, the destination
holds the difference, everything around it is as before, and all flags are those of the difference,
exactly when neither the sum nor the difference of the operands leaves the signed range and the
difference of long operands has no borrow. -/
theorem subtraction_subtracts_iff (opcode : BitVec 16)
    (hsub : (decode opcode).derived.IsSubtraction) (s t : CPUState BaseMemory) (u : Unit)
    (h : (decode opcode).derived.execute .cpuState s = .ok u t) :
    ∃ o s₁, (decode opcode).derived.subtractionOperands s = .ok o s₁ ∧ DataKept s s₁ ∧
      (Subtracts o s s₁ t ↔ SubtractionFaithful o) := by
  have hvalid := valid_decode opcode
  have hisolated := execute_isolated hvalid h
  rcases hd : (decode opcode).derived <;> rw [hd] at hsub h hvalid
  case sub f =>
    have hf : f.Valid := hvalid
    exact subtracts_iff_of_readModifyWrite hf.toValid (operandFetch_getData hf.src)
      (fun _ _ _ _ _ => arithmeticFlags_of_eq_ok) h hisolated
  case subi f =>
    exact subtracts_iff_of_readModifyWrite hvalid operandFetch_fetchImmediate
      (fun _ _ _ _ _ => arithmeticFlags_of_eq_ok) h hisolated
  case subq f =>
    have hmode : f.destMode ≠ .directAddr := hsub
    exact subtracts_iff_of_readModifyWrite hvalid (operandFetch_pure (immData_lt f))
      (fun _ _ _ _ _ => arithmeticFlags_of_quick hmode) h hisolated
  case neg f => exact subtracts_iff_of_neg hvalid h hisolated
  all_goals exact hsub.elim

/-- The object of `sub.b D1, D0`. -/
theorem decode_sub_byte : (decode 0x9001).derived =
    .sub { destMode := .directData, destReg := 0, dataSize := some .byte, srcMode := .directData,
           srcReg := 1 } := by
  rw [decode_eq_opcodeEntry]
  rfl

/-- `sub.b D1, D0` with `0x40` in both registers sets `V`, though the difference is zero. -/
theorem subtraction_equal_bytes_overflows :
    let s := CPUState.simple [0x90, 0x01] fun i => if i < 2 then 0x40 else 0
    ∃ t s₁, (decode 0x9001).derived.execute .cpuState s = .ok () t ∧
      (decode 0x9001).derived.subtractionOperands s = .ok ⟨.byte, 0x40, 0x40, .directData, 0⟩ s₁ ∧
      t.registers.getFlag .overflow = true ∧
      ¬Subtracts ⟨.byte, 0x40, 0x40, .directData, 0⟩ s s₁ t := by
  rw [decode_sub_byte]
  refine ⟨_, _, rfl, rfl, rfl, fun h => ?_⟩
  have hover := h.overflow.1 rfl
  exact hover (by decide)

/-- `sub.b D1, D0` with 1 and 2 in the registers subtracts. -/
theorem subtraction_small_bytes_subtracts :
    ∃ t s₁, (decode 0x9001).derived.execute .cpuState
        (CPUState.simple [0x90, 0x01] fun i => if i = 0 then 2 else if i = 1 then 1 else 0) =
        .ok () t ∧
      Subtracts ⟨.byte, 1, 2, .directData, 0⟩
        (CPUState.simple [0x90, 0x01] fun i => if i = 0 then 2 else if i = 1 then 1
          else 0) s₁ t := by
  obtain ⟨t, ht⟩ : ∃ t, (decode 0x9001).derived.execute .cpuState
      (CPUState.simple [0x90, 0x01] fun i => if i = 0 then 2 else if i = 1 then 1 else 0) =
      .ok () t := by
    rw [decode_sub_byte]
    exact ⟨_, rfl⟩
  obtain ⟨o, s₁, ho, -, hsubtracts⟩ :=
    subtraction_subtracts_iff 0x9001 (by rw [decode_sub_byte]; trivial) _ t () ht
  rw [decode_sub_byte] at ho
  obtain ⟨rfl, -⟩ := EStateM.Result.ok.inj ho
  exact ⟨t, s₁, ht, hsubtracts.2 ⟨by decide, by decide, fun h => by cases h⟩⟩

end M68kEmu
