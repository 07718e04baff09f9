import M68kEmu.Semantics.Arithmetic

/-!
# Extended arithmetic

`ADDX` and `SUBX` add and subtract with the extend bit, in a data register or through two
predecremented address registers.  Result, carry and the sticky zero flag follow from the operands
and the extend bit; the overflow is that of the sum of the operands alone, which
`extended_overflow_iff` compares with the overflow that is meant.
-/

namespace M68kEmu

open ConditionCodes Outcome

/-- The extend bit as a number. -/
def CPUState.extendData {M : Type} (s : CPUState M) : BitVec 32 :=
  if s.registers.getFlag .extend then 1 else 0

theorem extendData_cases {M : Type} (s : CPUState M) :
    s.extendData.toNat = 0 ∨ s.extendData.toNat = 1 := by
  rw [CPUState.extendData]
  split_ifs
  · exact .inr rfl
  · exact .inl rfl

/-! ### The flags -/

section Flags

variable {s t : CPUState BaseMemory} {size : DataSize} {src dest sum : BitVec 32} {u : Unit}

/-- The lines of `Addx` and `Subx` that set the flags. -/
def setExtendedFlags {M : Type} (size : DataSize) (srcData destData sum : BitVec 32) :
    CpuM M Unit := do
  let result : BitVec 64 := sum.setWidth 64
  if !isZero result size then
    setFlag .zero false
  setFlag .extend (isCarry result size)
  setFlag .negative (isNegative result size)
  setFlag .overflow (isOverflow srcData destData size)
  setFlag .carry (isCarry result size)

/-- What these lines leave. -/
structure ExtendedFlags (size : DataSize) (src dest sum : BitVec 32) (s t : CPUState BaseMemory) :
    Prop where
  memory : t.memory = s.memory
  reg : ∀ r, Named r → t.reg r = s.reg r
  extend : t.registers.getFlag .extend = decide (2 ^ size.bits ≤ sum.toNat)
  carry : t.registers.getFlag .carry = decide (2 ^ size.bits ≤ sum.toNat)
  overflow : t.registers.getFlag .overflow = (src.setWidth size.bits).saddOverflow
    (dest.setWidth size.bits)
  zero : t.registers.getFlag .zero =
    (s.registers.getFlag .zero && decide (sum.setWidth size.bits = 0))

/-- The four flags that are always set, from a state whose `Z` is already decided. -/
theorem extendedFlags_of_withFlags {s₁ : CPUState BaseMemory} (hmem : s₁.memory = s.memory)
    (hreg : ∀ r, Named r → s₁.reg r = s.reg r)
    (hzero : s₁.registers.getFlag .zero =
      (s.registers.getFlag .zero && decide (sum.setWidth size.bits = 0))) :
    ExtendedFlags size src dest sum s
      ((((s₁.withFlag .extend (isCarry (sum.setWidth 64) size)).withFlag .negative
        (isNegative (sum.setWidth 64) size)).withFlag .overflow (isOverflow src dest size)).withFlag
          .carry (isCarry (sum.setWidth 64) size)) := by
  refine ⟨hmem, fun r hr => ?_, ?_, ?_, ?_, ?_⟩
  · rw [CPUState.reg_withFlag (by decide) hr, CPUState.reg_withFlag (by decide) hr,
      CPUState.reg_withFlag (by decide) hr, CPUState.reg_withFlag (by decide) hr, hreg r hr]
  all_goals
    simp only [CPUState.withFlag, getFlag_setFlag, isOverflow_eq, isCarry_eq]
    simp [hzero]

theorem extendedFlags_of_eq_ok (h : setExtendedFlags size src dest sum s = .ok u t) :
    ExtendedFlags size src dest sum s t := by
  have hisZero : isZero (sum.setWidth 64) size = decide (sum.setWidth size.bits = 0) :=
    isZero_eq sum size
  by_cases hz : sum.setWidth size.bits = 0
  · rw [decide_eq_true hz] at hisZero
    simp [setExtendedFlags, hisZero] at h
    subst h
    exact extendedFlags_of_withFlags rfl (fun _ _ => rfl) (by rw [decide_eq_true hz, Bool.and_true])
  · rw [decide_eq_false hz] at hisZero
    simp [setExtendedFlags, hisZero] at h
    subst h
    have hclear : (s.withFlag .zero false).registers.getFlag .zero =
        (s.registers.getFlag .zero && decide (sum.setWidth size.bits = 0)) := by
      rw [decide_eq_false hz, Bool.and_false, CPUState.withFlag, getFlag_setFlag, if_pos rfl]
    exact extendedFlags_of_withFlags rfl (fun r hr => CPUState.reg_withFlag (by decide) hr) hclear

end Flags

/-! ### The instructions -/

section Instructions

variable {s t : CPUState BaseMemory} {u : Unit} {f : TwoOperand}
    {op : BitVec 32 → BitVec 32 → BitVec 32 → BitVec 32}

theorem extendedArithmetic_eq {M : Type} [IMemory M] (A : Accessors M) (f : TwoOperand)
    (op : BitVec 32 → BitVec 32 → BitVec 32 → BitVec 32) :
    extendedArithmetic A f op = (do
      skipOpcode
      let dataSize ← readSize f.dataSize
      let extend ← getFlag .extend
      let srcData ← A.getData f.srcMode f.srcReg dataSize
      let destData ← A.getDataSilent f.destMode f.destReg dataSize
      let sum := op srcData destData (if extend then 1 else 0)
      A.setData f.destMode f.destReg dataSize sum
      setExtendedFlags dataSize srcData destData sum) := rfl

theorem getFlag_withReg {r : ℕ} (hr : Named r) (v : BitVec 32) (flag : StatusRegisterFlag) :
    (s.withReg r v).registers.getFlag flag = s.registers.getFlag flag := by
  rw [Registers.getFlag, CPUState.status_withReg hr, Registers.getFlag]

theorem extendedArithmetic_eq_ok (hf : f.Valid)
    (h : extendedArithmetic .cpuState f op s = .ok u t) :
    ∃ size src dest s₁ s₂, ReadModifyWritten (fetchSource .cpuState f) f.toOneOperand
        (fun src dest => op src dest s.extendData) size src dest s s₁ s₂ ∧
      ExtendedFlags size src dest (op src dest s.extendData) s₂ t := by
  obtain ⟨size, hsize⟩ := Option.isSome_iff_exists.1 hf.sized
  rw [extendedArithmetic_eq, bind_of_ok (skipOpcode_apply s), hsize, readSize, pure_bind] at h
  obtain ⟨extend, s₀, hextend, h⟩ := bind_eq_ok.1 h
  obtain ⟨src, s₁, hsrc, h⟩ := bind_eq_ok.1 h
  obtain ⟨dest, s₁', hdest, h⟩ := bind_eq_ok.1 h
  obtain ⟨_, s₂, hset, hflags⟩ := bind_eq_ok.1 h
  obtain ⟨rfl, rfl⟩ := EStateM.Result.ok.inj hextend
  rw [getFlag_withReg named_regPC] at hset hflags
  exact ⟨size, src, dest, s₁, s₂,
    readModifyWritten_of_eq_ok hf.toValid (operandFetch_getData hf.src) hsize hsrc hdest hset,
    extendedFlags_of_eq_ok hflags⟩

end Instructions

/-! ### Overflow -/

namespace Derived

/-- `ADDX` and `SUBX`. -/
def IsExtended : Derived → Prop
  | .addx _ | .subx _ => True
  | _ => False

/-- The numbers that the instruction combines. -/
def extendedOperands : Derived → CpuM BaseMemory ArithmeticOperands
  | .addx f | .subx f => arithmeticOperands (fetchSource .cpuState f) f.toOneOperand
  | _ => throw .invalidOpcode

/-- The signed number that the instruction computes, with the extend bit `x`. -/
def extendedValue (d : Derived) (o : ArithmeticOperands) (x : ℤ) : ℤ :=
  match d with
  | .subx _ => o.dest.toInt - o.src.toInt - x
  | _ => o.src.toInt + o.dest.toInt + x

/-- The operands for which the overflow of the code is right. -/
def OverflowFaithful (d : Derived) (o : ArithmeticOperands) (x : ℤ) : Prop :=
  match d with
  | .subx _ => InSignedRange o.size.bits (o.src.toInt + o.dest.toInt) ∧
      InSignedRange o.size.bits (o.dest.toInt - o.src.toInt - x)
  | _ => x = 0 ∨ (o.src.toInt + o.dest.toInt ≠ 2 ^ (o.size.bits - 1) - 1 ∧
      o.src.toInt + o.dest.toInt ≠ -2 ^ (o.size.bits - 1) - 1)

end Derived

/-- After `ADDX` and `SUBX`, `V` is the overflow of the sum or difference with the extend bit
exactly when that bit is clear or the sum not at the edge of the signed range, for `ADDX`;
and when neither the sum of the operands nor the difference with the extend bit leaves the
signed range, for `SUBX`. -/
theorem extended_overflow_iff (opcode : BitVec 16) (hext : (decode opcode).derived.IsExtended)
    (s t : CPUState BaseMemory) (u : Unit)
    (h : (decode opcode).derived.execute .cpuState s = .ok u t) :
    ∃ o s₁, (decode opcode).derived.extendedOperands s = .ok o s₁ ∧ DataKept s s₁ ∧
      ((t.registers.getFlag .overflow = true ↔
          ¬InSignedRange o.size.bits ((decode opcode).derived.extendedValue o s.extendData.toNat)) ↔
        (decode opcode).derived.OverflowFaithful o s.extendData.toNat) := by
  have hvalid := valid_decode opcode
  have hbit : (s.extendData.toNat : ℤ) = 0 ∨ (s.extendData.toNat : ℤ) = 1 := by
    have := extendData_cases s
    omega
  rcases hd : (decode opcode).derived <;> rw [hd] at hext h hvalid
  case addx f =>
    obtain ⟨size, src, dest, s₁, s₂, hrun, hflags⟩ := extendedArithmetic_eq_ok hvalid h
    refine ⟨_, s₁, hrun.operands, hrun.kept, ?_⟩
    rw [hflags.overflow]
    exact saddOverflow_carry_iff _ _ hbit
  case subx f =>
    obtain ⟨size, src, dest, s₁, s₂, hrun, hflags⟩ := extendedArithmetic_eq_ok hvalid h
    refine ⟨_, s₁, hrun.operands, hrun.kept, ?_⟩
    rw [hflags.overflow]
    exact saddOverflow_borrow_iff _ _ hbit
  all_goals exact hext.elim

/-- The object of `addx.b D1, D0`. -/
theorem decode_addx_byte : (decode 0xD101).derived =
    .addx { destMode := .directData, destReg := 0, dataSize := some .byte, srcMode := .directData,
            srcReg := 1 } := by
  rw [decode_eq_opcodeEntry]
  rfl

/-- `addx.b D1, D0` with `0x7F` and 0 in the registers and `X` set leaves `V` clear. -/
theorem extended_edge_misses_overflow :
    let s := CPUState.simple [0xD1, 0x01] fun i => if i = 1 then 0x7F
        else if i = regSR then 0x10 else 0
    ∃ t s₁, (decode 0xD101).derived.execute .cpuState s = .ok () t ∧
      (decode 0xD101).derived.extendedOperands s = .ok ⟨.byte, 0x7F, 0, .directData, 0⟩ s₁ ∧
      ¬(t.registers.getFlag .overflow = true ↔
        ¬InSignedRange 8 ((decode 0xD101).derived.extendedValue ⟨.byte, 0x7F, 0, .directData, 0⟩
          s.extendData.toNat)) := by
  rw [decode_addx_byte]
  refine ⟨_, _, rfl, rfl, fun h => ?_⟩
  have hover := h.2 (by decide)
  cases hover

/-- `addx.b D1, D0` with `0x7F` and 1 in the registers and `X` set overflows, and sets `V`. -/
theorem extended_sum_sets_overflow :
    ∃ t, (decode 0xD101).derived.execute .cpuState (CPUState.simple [0xD1, 0x01]
        fun i => if i = 0 then 1 else if i = 1 then 0x7F else if i = regSR then 0x10
          else 0) = .ok () t ∧
      t.registers.getFlag .overflow = true := by
  obtain ⟨t, ht⟩ : ∃ t, (decode 0xD101).derived.execute .cpuState (CPUState.simple [0xD1, 0x01]
      fun i => if i = 0 then 1 else if i = 1 then 0x7F else if i = regSR then 0x10 else 0) =
      .ok () t := by
    rw [decode_addx_byte]
    exact ⟨_, rfl⟩
  obtain ⟨o, s₁, ho, -, hover⟩ :=
    extended_overflow_iff 0xD101 (by rw [decode_addx_byte]; trivial) _ t () ht
  rw [decode_addx_byte] at ho hover
  obtain ⟨rfl, -⟩ := EStateM.Result.ok.inj ho
  exact ⟨t, ht, (hover.2 (.inr (by decide))).2 (by decide)⟩

end M68kEmu
