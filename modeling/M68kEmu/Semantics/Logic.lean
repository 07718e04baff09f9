import M68kEmu.Semantics.Arithmetic

/-!
# The logic and move family

`AND`, `OR`, `EOR` with their immediate forms, `CLR`, `TST` and `MOVE` set the same flags: `N` and
`Z` from a result of the size of the operands, `V` and `C` clear, and no other bit of the status
register.  `ResultFlags` says so of any state, and is what the products, quotients and sign
extensions are stated with as well.
-/

namespace M68kEmu

open Outcome

/-! ### The flags of a result -/

/-- The bits `N`, `Z`, `V` and `C` of the status register. -/
def codeBits : BitVec 32 := 0xF

/-- The flags in `t` are those of the result, and the other bits of the status
register are those of `s`. -/
structure ResultFlags {w : ℕ} (result : BitVec w) (s t : CPUState BaseMemory) : Prop where
  negative : t.registers.getFlag .negative = result.msb
  zero : t.registers.getFlag .zero = decide (result = 0)
  overflow : t.registers.getFlag .overflow = false
  carry : t.registers.getFlag .carry = false
  others : t.registers.regBuffer regSR &&& ~~~codeBits = s.registers.regBuffer regSR &&& ~~~codeBits

/-- The state after the assignments of `N` and `Z` that clear `V` and `C`. -/
def CPUState.withResultFlags (s : CPUState BaseMemory) (negative zero : Bool) :
    CPUState BaseMemory :=
  (((s.withFlag .negative negative).withFlag .zero zero).withFlag
    .overflow false).withFlag .carry false

section Flags

variable {s t : CPUState BaseMemory} {size : DataSize} {negative zero : Bool}

@[simp] theorem memory_withResultFlags : (s.withResultFlags negative zero).memory = s.memory := rfl

theorem reg_withResultFlags {r : ℕ} (hr : Named r) :
    (s.withResultFlags negative zero).reg r = s.reg r := by
  unfold CPUState.withResultFlags
  rw [CPUState.reg_withFlag (by decide) hr, CPUState.reg_withFlag (by decide) hr,
    CPUState.reg_withFlag (by decide) hr, CPUState.reg_withFlag (by decide) hr]

theorem resultFlags_withResultFlags {w : ℕ} {result : BitVec w} (hnegative : negative = result.msb)
    (hzero : zero = decide (result = 0)) :
    ResultFlags result s (s.withResultFlags negative zero) := by
  have hassign (v : CPUState BaseMemory) (flag : StatusRegisterFlag) (b : Bool)
      (h : flag.mask &&& ~~~codeBits = 0) : (v.withFlag flag b).registers.regBuffer regSR &&&
      ~~~codeBits = v.registers.regBuffer regSR &&& ~~~codeBits :=
    assign_and h b
  refine ⟨?_, ?_, ?_, ?_, ?_⟩ <;> unfold CPUState.withResultFlags
  · rw [← hnegative]
    simp [CPUState.withFlag, getFlag_setFlag]
  · rw [← hzero]
    simp [CPUState.withFlag, getFlag_setFlag]
  · simp [CPUState.withFlag, getFlag_setFlag]
  · simp [CPUState.withFlag, getFlag_setFlag]
  · rw [hassign _ .carry _ (by decide), hassign _ .overflow _ (by decide),
      hassign _ .zero _ (by decide), hassign _ .negative _ (by decide)]

/-- The flags of a result, counted from an earlier state with the same status register. -/
theorem ResultFlags.of_status {w : ℕ} {result : BitVec w} {s₁ : CPUState BaseMemory}
    (h : ResultFlags result s₁ t)
    (hs : s₁.registers.regBuffer regSR = s.registers.regBuffer regSR) : ResultFlags result s t :=
  ⟨h.negative, h.zero, h.overflow, h.carry, by rw [h.others, hs]⟩

/-- The state after a long store to a register and the flags. -/
def CPUState.moved (s : CPUState BaseMemory) (r : ℕ) (v : BitVec 32) (negative zero : Bool) :
    CPUState BaseMemory :=
  (s.withReg r v).withResultFlags negative zero

theorem reg_moved_self {r : ℕ} (hr : Named r) (v : BitVec 32) :
    (s.moved r v negative zero).reg r = v := by
  rw [CPUState.moved, reg_withResultFlags hr, CPUState.reg_withReg_self hr]

/-- The flags after the store, from a state with the status register of `s`. -/
theorem resultFlags_moved {s₁ : CPUState BaseMemory}
    (hs : s₁.registers.regBuffer regSR = s.registers.regBuffer regSR)
    {r : ℕ} (hr : Named r) (v : BitVec 32) {w : ℕ} {result : BitVec w}
    (hnegative : negative = result.msb)
    (hzero : zero = decide (result = 0)) : ResultFlags result s (s₁.moved r v negative zero) := by
  refine (resultFlags_withResultFlags hnegative hzero).of_status ?_
  rw [CPUState.status_withReg hr, hs]

theorem setLogicFlags_apply (size : DataSize) (v : BitVec 32) (s : CPUState BaseMemory) :
    setLogicFlags size v s = .ok () (s.withResultFlags (isNegative v size) (isZero v size)) := rfl

theorem setResultFlags_apply (size : DataSize) (src dest v : BitVec 32) (s : CPUState BaseMemory) :
    setResultFlags size src dest v s =
    .ok () (s.withResultFlags (isNegative v size) (isZero v size)) := by
  rw [isNegative_eq_msb, isZero_eq_decide, ← isNegative_eq, ← isZero_eq]
  rfl

/-- The flags that the tests of `helpers.hpp` give. -/
theorem resultFlags_of_tests (size : DataSize) (v : BitVec 32) (s : CPUState BaseMemory) :
    ResultFlags (v.setWidth size.bits) s (s.withResultFlags (isNegative v size) (isZero v size)) :=
  resultFlags_withResultFlags (isNegative_eq_msb v size) (isZero_eq_decide v size)

end Flags

/-! ### Operands and results -/

/-- The operand of `TST`, which is its own destination. -/
def testOperand (f : OneOperand) : CpuM BaseMemory ArithmeticOperands := do
  skipOpcode
  let size ← readSize f.dataSize
  let data ← CPUState.getData f.destMode f.destReg size
  return ⟨size, data.setWidth size.bits, data.setWidth size.bits, f.destMode, f.destReg⟩

namespace Derived

/-- The logic instructions, and `MOVE` to anything but an address register. -/
def IsLogic : Derived → Prop
  | .and _ | .andi _ | .or _ | .ori _ | .eor _ | .eori _ | .clr _ | .tst _ => True
  | .move f => f.destMode ≠ .directAddr
  | _ => False

/-- The operands of the instruction. -/
def logicOperands : Derived → CpuM BaseMemory ArithmeticOperands
  | .and f | .or f | .eor f => arithmeticOperands (fetchSource .cpuState f) f.toOneOperand
  | .andi f | .ori f | .eori f => arithmeticOperands (fetchImmediate .cpuState) f
  | .move f => arithmeticOperands (fetchSource .cpuState f.toTwoOperand) f.toOneOperand
  | .clr f => arithmeticOperands (fun _ => pure 0) f
  | .tst f => testOperand f
  | _ => throw .invalidOpcode

/-- The number that the flags are set from. -/
def logicResult (d : Derived) (o : ArithmeticOperands) : BitVec o.size.bits :=
  match d with
  | .and _ | .andi _ => o.src &&& o.dest
  | .or _ | .ori _ => o.src ||| o.dest
  | .eor _ | .eori _ => o.src ^^^ o.dest
  | .clr _ => 0
  | _ => o.src

/-- What becomes of the destination: it holds the result, and nothing around it has changed.  `TST`
changes no memory and no register operand. -/
def LeavesResult (d : Derived) (o : ArithmeticOperands) (s s₁ t : CPUState BaseMemory) : Prop :=
  match d with
  | .tst _ =>
    t.memory = s.memory ∧ (o.mode = .directData ∨ o.mode = .directAddr → t.reg o.reg = s.reg o.reg)
  | d => ((s₁.locate o.mode o.reg o.size).value t o.size).toNat = (d.logicResult o).toNat ∧
      (s₁.locate o.mode o.reg o.size).Around o.size s₁ t

end Derived

/-- The destination of a store, after the flags have been set. -/
theorem stored_of_rewritten {mode : AddressingMode} {reg : ℕ} {size : DataSize} {w : BitVec 32}
    {s₁ s₂ : CPUState BaseMemory} (hreg : reg < 16)
    (h : Rewritten mode reg size w s₁ s₂ (s₁.locate mode reg size)) (negative zero : Bool) :
    ((s₁.locate mode reg size).value (s₂.withResultFlags negative zero) size).toNat =
    (w.setWidth size.bits).toNat ∧
      (s₁.locate mode reg size).Around size s₁ (s₂.withResultFlags negative zero) := by
  have hloc (r : ℕ) : s₁.locate mode reg size = .register r → Named r := named_of_locate hreg r
  constructor
  · have hkept : (s₁.locate mode reg size).value (s₂.withResultFlags negative zero) size =
        (s₁.locate mode reg size).value s₂ size :=
      Location.value_congr hloc rfl fun r hr => reg_withResultFlags hr
    rw [hkept, h.value, BitVec.toNat_setWidth]
  · exact h.around.congr hloc rfl fun r hr => reg_withResultFlags hr

/-! ### The classes -/

section Classes

variable {s t : CPUState BaseMemory} {u : Unit}

/-- A logic instruction with a source, whose operation `op` on the low bits is `result`. -/
theorem logic_of_readModifyWrite {f : OneOperand} (hf : f.Valid)
    {fetch : DataSize → CpuM BaseMemory (BitVec 32)}
    (hfetch : OperandFetch fetch) {op : BitVec 32 → BitVec 32 → BitVec 32}
    (result : (o : ArithmeticOperands) → BitVec o.size.bits)
    (hresult : ∀ size src dest, (op src dest).setWidth size.bits =
      result ⟨size, src.setWidth size.bits, dest.setWidth size.bits, f.destMode, f.destReg⟩)
    (h : readModifyWrite .cpuState fetch f op setResultFlags s = .ok u t) :
    ∃ o s₁, arithmeticOperands fetch f s = .ok o s₁ ∧ DataKept s s₁ ∧
      (((s₁.locate o.mode o.reg o.size).value t o.size).toNat = (result o).toNat ∧
        (s₁.locate o.mode o.reg o.size).Around o.size s₁ t) ∧
      ResultFlags (result o) s t := by
  obtain ⟨size, src, dest, s₁, s₂, hrun, hstatus, hflags⟩ := readModifyWrite_eq_ok hf hfetch h
  rw [setResultFlags_apply] at hflags
  obtain ⟨-, rfl⟩ := EStateM.Result.ok.inj hflags
  refine ⟨_, s₁, hrun.operands, hrun.kept, ?_, ?_⟩ <;> rw [← hresult]
  · exact stored_of_rewritten hf.dest.lt hrun.rewritten _ _
  · exact (resultFlags_of_tests size _ s₂).of_status hstatus

/-- A store of the source itself: `MOVE` and `CLR`. -/
theorem logic_of_store {f : OneOperand} (hf : f.Valid)
    {fetch : DataSize → CpuM BaseMemory (BitVec 32)} (hfetch : OperandFetch fetch) {size : DataSize}
    (hsize : f.dataSize = some size) {src : BitVec 32} {s₁ s₂ : CPUState BaseMemory}
    (hsrc : fetch size (s.withReg regPC (s.reg regPC + 2)) = .ok src s₁)
    (hset : CPUState.setData f.destMode f.destReg size src s₁ = .ok u s₂) {negative zero : Bool}
    (hnegative : negative = (src.setWidth size.bits).msb)
    (hzero : zero = decide (src.setWidth size.bits = 0)) :
    ∃ dest : BitVec 32, arithmeticOperands fetch f s =
        .ok ⟨size, src.setWidth size.bits, dest.setWidth size.bits, f.destMode, f.destReg⟩ s₁ ∧
        DataKept s s₁ ∧
      (((s₁.locate f.destMode f.destReg size).value (s₂.withResultFlags negative zero) size).toNat =
          (src.setWidth size.bits).toNat ∧
        (s₁.locate f.destMode f.destReg size).Around size s₁ (s₂.withResultFlags negative zero)) ∧
      ResultFlags (src.setWidth size.bits) s (s₂.withResultFlags negative zero) := by
  have hfits := (setData_eq_ok hf.dest.lt hf.alterable).1 hset
  have hdest := (getDataSilent_eq_ok hf.dest.lt hf.alterable).2 ⟨hfits.1, hfits.2.1, rfl, rfl⟩
  have hrun : ReadModifyWritten fetch f (fun src _ => src) size src _ s s₁ s₂ :=
    readModifyWritten_of_eq_ok hf hfetch hsize hsrc hdest hset
  have hstatus := (status_of_setData hf.dest.lt hf.alterable hset).trans hrun.kept.status
  exact ⟨_, hrun.operands, hrun.kept, stored_of_rewritten hf.dest.lt hrun.rewritten _ _,
    (resultFlags_withResultFlags hnegative hzero).of_status hstatus⟩

/-- `TST`. -/
theorem logic_of_tst {f : OneOperand} (hf : ValidOperand f.destMode f.destReg ∧ f.dataSize.isSome)
    (h : Tst.execute .cpuState f s = .ok u t) :
    ∃ (size : DataSize) (data : BitVec 32) (s₁ : CPUState BaseMemory), testOperand f s =
        .ok ⟨size, data.setWidth size.bits, data.setWidth size.bits, f.destMode, f.destReg⟩ s₁ ∧
        DataKept s s₁ ∧
      (t.memory = s.memory ∧
        (f.destMode = .directData ∨ f.destMode = .directAddr → t.reg f.destReg = s.reg f.destReg)) ∧
      ResultFlags (data.setWidth size.bits) s t := by
  obtain ⟨size, hsize⟩ := Option.isSome_iff_exists.1 hf.2
  rw [Tst.execute, bind_of_ok (skipOpcode_apply s), hsize, readSize, pure_bind] at h
  obtain ⟨data, s₁, hdata, h⟩ := bind_eq_ok.1 h
  rw [setLogicFlags_apply] at h
  obtain ⟨-, rfl⟩ := EStateM.Result.ok.inj h
  have hdata' : CPUState.getData f.destMode f.destReg size (s.withReg regPC (s.reg regPC + 2)) =
      .ok data s₁ := hdata
  have hkept := dataKept_of_fetch (operandFetch_getData hf.1) hdata'
  have hreg : Named f.destReg := named_of_lt hf.1.lt
  refine ⟨size, data, s₁, ?_, hkept, ⟨hkept.memory, fun hdirect => ?_⟩,
    (resultFlags_of_tests size data s₁).of_status hkept.status⟩
  · rw [testOperand, bind_of_ok (skipOpcode_apply s), hsize, readSize, pure_bind, bind_of_ok hdata']
    rfl
  · have hread : (CPUState.getData f.destMode f.destReg size : CpuM BaseMemory _) =
        getReg f.destReg size := by
      obtain hmode | hmode := hdirect <;> rw [hmode] <;> rfl
    rw [hread, getReg_apply hreg] at hdata'
    obtain ⟨-, rfl⟩ := EStateM.Result.ok.inj hdata'
    rw [reg_withResultFlags hreg, CPUState.reg_withReg_of_ne named_regPC hreg
      (ne_regPC_of_lt hf.1.lt)]

/-- `MOVE` to anything but an address register. -/
theorem move_eq_ok {f : MoveOperand} (hf : f.toTwoOperand.Valid) (hmove : f.isMovea = false)
    (h : Move.execute .cpuState f s = .ok u t) :
    ∃ (size : DataSize) (src : BitVec 32) (s₁ s₂ : CPUState BaseMemory), f.dataSize = some size ∧
      CPUState.getData f.srcMode f.srcReg size (s.withReg regPC (s.reg regPC + 2)) = .ok src s₁ ∧
      CPUState.setData f.destMode f.destReg size src s₁ = .ok () s₂ ∧
      t = s₂.withResultFlags (isNegative src size) (src == 0) := by
  obtain ⟨size, hsize⟩ := Option.isSome_iff_exists.1 hf.sized
  rw [Move.execute, bind_of_ok (skipOpcode_apply s), hsize, readSize, pure_bind] at h
  obtain ⟨src, s₁, hsrc, h⟩ := bind_eq_ok.1 h
  rw [if_neg (by rw [hmove]; decide)] at h
  obtain ⟨_, s₂, hset, h⟩ := bind_eq_ok.1 h
  obtain ⟨-, rfl⟩ := EStateM.Result.ok.inj h
  exact ⟨size, src, s₁, s₂, hsize, hsrc, hset, rfl⟩

/-- `CLR`. -/
theorem clr_eq_ok {f : OneOperand} (hf : f.Valid) (h : Clr.execute .cpuState f s = .ok u t) :
    ∃ (size : DataSize) (s₂ : CPUState BaseMemory), f.dataSize = some size ∧
      CPUState.setData f.destMode f.destReg size 0 (s.withReg regPC (s.reg regPC + 2)) = .ok () s₂ ∧
      t = s₂.withResultFlags false true := by
  obtain ⟨size, hsize⟩ := Option.isSome_iff_exists.1 hf.sized
  rw [Clr.execute, bind_of_ok (skipOpcode_apply s), hsize, readSize, pure_bind] at h
  obtain ⟨_, s₂, hset, h⟩ := bind_eq_ok.1 h
  obtain ⟨-, rfl⟩ := EStateM.Result.ok.inj h
  exact ⟨size, s₂, hsize, hset, rfl⟩

end Classes

/-- After `AND`, `OR`, `EOR`, their immediate forms, `CLR` and `MOVE`, the destination holds the
result and everything around it is as before; after `TST` all operands are.  `N` and `Z` are those
of the result, `V` and `C` are clear, and the other bits of the status register have not changed. -/
theorem logic_sets_result (opcode : BitVec 16) (hlogic : (decode opcode).derived.IsLogic)
    (s t : CPUState BaseMemory)
    (u : Unit) (h : (decode opcode).derived.execute .cpuState s = .ok u t) :
    ∃ o s₁, (decode opcode).derived.logicOperands s = .ok o s₁ ∧ DataKept s s₁ ∧
      (decode opcode).derived.LeavesResult o s s₁ t ∧
      ResultFlags ((decode opcode).derived.logicResult o) s t := by
  have hvalid := valid_decode opcode
  rcases hd : (decode opcode).derived <;> rw [hd] at hlogic h hvalid
  case and f =>
    have hf : f.Valid := hvalid
    exact logic_of_readModifyWrite hf.toValid (operandFetch_getData hf.src)
      (Derived.and f).logicResult (fun _ _ _ => BitVec.setWidth_and) h
  case andi f =>
    exact logic_of_readModifyWrite hvalid operandFetch_fetchImmediate (Derived.andi f).logicResult
      (fun _ _ _ => BitVec.setWidth_and) h
  case or f =>
    have hf : f.Valid := hvalid
    exact logic_of_readModifyWrite hf.toValid (operandFetch_getData hf.src)
      (Derived.or f).logicResult (fun _ _ _ => BitVec.setWidth_or.trans (BitVec.or_comm _ _)) h
  case ori f =>
    exact logic_of_readModifyWrite hvalid operandFetch_fetchImmediate (Derived.ori f).logicResult
      (fun _ _ _ => BitVec.setWidth_or.trans (BitVec.or_comm _ _)) h
  case eor f =>
    have hf : f.Valid := hvalid
    exact logic_of_readModifyWrite hf.toValid (operandFetch_getData hf.src)
      (Derived.eor f).logicResult (fun _ _ _ => BitVec.setWidth_xor.trans (BitVec.xor_comm _ _)) h
  case eori f =>
    exact logic_of_readModifyWrite hvalid operandFetch_fetchImmediate (Derived.eori f).logicResult
      (fun _ _ _ => BitVec.setWidth_xor.trans (BitVec.xor_comm _ _)) h
  case clr f =>
    obtain ⟨size, s₂, hsize, hset, rfl⟩ := clr_eq_ok hvalid h
    have hresult : (0 : BitVec 32).setWidth size.bits = 0 := BitVec.setWidth_zero _ _
    have hnegative : false = ((0 : BitVec 32).setWidth size.bits).msb := by
      rw [hresult]; exact BitVec.msb_zero.symm
    obtain ⟨dest, hoperands, hkept, hleaves, hflags⟩ :=
      logic_of_store hvalid (operandFetch_pure (by decide)) hsize rfl hset hnegative
        (decide_eq_true hresult).symm
    rw [hresult] at hleaves hflags
    exact ⟨_, _, hoperands, hkept, hleaves, hflags⟩
  case move f =>
    have hf : f.toTwoOperand.Valid := hvalid.1
    have hmove : f.isMovea = false := Bool.eq_false_iff.2 fun hmovea => hlogic (hvalid.2.1 hmovea)
    obtain ⟨size, src, s₁, s₂, hsize, hsrc, hset, rfl⟩ := move_eq_ok hf hmove h
    -- `Z` is set from all 32 bits, of which those above the size are clear
    have hzero : (src == 0) = decide (src.setWidth size.bits = 0) := by
      rw [Bool.eq_iff_iff, beq_iff_eq, decide_eq_true_eq, ← BitVec.toNat_inj, ← BitVec.toNat_inj,
        toNat_setWidth_of_lt (getData_lt hsrc)]
      rfl
    obtain ⟨dest, hoperands, hkept, hleaves, hflags⟩ :=
      logic_of_store hf.toValid (operandFetch_getData hf.src) hsize hsrc hset
        (isNegative_eq_msb src size) hzero
    exact ⟨_, s₁, hoperands, hkept, hleaves, hflags⟩
  case tst f =>
    obtain ⟨size, data, s₁, hoperands, hkept, hleaves, hflags⟩ := logic_of_tst hvalid h
    exact ⟨_, s₁, hoperands, hkept, hleaves, hflags⟩
  all_goals exact hlogic.elim

/-- The object of `and.b D1, D0`. -/
theorem decode_and_byte : (decode 0xC001).derived =
    .and { destMode := .directData, destReg := 0, dataSize := some .byte, srcMode := .directData,
           srcReg := 1 } := by
  rw [decode_eq_opcodeEntry]
  rfl

/-- `and.b D1, D0` with `0x0F` and `0x1234` in the registers leaves `0x1204` in `D0`. -/
theorem and_byte_sets_result :
    ∃ t s₁, (decode 0xC001).derived.execute .cpuState
        (CPUState.simple [0xC0, 0x01] fun i => if i = 0 then 0x1234 else if i = 1 then 0x0F
          else 0) = .ok () t ∧
      t.reg 0 = 0x1204 ∧ (decode 0xC001).derived.LeavesResult ⟨.byte, 0x0F, 0x34, .directData, 0⟩
        (CPUState.simple [0xC0, 0x01] fun i => if i = 0 then 0x1234 else if i = 1 then 0x0F
          else 0) s₁ t := by
  obtain ⟨t, ht, hreg⟩ : ∃ t, (decode 0xC001).derived.execute .cpuState
      (CPUState.simple [0xC0, 0x01] fun i => if i = 0 then 0x1234 else if i = 1 then 0x0F else 0) =
      .ok () t ∧ t.reg 0 = 0x1204 := by
    rw [decode_and_byte]
    exact ⟨_, rfl, by decide⟩
  obtain ⟨o, s₁, ho, -, hleaves, -⟩ :=
    logic_sets_result 0xC001 (by rw [decode_and_byte]; trivial) _ t () ht
  rw [decode_and_byte] at ho
  obtain ⟨rfl, -⟩ := EStateM.Result.ok.inj ho
  exact ⟨t, s₁, ht, hreg, hleaves⟩

end M68kEmu
