import M68kEmu.Decode.MemoryShift
import M68kEmu.Decode.Reserved
import Mathlib.Tactic.IntervalCases

/-!
# From objects back to opcodes

`Derived.encode` puts the fields of an object back into an opcode.  The decoder forgets some bits of
an opcode; `canonical` clears them, or picks the other of two forms with the same object.  The two
agree on what is decoded (`encode_decode`), and the decoder does not tell an opcode from its
canonical form (`decode_canonical`).
-/

namespace M68kEmu

open MaskTable

/-! ### The fields of an opcode -/

/-- The field that `getAddressingMode` reads. -/
def modePart : AddressingMode → BitVec 16
  | .directData => 0
  | .directAddr => 1
  | .indirect => 2
  | .indirectPostincrement => 3
  | .indirectPredecrement => 4
  | .indirectDisplacement => 5
  | .indirectIndex => 6
  | .absWord | .absLong | .pcDisplacement | .pcIndex | .immediate | .unknown => 7

/-- The number of a register in its bank of eight; for the modes that have no register,
the number of the mode. -/
def regPart (reg : ℕ) : BitVec 16 := BitVec.ofNat 16 reg &&& 0x7

/-- The six bits of an effective address. -/
def eaPart (mode : AddressingMode) (reg : ℕ) : BitVec 16 := modePart mode <<< 3 ||| regPart reg

/-- The field that `sizeOfPart` reads. -/
def sizePart : Option DataSize → BitVec 16
  | some .byte => 0
  | some .word => 1
  | some .long => 2
  | none => 3

/-- The size field of `MOVE`. -/
def moveSizePart : Option DataSize → BitVec 16
  | some .byte => 1
  | some .long => 2
  | some .word => 3
  | none => 0

/-- The field that `getCondition` reads. -/
def conditionPart : Condition → BitVec 16
  | .true => 0
  | .false => 1
  | .higher => 2
  | .lowerSame => 3
  | .carryClear => 4
  | .carrySet => 5
  | .notEqual => 6
  | .equal => 7
  | .overflowClear => 8
  | .overflowSet => 9
  | .plus => 10
  | .minus => 11
  | .greaterEqual => 12
  | .lessThan => 13
  | .greaterThan => 14
  | .lessEqual => 15

/-- The field that `BitManipType.ofPart` reads. -/
def BitManipType.part : BitManipType → BitVec 16
  | .btst => 0
  | .bchg => 1
  | .bclr => 2
  | .bset => 3

/-- A field of one bit. -/
def flagPart (b : Bool) : BitVec 16 := if b then 1 else 0

section Parts

variable (part partReg partMode : BitVec 16)

/-- What holds of all values of a field holds of the field of every word. -/
theorem and_induction {P : BitVec 16 → Prop} (part mask : BitVec 16)
    (h : ∀ n ≤ mask.toNat, P (BitVec.ofNat 16 n)) : P (part &&& mask) := by
  obtain ⟨n, hn, hpart⟩ := and_eq_or part mask
  rw [hpart]
  exact h n hn

theorem regPart_getRegisterType :
    regPart (getRegisterType partMode (part &&& 0x7)) = part &&& 0x7 := by
  unfold getRegisterType
  split_ifs
  · exact and_induction (P := fun p => regPart p.toNat = p) part 0x7 (by decide)
  · exact and_induction (P := fun p => regPart (p.toNat + 8) = p) part 0x7 (by decide)

theorem modePart_getAddressingMode :
    modePart (getAddressingMode (part &&& 0x7) partReg) = part &&& 0x7 := by
  have hle := toNat_field_le part
  have hmode : (modePart (getAddressingMode (part &&& 0x7) partReg)).toNat =
      (part &&& 0x7).toNat := by
    rw [getAddressingMode]
    grind [modePart]
  exact BitVec.eq_of_toNat_eq hmode

theorem sizePart_sizeOfPart : sizePart (sizeOfPart (part &&& 0x3)) = part &&& 0x3 :=
  and_induction (P := fun p => sizePart (sizeOfPart p) = p) part 0x3 (by decide)

theorem conditionPart_getCondition : conditionPart (getCondition (part &&& 0xF)) = part &&& 0xF :=
  and_induction (P := fun p => conditionPart (getCondition p) = p) part 0xF (by decide)

theorem BitManipType.part_ofPart : (BitManipType.ofPart (part &&& 0x3)).part = part &&& 0x3 :=
  and_induction (P := fun p => (BitManipType.ofPart p).part = p) part 0x3 (by decide)

theorem flagPart_ne_zero : flagPart (decide (part &&& 0x1 ≠ 0)) = part &&& 0x1 :=
  and_induction (P := fun p => flagPart (decide (p ≠ 0)) = p) part 0x1 (by decide)

theorem flagPart_eq_one : flagPart (decide (part &&& 0x1 = 1)) = part &&& 0x1 :=
  and_induction (P := fun p => flagPart (decide (p = 1)) = p) part 0x1 (by decide)

/-- The effective address of an opcode. -/
theorem eaPart_fields (opcode : BitVec 16) :
    eaPart (getAddressingMode ((opcode >>> 3) &&& 0x7) partReg)
      (getRegisterType partMode (opcode &&& 0x7)) = opcode &&& 0x3F := by
  rw [eaPart, modePart_getAddressingMode,
    regPart_getRegisterType, ← and_shiftLeft, ← BitVec.and_or_distrib_left]
  rfl

/-- The low byte of an opcode, as the constructors keep it. -/
theorem setWidth_low : ((part &&& 0xFF).setWidth 8).setWidth 16 = part &&& 0xFF := by
  apply BitVec.eq_of_toNat_eq
  have hlow : (part &&& 0xFF).toNat = part.toNat % 256 := by
    rw [BitVec.toNat_and]
    exact Nat.and_two_pow_sub_one_eq_mod part.toNat 8
  rw [BitVec.toNat_setWidth, BitVec.toNat_setWidth, hlow]
  omega

end Parts

/-! ### The opcode of an object -/

/-- The bits that all opcodes of a class share. -/
def InstructionClass.pattern : InstructionClass → Pattern 16
  | .illegal => ⟨0xFFFF, 0x4AFC⟩
  | .nop => ⟨0xFFFF, 0x4E71⟩
  | .rts => ⟨0xFFFF, 0x4E75⟩
  | .link => ⟨0xFFF8, 0x4E50⟩
  | .unlk => ⟨0xFFF8, 0x4E58⟩
  | .ext => ⟨0xFFB8, 0x4880⟩
  | .pea => ⟨0xFFC0, 0x4840⟩
  | .jsr => ⟨0xFFC0, 0x4E80⟩
  | .jmp => ⟨0xFFC0, 0x4EC0⟩
  | .ori => ⟨0xFF00, 0x0000⟩
  | .andi => ⟨0xFF00, 0x0200⟩
  | .subi => ⟨0xFF00, 0x0400⟩
  | .addi => ⟨0xFF00, 0x0600⟩
  | .eori => ⟨0xFF00, 0x0A00⟩
  | .cmpi => ⟨0xFF00, 0x0C00⟩
  | .clr => ⟨0xFF00, 0x4200⟩
  | .neg => ⟨0xFF00, 0x4400⟩
  | .tst => ⟨0xFF00, 0x4A00⟩
  | .bcc => ⟨0xF000, 0x6000⟩
  | .cmpa => ⟨0xF0C0, 0xB0C0⟩
  | .bitManip => ⟨0xF000, 0x0000⟩
  | .bitShift => ⟨0xF000, 0xE000⟩
  | .lea => ⟨0xF1C0, 0x41C0⟩
  | .div => ⟨0xF0C0, 0x80C0⟩
  | .suba => ⟨0xF0C0, 0x90C0⟩
  | .mul => ⟨0xF0C0, 0xC0C0⟩
  | .and => ⟨0xF000, 0xC000⟩
  | .adda => ⟨0xF0C0, 0xD0C0⟩
  | .addx => ⟨0xF130, 0xD100⟩
  | .scc => ⟨0xF0C0, 0x50C0⟩
  | .subx => ⟨0xF130, 0x9100⟩
  | .addq => ⟨0xF100, 0x5000⟩
  | .subq => ⟨0xF100, 0x5100⟩
  | .moveq => ⟨0xF100, 0x7000⟩
  | .eor => ⟨0xF100, 0xB100⟩
  | .cmp => ⟨0xF100, 0xB000⟩
  | .move => ⟨0xC000, 0x0000⟩
  | .or => ⟨0xF000, 0x8000⟩
  | .sub => ⟨0xF000, 0x9000⟩
  | .add => ⟨0xF000, 0xD000⟩

/-- The pattern as the table compares it, on 32 bits. -/
def InstructionClass.widePattern (cls : InstructionClass) : Pattern 32 :=
  ⟨cls.pattern.mask.setWidth 32, cls.pattern.value.setWidth 32⟩

theorem implies_pattern :
    ∀ row ∈ opcodeMaskTable, Pattern.Implies row.toPattern row.entry.widePattern := by
  decide

/-- The operand bits of the classes of `createOpMode`: a data register is a source, and the operand
a destination, under bit 8. -/
def TwoOperand.opModeFields (f : TwoOperand) : BitVec 16 :=
  if f.destMode = .directData then
    regPart f.destReg <<< 9 ||| sizePart f.dataSize <<< 6 ||| eaPart f.srcMode f.srcReg
  else (0x100 : BitVec 16) ||| regPart f.srcReg <<< 9 ||| sizePart f.dataSize <<< 6 |||
    eaPart f.destMode f.destReg

/-- The operand bits of the classes of `createAddr`. -/
def TwoOperand.addrFields (f : TwoOperand) : BitVec 16 :=
  regPart f.destReg <<< 9 ||| flagPart (f.dataSize = some .long) <<< 8 ||| eaPart f.srcMode f.srcReg

/-- The operand bits of the classes of `createExtended`. -/
def TwoOperand.extendedFields (f : TwoOperand) : BitVec 16 :=
  regPart f.destReg <<< 9 ||| sizePart f.dataSize <<< 6 |||
    flagPart (f.destMode ≠ .directData) <<< 3 ||| regPart f.srcReg

/-- The operand bits of the classes of `createDest`, and of `Tst`. -/
def OneOperand.destFields (f : OneOperand) : BitVec 16 :=
  sizePart f.dataSize <<< 6 ||| eaPart f.destMode f.destReg

/-- The operand bits of the classes of `createQuick`. -/
def QuickOperand.quickFields (f : QuickOperand) : BitVec 16 :=
  regPart f.immData.toNat <<< 9 ||| f.toOneOperand.destFields

/-- The operand bits of the classes of `createSigned`. -/
def SignedOperand.signedFields (f : SignedOperand) : BitVec 16 :=
  regPart f.destReg <<< 9 ||| flagPart f.isSigned <<< 8 ||| eaPart f.srcMode f.srcReg

/-- The operand bits of a shift; the type of a shift of a register is two of the bits
of its count. -/
def BitShiftOperand.fields (f : BitShiftOperand) : BitVec 16 :=
  if f.isMemory then (0xC0 : BitVec 16) ||| flagPart f.directionLeft <<< 8 |||
    eaPart f.addrMode f.addrReg
  else
    regPart (if f.isImm then f.immShift.toNat - 1 else f.shiftReg) <<< 9 |||
      flagPart f.directionLeft <<< 8 |||
      sizePart (some f.dataSize) <<< 6 ||| flagPart f.isImm <<< 5 ||| regPart f.addrReg

/-- The operand bits of an opcode for the object. -/
def Derived.fields : Derived → BitVec 16
  | .add f | .and f | .or f | .sub f => f.opModeFields
  | .adda f | .cmpa f | .suba f => f.addrFields
  | .addx f | .subx f => f.extendedFields
  | .addi f | .andi f | .clr f | .cmpi f | .eori f | .neg f | .ori f | .subi f
  | .tst f => f.destFields
  | .addq f | .subq f => f.quickFields
  | .div f | .mul f => f.signedFields
  | .jmp f | .jsr f | .pea f => eaPart f.destMode f.destReg
  | .bitManip f =>
    regPart f.srcReg <<< 9 ||| flagPart (f.srcMode = .directData) <<< 8 |||
      f.instructionType.part <<< 6 ||| eaPart f.destMode f.destReg
  | .bitShift f => f.fields
  | .cmp f => regPart f.destReg <<< 9 ||| sizePart f.dataSize <<< 6 ||| eaPart f.srcMode f.srcReg
  | .eor f => regPart f.srcReg <<< 9 ||| sizePart f.dataSize <<< 6 ||| eaPart f.destMode f.destReg
  | .ext f => flagPart (f.dataSize = some .long) <<< 6 ||| regPart f.destReg
  | .lea f => regPart f.addrReg <<< 9 ||| eaPart f.srcMode f.srcReg
  | .link addrReg | .unlk addrReg => regPart addrReg
  | .move f =>
    moveSizePart f.dataSize <<< 12 ||| regPart f.destReg <<< 9 ||| modePart f.destMode <<< 6 |||
      eaPart f.srcMode f.srcReg
  | .moveq f => regPart f.destReg <<< 9 ||| f.immData.setWidth 16
  | .scc f => conditionPart f.condition <<< 8 ||| eaPart f.destMode f.destReg
  | .bcc f => conditionPart f.condition <<< 8 ||| f.displacement8.setWidth 16
  | .illegal | .nop | .rts => 0

/-- An opcode for the object. -/
def Derived.encode (d : Derived) : BitVec 16 := d.cls.pattern.value ||| d.fields

/-! ### The canonical opcode -/

/-- The two registers of an opcode change places, and the bit that tells the
direction is cleared. -/
def swapped (opcode : BitVec 16) : BitVec 16 :=
  (opcode &&& (0xF0C0 : BitVec 16)) ||| (opcode &&& 0x7) <<< 9 ||| ((opcode >>> 9) &&& 0x7)

/-- The opcode without what the decoder does not look at.  A shift in memory has no count, and its
type is taken from the bits of its mode; a shift of a register has its type taken from the bits of
its count.  An `AND` or `OR` of two data registers has a form for each direction; the one with bit 8
set is an opcode of `ABCD`, `SBCD` or `EXG`, whose rows are commented out, or of none. -/
def canonical (opcode : BitVec 16) : BitVec 16 :=
  if opcode &&& 0xF0C0 = 0xE0C0 then opcode &&& 0xF1FF
  else if opcode &&& 0xF000 = 0xE000 then opcode &&& 0xFFE7
  else if opcode &&& 0xB138 = 0x8100 ∧ opcode &&& 0xC0 ≠ 0xC0 then swapped opcode
  else opcode

/-! ### The fields of a new object -/

section Families

variable (opcode : BitVec 16)

theorem fields_createDest {cls : OneOperand → Derived} (hcls : ∀ f, (cls f).fields = f.destFields) :
    (createDest cls opcode).derived.fields = opcode &&& 0xFF := by
  simp only [createDest, hcls, OneOperand.destFields, sizePart_sizeOfPart,
    eaPart_fields, ← and_shiftLeft, ← BitVec.and_or_distrib_left]
  rfl

theorem fields_createAddr {cls : TwoOperand → Derived} (hcls : ∀ f, (cls f).fields = f.addrFields) :
    (createAddr cls opcode).derived.fields = opcode &&& 0x0F3F := by
  have hsize :
    decide (some (if (opcode >>> 8) &&& 0x1 = 0 then DataSize.word else .long) = some .long) =
      decide ((opcode >>> 8) &&& 0x1 ≠ 0) := by
    split_ifs with h <;> simpa using h
  simp only [createAddr, hcls, TwoOperand.addrFields, hsize, flagPart_ne_zero,
    regPart_getRegisterType, eaPart_fields, ← and_shiftLeft, ← BitVec.and_or_distrib_left]
  rfl

theorem fields_createQuick {cls : QuickOperand → Derived}
    (hcls : ∀ f, (cls f).fields = f.quickFields) :
    (createQuick cls opcode).derived.fields = opcode &&& 0x0EFF := by
  have hquick : regPart (if ((opcode >>> 9) &&& 0x7).setWidth 8 = 0 then (8 : BitVec 8)
      else ((opcode >>> 9) &&& 0x7).setWidth 8).toNat = (opcode >>> 9) &&& 0x7 :=
    and_induction (P := fun p =>
      regPart (if p.setWidth 8 = 0 then (8 : BitVec 8) else p.setWidth 8).toNat = p)
      (opcode >>> 9) 0x7 (by decide)
  simp only [createQuick, hcls, QuickOperand.quickFields, OneOperand.destFields, hquick,
    sizePart_sizeOfPart, eaPart_fields, ← and_shiftLeft, ← BitVec.and_or_distrib_left]
  rfl

theorem fields_createExtended {cls : TwoOperand → Derived}
    (hcls : ∀ f, (cls f).fields = f.extendedFields) :
    (createExtended cls opcode).derived.fields = opcode &&& 0x0ECF := by
  have hmode :
      decide ((if (opcode >>> 3) &&& 0x1 = 0 then AddressingMode.directData
        else .indirectPredecrement) ≠ .directData) = decide ((opcode >>> 3) &&& 0x1 ≠ 0) := by
    split_ifs with h <;> simpa using h
  simp only [createExtended, hcls, TwoOperand.extendedFields, hmode, flagPart_ne_zero,
    sizePart_sizeOfPart, regPart_getRegisterType, ← and_shiftLeft, ← BitVec.and_or_distrib_left]
  rfl

theorem fields_createSigned {cls : SignedOperand → Derived}
    (hcls : ∀ f, (cls f).fields = f.signedFields) :
    (createSigned cls opcode).derived.fields = opcode &&& 0x0F3F := by
  simp only [createSigned, hcls, SignedOperand.signedFields, flagPart_ne_zero,
    regPart_getRegisterType, eaPart_fields, ← and_shiftLeft, ← BitVec.and_or_distrib_left]
  rfl

theorem fields_createControl {cls : OneOperand → Derived}
    (hcls : ∀ f, (cls f).fields = eaPart f.destMode f.destReg) :
    (createControl cls opcode).derived.fields = opcode &&& 0x3F := by
  rw [createControl, hcls, eaPart_fields]

/-- A field that is one bit, as the word has it. -/
theorem bit_cases (part : BitVec 16) : part &&& 0x1 = 0 ∨ part &&& 0x1 = 1 :=
  and_induction (P := fun p => p = 0 ∨ p = 1) part 0x1 (by decide)

theorem fields_createOpMode {cls : TwoOperand → Derived}
    (hcls : ∀ f, (cls f).fields = f.opModeFields) (h : opcode &&& 0x138 ≠ 0x100) :
    (createOpMode cls opcode).derived.fields = opcode &&& 0x0FFF := by
  have hmask : (0x0FFF : BitVec 16) = (0x7 : BitVec 16) <<< 9 ||| (0x1 : BitVec 16) <<< 8 |||
      (0x3 : BitVec 16) <<< 6 ||| 0x3F := by decide
  rw [hmask, BitVec.and_or_distrib_left, BitVec.and_or_distrib_left, BitVec.and_or_distrib_left,
    and_shiftLeft, and_shiftLeft, and_shiftLeft]
  obtain hop | hop := bit_cases (opcode >>> 8)
  · simp only [createOpMode, hop, ne_eq, not_true_eq_false, if_false, hcls,
      TwoOperand.opModeFields, if_true, regPart_getRegisterType, sizePart_sizeOfPart, eaPart_fields]
    simp
  · have hmode : getAddressingMode ((opcode >>> 3) &&& 0x7) (opcode &&& 0x7) ≠ .directData := by
      intro hdirect
      have hpart : (opcode >>> 3) &&& 0x7 = 0 := by
        rw [← modePart_getAddressingMode, hdirect, modePart]
      have hmask :
          (0x138 : BitVec 16) = (0x1 : BitVec 16) <<< 8 ||| (0x7 : BitVec 16) <<< 3 := by decide
      refine h ?_
      rw [hmask, BitVec.and_or_distrib_left, and_shiftLeft, and_shiftLeft, hop, hpart]
      decide
    have hne : (1 : BitVec 16) ≠ 0 := by decide
    simp only [createOpMode, hop, hne, ne_eq, not_false_eq_true, if_true, hcls,
      TwoOperand.opModeFields, hmode, if_false,
      regPart_getRegisterType, sizePart_sizeOfPart, eaPart_fields]
    rw [BitVec.or_comm (0x100 : BitVec 16)]
    rfl

/-- The two forms of an operation on two data registers are one object. -/
theorem fields_createOpMode_swapped {cls : TwoOperand → Derived}
    (hcls : ∀ f, (cls f).fields = f.opModeFields) (h : opcode &&& 0x138 = 0x100) :
    (createOpMode cls opcode).derived.fields =
      (opcode &&& (0xC0 : BitVec 16)) ||| (opcode &&& 0x7) <<< 9 ||| ((opcode >>> 9) &&& 0x7) := by
  have hop : (opcode >>> 8) &&& 0x1 = 1 := field_eq_of_matches h 8 0x1 (by decide)
  have hpart : (opcode >>> 3) &&& 0x7 = 0 := field_eq_of_matches h 3 0x7 (by decide)
  have hne : (1 : BitVec 16) ≠ 0 := by decide
  have hsize : (0xC0 : BitVec 16) = (0x3 : BitVec 16) <<< 6 := by decide
  have hdirect (part : BitVec 16) : getAddressingMode 0 part = .directData := rfl
  rw [hsize, and_shiftLeft]
  simp only [createOpMode, hop, hpart, hne, ne_eq, not_false_eq_true, if_true, hcls,
    TwoOperand.opModeFields, hdirect,
    regPart_getRegisterType, sizePart_sizeOfPart, eaPart, modePart]
  rw [BitVec.or_comm ((opcode &&& 0x7) <<< 9)]
  simp

end Families

section Classes

variable {opcode : BitVec 16}

theorem fields_move : (Move.create opcode).derived.fields = opcode &&& 0x3FFF := by
  have hmask : (0x3FFF : BitVec 16) = (0x3 : BitVec 16) <<< 12 ||| (0x7 : BitVec 16) <<< 9 |||
      (0x7 : BitVec 16) <<< 6 ||| 0x3F := by decide
  rw [hmask, BitVec.and_or_distrib_left, BitVec.and_or_distrib_left, BitVec.and_or_distrib_left,
    and_shiftLeft, and_shiftLeft, and_shiftLeft]
  simp only [Move.create, Derived.fields, regPart_getRegisterType, modePart_getAddressingMode,
    eaPart_fields]
  obtain ⟨n, hn, h⟩ := and_eq_or (opcode >>> 12) 0x3
  rw [h]
  clear h
  congr 4
  revert n
  decide

theorem fields_bitManip : (BitManip.create opcode).derived.fields = opcode &&& 0x0FFF := by
  have hmode :
    decide ((if (opcode >>> 8) &&& 0x1 ≠ 0 then AddressingMode.directData else .immediate) =
      .directData) =
      decide ((opcode >>> 8) &&& 0x1 ≠ 0) := by
    split_ifs with h <;> simpa using h
  simp only [BitManip.create, Derived.fields, hmode, flagPart_ne_zero, BitManipType.part_ofPart,
    regPart_getRegisterType, eaPart_fields, ← and_shiftLeft, ← BitVec.and_or_distrib_left]
  rfl

theorem fields_bitShift_memory (h : opcode &&& 0xC0 = 0xC0) :
    (BitShift.create opcode).derived.fields = opcode &&& 0x01FF := by
  have hmemory : (opcode >>> 6) &&& 0x3 = 3 := field_eq_of_matches h 6 0x3 (by decide)
  have hmask : (0x01FF : BitVec 16) = (0xC0 : BitVec 16) ||| (0x1 : BitVec 16) <<< 8 |||
      0x3F := by decide
  rw [hmask, BitVec.and_or_distrib_left, BitVec.and_or_distrib_left, h, and_shiftLeft]
  simp only [BitShift.create, hmemory, decide_true, if_true, Derived.fields, BitShiftOperand.fields,
    flagPart_eq_one, eaPart_fields]

/-- A size field that is not 3, as the constructor of a shift reads it. -/
theorem size_ne_three (h : opcode &&& 0xC0 ≠ 0xC0) : (opcode >>> 6) &&& 0x3 ≠ 3 := by
  intro hsize
  have hmask : (0xC0 : BitVec 16) = (0x3 : BitVec 16) <<< 6 := by decide
  refine h ?_
  rw [hmask, and_shiftLeft, hsize]

theorem fields_bitShift_register (h : opcode &&& 0xC0 ≠ 0xC0) :
    (BitShift.create opcode).derived.fields = opcode &&& 0x0FE7 := by
  have hmemory := size_ne_three h
  have hcount (b : Bool) : regPart (if b = true then (if b = true then
      (((opcode >>> 9) &&& 0x7) + 1).setWidth 8 else (0 : BitVec 8)).toNat - 1
      else if b = true then regD0 else getRegisterType 0 ((opcode >>> 9) &&& 0x7)) =
        (opcode >>> 9) &&& 0x7 := by
    obtain ⟨n, hn, h⟩ := and_eq_or (opcode >>> 9) 0x7
    rw [h]
    clear h
    revert n b
    decide
  have hmask : (0x0FE7 : BitVec 16) = (0x7 : BitVec 16) <<< 9 ||| (0x1 : BitVec 16) <<< 8 |||
      (0x3 : BitVec 16) <<< 6 ||| (0x1 : BitVec 16) <<< 5 ||| 0x7 := by decide
  rw [hmask, BitVec.and_or_distrib_left, BitVec.and_or_distrib_left, BitVec.and_or_distrib_left,
    BitVec.and_or_distrib_left, and_shiftLeft, and_shiftLeft, and_shiftLeft, and_shiftLeft]
  simp only [BitShift.create, hmemory, decide_false, Bool.false_eq_true, if_false, Derived.fields,
    BitShiftOperand.fields, hcount, flagPart_eq_one, regPart_getRegisterType]
  revert hmemory
  obtain ⟨n, hn, h⟩ := and_eq_or (opcode >>> 6) 0x3
  rw [h]
  clear h
  intro hmemory
  congr 4
  revert n
  decide

/-- The fields that a class leaves in an opcode, for the classes that read all of it. -/
theorem fields_create {cls : InstructionClass} (hvalid : (cls.create opcode).isValid)
    (hcls : cls ∉ [InstructionClass.add, .sub, .and, .or, .bitShift, .illegal]) :
    (cls.create opcode).derived.fields = opcode &&& ~~~cls.pattern.mask := by
  cases cls with
  | add | sub | and | or | bitShift | illegal => simp at hcls
  | adda | suba | cmpa => exact fields_createAddr opcode fun _ => rfl
  | addi | subi | andi | ori | eori | cmpi | clr | neg =>
    exact fields_createDest opcode fun _ => rfl
  | addq | subq => exact fields_createQuick opcode fun _ => rfl
  | addx | subx => exact fields_createExtended opcode fun _ => rfl
  | mul | div => exact fields_createSigned opcode fun _ => rfl
  | jmp | jsr | pea => exact fields_createControl opcode fun _ => rfl
  | move => exact fields_move
  | bitManip => exact fields_bitManip
  | nop | rts =>
    simp only [InstructionClass.pattern]
    exact (BitVec.and_zero).symm
  | link | unlk => exact regPart_getRegisterType _ _
  | lea =>
    simp only [InstructionClass.create, Lea.create, Derived.fields, regPart_getRegisterType,
      eaPart_fields, ← and_shiftLeft, ← BitVec.and_or_distrib_left]
    rfl
  | cmp =>
    simp only [InstructionClass.create, Cmp.create, Derived.fields, regPart_getRegisterType,
      sizePart_sizeOfPart, eaPart_fields, ← and_shiftLeft, ← BitVec.and_or_distrib_left]
    rfl
  | scc =>
    simp only [InstructionClass.create, Scc.create, Derived.fields, conditionPart_getCondition,
      eaPart_fields, ← and_shiftLeft, ← BitVec.and_or_distrib_left]
    rfl
  | eor =>
    simp only [InstructionClass.create, Eor.create] at hvalid ⊢
    split_ifs at hvalid ⊢
    simp only [Derived.fields, regPart_getRegisterType, sizePart_sizeOfPart,
      eaPart_fields, ← and_shiftLeft, ← BitVec.and_or_distrib_left]
    rfl
  | tst =>
    simp only [InstructionClass.create, Tst.create] at hvalid ⊢
    obtain ⟨size, hsize⟩ := Option.isSome_iff_exists.1 hvalid
    simp only [Derived.fields, OneOperand.destFields, hsize, Option.getD_some, eaPart_fields]
    rw [← hsize, sizePart_sizeOfPart, ← and_shiftLeft, ← BitVec.and_or_distrib_left]
    rfl
  | ext =>
    have hsize :
      decide (some (if (opcode >>> 6) &&& 0x1 ≠ 0 then DataSize.long else .word) = some .long) =
        decide ((opcode >>> 6) &&& 0x1 ≠ 0) := by
      split_ifs with h <;> simpa using h
    simp only [InstructionClass.create, Ext.create, Derived.fields, hsize, flagPart_ne_zero,
      regPart_getRegisterType, ← and_shiftLeft, ← BitVec.and_or_distrib_left]
    rfl
  | moveq =>
    simp only [InstructionClass.create, Moveq.create, Derived.fields,
      regPart_getRegisterType, setWidth_low, ← and_shiftLeft, ← BitVec.and_or_distrib_left]
    rfl
  | bcc =>
    simp only [InstructionClass.create, Bcc.create, Derived.fields,
      conditionPart_getCondition, setWidth_low, ← and_shiftLeft, ← BitVec.and_or_distrib_left]
    rfl

end Classes

/-! ### Decoding and encoding -/

section RoundTrip

variable {opcode : BitVec 16}

/-- An object that is not `Illegal` comes from the first row that its opcode matches. -/
theorem first_of_decode (h : (decode opcode).derived ≠ .illegal) :
    ∃ row, first opcodeMaskTable (opcode.setWidth 32) = some row ∧ row.entry ≠ .illegal ∧
      row.entry.pattern.test opcode ∧ (row.entry.create opcode).isValid ∧
      decode opcode = row.entry.create opcode := by
  have hdecode := decode_eq opcode
  rcases hfirst : first opcodeMaskTable (opcode.setWidth 32) with _ | row
  · rw [hfirst] at hdecode
    exact absurd (by rw [hdecode]; rfl) h
  · rw [hfirst] at hdecode
    dsimp only at hdecode
    split_ifs at hdecode with hvalid
    · obtain ⟨hrow, htest⟩ := mem_of_first hfirst
      have hpattern : row.entry.pattern.test opcode :=
        Pattern.test_iff.2 (test_iff_opcode.1 ((implies_pattern row hrow).test htest))
      refine ⟨row, rfl, fun hentry => h ?_, hpattern, hvalid, hdecode⟩
      rw [hdecode, hentry]
      rfl
    · exact absurd (by rw [hdecode]; rfl) h

theorem canonical_eq_self {cls : InstructionClass} (hx : cls.pattern.test opcode)
    (hcls : cls ∉ [InstructionClass.and, .or, .bitShift]) : canonical opcode = opcode := by
  have hshift : Pattern.Excludes cls.pattern ⟨0xF000, 0xE000⟩ := by
    cases cls with
    | and | or | bitShift => simp at hcls
    | _ => decide
  have hlogic : Pattern.Excludes cls.pattern ⟨0xB138, 0x8100⟩ ∨
      Pattern.Implies cls.pattern ⟨0xC0, 0xC0⟩ := by
    cases cls with
    | and | or | bitShift => simp at hcls
    | _ => decide
  have hnibble : opcode &&& 0xF000 ≠ 0xE000 := fun h =>
    absurd (Pattern.test_iff.2 h) (by simpa using hshift.not_test hx)
  have hmemory : opcode &&& 0xF0C0 ≠ 0xE0C0 := fun h =>
    hnibble (submask_matches h (by decide) (by decide))
  rw [canonical, if_neg hmemory, if_neg hnibble, if_neg]
  rintro ⟨hslot, hsize⟩
  obtain hex | himp := hlogic
  · exact absurd (Pattern.test_iff.2 hslot) (by simpa using hex.not_test hx)
  · exact hsize (Pattern.test_iff.1 (himp.test hx))

/-- The opcodes of `ADDX` and `SUBX` are theirs. -/
theorem not_swapped {row : MaskTableElement}
    (hfirst : first opcodeMaskTable (opcode.setWidth 32) = some row)
    (hentry : row.entry = .add ∨ row.entry = .sub) (hx : row.entry.pattern.test opcode) :
    opcode &&& 0x138 ≠ 0x100 := by
  have hcandidates : ∀ p ∈ [(⟨0xF138, 0xD100⟩ : Pattern 32), ⟨0xF138, 0x9100⟩],
      ∀ row ∈ candidates [] p opcodeMaskTable, row.entry ≠ .add ∧ row.entry ≠ .sub := by
    decide
  intro hslot
  have hmask : (0xF138 : BitVec 16) = (0xF000 : BitVec 16) ||| 0x138 := by decide
  have hnot {v : BitVec 16} (hv : opcode &&& 0xF000 = v)
      (hp : (⟨(0xF138 : BitVec 16).setWidth 32, (v ||| 0x100).setWidth 32⟩ : Pattern 32) ∈
        [(⟨0xF138, 0xD100⟩ : Pattern 32), ⟨0xF138, 0x9100⟩]) : False := by
    have hopcode :
        opcode &&& 0xF138 = v ||| 0x100 := by rw [hmask, BitVec.and_or_distrib_left, hv, hslot]
    have hnone : ∀ q ∈ ([] : List (Pattern 32)), q.test (opcode.setWidth 32) = false := nofun
    obtain ⟨hadd, hsub⟩ :=
      hcandidates _ hp row (mem_candidates_of_first hnone (test_iff_opcode.2 hopcode) hfirst)
    exact hentry.elim hadd hsub
  rw [Pattern.test_iff] at hx
  obtain h | h := hentry
  · rw [h] at hx
    exact hnot hx (by decide)
  · rw [h] at hx
    exact hnot hx (by decide)

/-- An `AND` or an `OR`, by the bits that `canonical` looks at. -/
theorem nibble_of_pair (h : opcode &&& 0xB138 = 0x8100) :
    opcode &&& 0xF000 = 0x8000 ∨ opcode &&& 0xF000 = 0xC000 := by
  have hmask : (0xF000 : BitVec 16) = (0xB000 : BitVec 16) ||| (0x1 : BitVec 16) <<< 14 := by decide
  have htop : opcode &&& 0xB000 = 0x8000 := submask_matches h (by decide) (by decide)
  rw [hmask, BitVec.and_or_distrib_left, and_shiftLeft, htop]
  obtain hbit | hbit := bit_cases (opcode >>> 14)
  · rw [hbit]
    exact .inl (by decide)
  · rw [hbit]
    exact .inr (by decide)

theorem size_of_isValid {cls : TwoOperand → Derived} (hvalid : (createOpMode cls opcode).isValid) :
    opcode &&& 0xC0 ≠ 0xC0 := by
  have hsome : (sizeOfPart ((opcode >>> 6) &&& 0x3)).isSome := by
    simp only [createOpMode] at hvalid
    split_ifs at hvalid
    · exact (Bool.and_eq_true_iff.1 hvalid).2
    · exact hvalid
  intro hsize
  rw [sizeOfPart_isSome_iff, hsize] at hsome
  revert hsome
  decide

/-- `AND` and `OR`. -/
theorem encode_createOpMode {ctor : TwoOperand → Derived} {v : BitVec 16}
    (hv : v = 0xC000 ∨ v = 0x8000)
    (hx : opcode &&& 0xF000 = v) (hvalid : (createOpMode ctor opcode).isValid)
    (hfields : ∀ f, (ctor f).fields = f.opModeFields) :
    v ||| (createOpMode ctor opcode).derived.fields = canonical opcode := by
  have hnibble : opcode &&& 0xF000 ≠ 0xE000 := by
    rw [hx]
    rcases hv with rfl | rfl <;> decide
  have hmemory : opcode &&& 0xF0C0 ≠ 0xE0C0 := fun h =>
    hnibble (submask_matches h (by decide) (by decide))
  have htop : opcode &&& 0xB000 = 0x8000 := by
    rw [and_eq_of_and_eq hx (by decide)]
    rcases hv with rfl | rfl <;> decide
  rw [canonical, if_neg hmemory, if_neg hnibble]
  by_cases hslot : opcode &&& 0x138 = 0x100
  · have hmask : (0xB138 : BitVec 16) = (0xB000 : BitVec 16) ||| 0x138 := by decide
    have hpair : opcode &&& 0xB138 = 0x8100 := by
      rw [hmask, BitVec.and_or_distrib_left, htop, hslot]
      decide
    have hmask' : (0xF0C0 : BitVec 16) = (0xF000 : BitVec 16) ||| 0xC0 := by decide
    rw [if_pos ⟨hpair, size_of_isValid hvalid⟩, fields_createOpMode_swapped opcode hfields hslot,
      swapped, hmask',
      BitVec.and_or_distrib_left, hx, BitVec.or_assoc, BitVec.or_assoc, BitVec.or_assoc]
  · have hpair : ¬(opcode &&& 0xB138 = 0x8100 ∧ opcode &&& 0xC0 ≠ 0xC0) := fun h =>
      hslot (submask_matches h.1 (by decide) (by decide))
    rw [if_neg hpair, fields_createOpMode opcode hfields hslot, ← hx, ← BitVec.and_or_distrib_left]
    exact BitVec.and_allOnes

theorem encode_bitShift (hx : opcode &&& 0xF000 = 0xE000) :
    (0xE000 : BitVec 16) ||| (BitShift.create opcode).derived.fields = canonical opcode := by
  have hmask : (0xF0C0 : BitVec 16) = (0xF000 : BitVec 16) ||| 0xC0 := by decide
  by_cases hsize : opcode &&& 0xC0 = 0xC0
  · have hmemory : opcode &&& 0xF0C0 = 0xE0C0 := by
      rw [hmask, BitVec.and_or_distrib_left, hx, hsize]
      decide
    rw [canonical, if_pos hmemory, fields_bitShift_memory hsize, ← hx, ← BitVec.and_or_distrib_left]
    rfl
  · have hmemory : opcode &&& 0xF0C0 ≠ 0xE0C0 := fun h =>
      hsize (submask_matches h (by decide) (by decide))
    rw [canonical, if_neg hmemory, if_pos hx,
      fields_bitShift_register hsize, ← hx, ← BitVec.and_or_distrib_left]
    rfl

/-- The opcode of a decoded object is the canonical form of the opcode that was decoded. -/
theorem encode_of_decode (h : (decode opcode).derived ≠ .illegal) :
    (decode opcode).derived.encode = canonical opcode := by
  obtain ⟨⟨pattern, cls⟩, hfirst, hlegal, hx, hvalid, hdecode⟩ := first_of_decode h
  rw [hdecode, Derived.encode, cls_create]
  dsimp only at hlegal hx hvalid ⊢
  cases cls with
  | illegal => exact absurd rfl hlegal
  | and => exact encode_createOpMode (.inl rfl) (Pattern.test_iff.1 hx) hvalid fun _ => rfl
  | or => exact encode_createOpMode (.inr rfl) (Pattern.test_iff.1 hx) hvalid fun _ => rfl
  | bitShift => exact encode_bitShift (Pattern.test_iff.1 hx)
  | add =>
    have hfields : (createOpMode .add opcode).derived.fields = opcode &&& 0x0FFF :=
      fields_createOpMode opcode (fun _ => rfl) (not_swapped hfirst (.inl rfl) hx)
    have hself : canonical opcode = opcode := canonical_eq_self hx (by decide)
    rw [hself]
    exact (congrArg _ hfields).trans (Pattern.value_or hx)
  | sub =>
    have hfields : (createOpMode .sub opcode).derived.fields = opcode &&& 0x0FFF :=
      fields_createOpMode opcode (fun _ => rfl) (not_swapped hfirst (.inr rfl) hx)
    have hself : canonical opcode = opcode := canonical_eq_self hx (by decide)
    rw [hself]
    exact (congrArg _ hfields).trans (Pattern.value_or hx)
  | _ =>
    have hself : canonical opcode = opcode := canonical_eq_self hx (by decide)
    rw [fields_create hvalid (by decide), Pattern.value_or hx, hself]

/-! ### The canonical opcode has the same object -/

/-- The object of an opcode all of whose rows are of one class. -/
theorem decode_of_candidates {cls : InstructionClass} {before : List (Pattern 32)} {p : Pattern 32}
    (hall : ∀ row ∈ candidates before p opcodeMaskTable, row.entry = cls)
    (himp : ∃ row ∈ opcodeMaskTable, p.Implies row.toPattern)
    (hbefore : ∀ q ∈ before, q.test (opcode.setWidth 32) = false)
    (hx : p.test (opcode.setWidth 32)) :
    decode opcode = if (cls.create opcode).isValid then cls.create opcode
      else Illegal.create 0 := by
  obtain ⟨row, hrow, hfirst⟩ := exists_candidate hbefore hx himp
  rw [decode_eq, hfirst, ← hall row hrow]
  rfl

/-- What the decoder makes of an opcode that begins with `1110`. -/
theorem decode_shift (h : opcode &&& 0xF000 = 0xE000) :
    decode opcode = if (InstructionClass.bitShift.create opcode).isValid then
    InstructionClass.bitShift.create opcode else Illegal.create 0 := by
  have hcandidates :
      ∀ p ∈ [(⟨0xF018, 0xE000⟩ : Pattern 32), ⟨0xF018, 0xE008⟩, ⟨0xF018, 0xE010⟩, ⟨0xF018, 0xE018⟩],
        (∀ row ∈ candidates [] p opcodeMaskTable, row.entry = .bitShift) ∧
          ∃ row ∈ opcodeMaskTable, p.Implies row.toPattern := by
    decide +kernel
  have htype : opcode &&& 0x18 = 0x00 ∨ opcode &&& 0x18 = 0x08 ∨ opcode &&& 0x18 = 0x10 ∨
      opcode &&& 0x18 = 0x18 := by
    have hmask : (0x18 : BitVec 16) = (0x3 : BitVec 16) <<< 3 := by decide
    rw [hmask, and_shiftLeft]
    obtain ⟨n, hn, h⟩ := and_eq_or (opcode >>> 3) 0x3
    rw [h]
    clear h
    revert n
    decide
  have hmask : (0xF018 : BitVec 16) = (0xF000 : BitVec 16) ||| 0x18 := by decide
  have hrows {v : BitVec 16} (hv : opcode &&& 0x18 = v)
      (hp : (⟨(0xF018 : BitVec 16).setWidth 32, (0xE000 ||| v).setWidth 32⟩ : Pattern 32) ∈
        [(⟨0xF018, 0xE000⟩ : Pattern 32), ⟨0xF018, 0xE008⟩, ⟨0xF018, 0xE010⟩, ⟨0xF018, 0xE018⟩]) :
      decode opcode = if (InstructionClass.bitShift.create opcode).isValid then
        InstructionClass.bitShift.create opcode else Illegal.create 0 := by
    obtain ⟨hall, himp⟩ := hcandidates _ hp
    refine decode_of_candidates hall himp nofun (test_iff_opcode.2 ?_)
    rw [hmask, BitVec.and_or_distrib_left, h, hv]
  obtain hv | hv | hv | hv := htype <;> exact hrows hv (by decide)

/-- What the decoder makes of an `AND` or an `OR`. -/
theorem decode_logic {cls : InstructionClass} (hcls : cls = .and ∨ cls = .or)
    (h : opcode &&& 0xF000 = cls.pattern.value) (hsize : opcode &&& 0xC0 ≠ 0xC0) :
    decode opcode = if (cls.create opcode).isValid then cls.create opcode
      else Illegal.create 0 := by
  have hcandidates : ∀ cls ∈ [InstructionClass.and, .or],
      (∀ row ∈ candidates [⟨0xC0, 0xC0⟩] cls.widePattern opcodeMaskTable, row.entry = cls) ∧
        ∃ row ∈ opcodeMaskTable, Pattern.Implies cls.widePattern row.toPattern := by
    decide +kernel
  have hmask : cls.pattern.mask = 0xF000 := by
    rcases hcls with rfl | rfl <;> rfl
  obtain ⟨hall, himp⟩ := hcandidates cls (by simpa using hcls)
  refine decode_of_candidates hall himp (fun q hq => ?_) (test_iff_opcode.2 (by rw [hmask, h]))
  rw [List.mem_singleton.1 hq, ← Bool.not_eq_true]
  exact fun htest => hsize (test_iff_opcode.1 htest)

/-- A field that a mask keeps. -/
theorem field_and (m f : BitVec 16) (k : ℕ) (h : (f <<< k) &&& m = f <<< k) :
    ((opcode &&& m) >>> k) &&& f = (opcode >>> k) &&& f := (field_eq_of_matches rfl k f h).symm

/-- The constructor of a shift in memory does not look at the count. -/
theorem create_bitShift_memory (h : opcode &&& 0xC0 = 0xC0) :
    BitShift.create (opcode &&& 0xF1FF) = BitShift.create opcode := by
  have hmemory : (opcode >>> 6) &&& 0x3 = 3 := field_eq_of_matches h 6 0x3 (by decide)
  have hreg : opcode &&& 0xF1FF &&& 0x7 = opcode &&& 0x7 := by
    rw [BitVec.and_assoc]
    rfl
  simp only [BitShift.create, field_and 0xF1FF 0x7 3 (by decide),
    field_and 0xF1FF 0x1 8 (by decide), field_and 0xF1FF 0x3 6 (by decide),
    field_and 0xF1FF 0x3 3 (by decide), field_and 0xF1FF 0x1 5 (by decide), hreg,
    hmemory, decide_true, if_true]

/-- The constructor of a shift of a register takes the type from the bits of the count. -/
theorem create_bitShift_register (h : opcode &&& 0xC0 ≠ 0xC0) :
    BitShift.create (opcode &&& 0xFFE7) = BitShift.create opcode := by
  have hmemory := size_ne_three h
  have hreg : opcode &&& 0xFFE7 &&& 0x7 = opcode &&& 0x7 := by
    rw [BitVec.and_assoc]
    rfl
  simp only [BitShift.create, field_and 0xFFE7 0x1 8 (by decide),
    field_and 0xFFE7 0x3 6 (by decide), field_and 0xFFE7 0x3 9 (by decide),
    field_and 0xFFE7 0x7 9 (by decide), field_and 0xFFE7 0x1 5 (by decide), hreg,
    hmemory, decide_false, Bool.false_eq_true, if_false]

/-- The fields of an opcode whose registers have changed places. -/
theorem swapped_fields (opcode : BitVec 16) :
    (swapped opcode >>> 9) &&& 0x7 = opcode &&& (0x7 : BitVec 16) ∧
      swapped opcode &&& (0x7 : BitVec 16) = (opcode >>> 9) &&& 0x7 ∧
      (swapped opcode >>> 6) &&& (0x3 : BitVec 16) = (opcode >>> 6) &&& 0x3 ∧
      swapped opcode &&& 0x138 = 0 ∧ swapped opcode &&& 0xF0C0 = opcode &&& 0xF0C0 := by
  refine ⟨?_, ?_, ?_, ?_, ?_⟩ <;>
  · apply BitVec.eq_of_getLsbD_eq
    intro i hi
    simp only [swapped]
    interval_cases i <;> simp

/-- Both forms of an operation on two data registers build the same object. -/
theorem createOpMode_swapped (ctor : TwoOperand → Derived) (h : opcode &&& 0x138 = 0x100) :
    createOpMode ctor (swapped opcode) = createOpMode ctor opcode := by
  obtain ⟨hdest, hsrc, hsize, hslot, -⟩ := swapped_fields opcode
  have hop : (opcode >>> 8) &&& 0x1 = 1 := field_eq_of_matches h 8 0x1 (by decide)
  have hpart : (opcode >>> 3) &&& 0x7 = 0 := field_eq_of_matches h 3 0x7 (by decide)
  have hop' : (swapped opcode >>> 8) &&& 0x1 = 0 := field_eq_of_matches hslot 8 0x1 (by decide)
  have hpart' : (swapped opcode >>> 3) &&& 0x7 = 0 := field_eq_of_matches hslot 3 0x7 (by decide)
  have hne : (1 : BitVec 16) ≠ 0 := by decide
  have hdirect (part : BitVec 16) : getAddressingMode 0 part = .directData := rfl
  have halterable : isMemoryAlterable .directData = true := rfl
  simp only [createOpMode, hop, hpart, hop', hpart', hdest, hsrc, hsize, hne, ne_eq,
    not_true_eq_false, not_false_eq_true, if_true, if_false, hdirect, halterable, Bool.true_and]

/-- The decoder does not tell an opcode from its canonical form. -/
theorem decode_canonical (opcode : BitVec 16) : decode (canonical opcode) = decode opcode := by
  have hmask : (0xF0C0 : BitVec 16) = (0xF000 : BitVec 16) ||| 0xC0 := by decide
  rw [canonical]
  split_ifs with hmemory hnibble hslot
  · have hnibble : opcode &&& 0xF000 = 0xE000 := submask_matches hmemory (by decide) (by decide)
    have hnibble' : opcode &&& 0xF1FF &&& 0xF000 = 0xE000 := by
      rw [BitVec.and_assoc]
      exact hnibble
    have hsize : opcode &&& 0xC0 = 0xC0 := submask_matches hmemory (by decide) (by decide)
    have hcreate :
        InstructionClass.bitShift.create (opcode &&& 0xF1FF) =
        InstructionClass.bitShift.create opcode :=
      create_bitShift_memory hsize
    rw [decode_shift hnibble, decode_shift hnibble', hcreate]
  · have hnibble' : opcode &&& 0xFFE7 &&& 0xF000 = 0xE000 := by
      rw [BitVec.and_assoc]
      exact hnibble
    have hsize : opcode &&& 0xC0 ≠ 0xC0 := by
      intro hsize
      refine hmemory ?_
      rw [hmask, BitVec.and_or_distrib_left, hnibble, hsize]
      decide
    have hcreate :
        InstructionClass.bitShift.create (opcode &&& 0xFFE7) =
        InstructionClass.bitShift.create opcode :=
      create_bitShift_register hsize
    rw [decode_shift hnibble, decode_shift hnibble', hcreate]
  · obtain ⟨hpair, hsize⟩ := hslot
    obtain ⟨-, -, -, -, hkept⟩ := swapped_fields opcode
    have hslot : opcode &&& 0x138 = 0x100 := submask_matches hpair (by decide) (by decide)
    have hsize' : swapped opcode &&& 0xC0 ≠ 0xC0 := by
      rw [and_eq_of_and_eq hkept (by decide), BitVec.and_assoc]
      exact hsize
    have hnibble' : swapped opcode &&& 0xF000 = opcode &&& 0xF000 := by
      rw [and_eq_of_and_eq hkept (by decide), BitVec.and_assoc]
      rfl
    obtain h | h := nibble_of_pair hpair
    · have hcreate :
          InstructionClass.or.create (swapped opcode) = InstructionClass.or.create opcode :=
        createOpMode_swapped .or hslot
      rw [decode_logic (.inr rfl) h hsize, decode_logic (.inr rfl) (hnibble'.trans h)
        hsize', hcreate]
    · have hcreate :
          InstructionClass.and.create (swapped opcode) = InstructionClass.and.create opcode :=
        createOpMode_swapped .and hslot
      rw [decode_logic (.inl rfl) h hsize, decode_logic (.inl rfl) (hnibble'.trans h)
        hsize', hcreate]
  · rfl

/-- Decoding what an object is encoded to gives the object back, and encoding what an opcode decodes
to gives its canonical form. -/
theorem encode_decode (opcode : BitVec 16) (h : (decode opcode).derived ≠ .illegal) :
    (decode opcode).derived.encode = canonical opcode ∧
    decode (decode opcode).derived.encode = decode opcode := by
  have hencode := encode_of_decode h
  refine ⟨hencode, ?_⟩
  rw [hencode]
  exact decode_canonical opcode

/-- An `OR` of two data registers with bit 8 set, where the hardware has `SBCD`. -/
theorem encode_decode_8100 :
    (decode 0x8100).derived.encode = 0x8000 ∧
    decode (decode 0x8100).derived.encode = decode 0x8100 := by
  have hlegal : (decode 0x8100).derived ≠ .illegal := by
    rw [decode_eq_opcodeEntry]
    decide
  exact encode_decode 0x8100 hlegal

/-- Two opcodes are the same instruction to the emulator if and only if their canonical forms are
one, or both are illegal. -/
theorem decode_eq_iff (a b : BitVec 16) :
    (decode a).derived = (decode b).derived ↔
      canonical a = canonical b ∨
      ((decode a).derived = .illegal ∧ (decode b).derived = .illegal) := by
  constructor
  · intro h
    by_cases hlegal : (decode a).derived = .illegal
    · exact .inr ⟨hlegal, h ▸ hlegal⟩
    · have hlegal' : (decode b).derived ≠ .illegal := h ▸ hlegal
      left
      rw [← encode_of_decode hlegal, ← encode_of_decode hlegal', h]
  · rintro (h | ⟨ha, hb⟩)
    · rw [← decode_canonical a, h, decode_canonical]
    · rw [ha, hb]

end RoundTrip

end M68kEmu
