import M68kEmu.Model.Defines

/-!
# The static functions of class `Instruction` (`instruction.cpp`)

They turn fields of an opcode or of an extension word into the enumerations.  `static_cast` to an
enumeration is the table of its enumerators.
-/

namespace M68kEmu

/-- `Instruction::getAddressingMode`. -/
def getAddressingMode (partMode partReg : BitVec 16) : AddressingMode :=
  match partMode.toNat with
  | 0 => .directData
  | 1 => .directAddr
  | 2 => .indirect
  | 3 => .indirectPostincrement
  | 4 => .indirectPredecrement
  | 5 => .indirectDisplacement
  | 6 => .indirectIndex
  | _ =>
    match partReg.toNat with
    | 0 => .absWord
    | 1 => .absLong
    | 2 => .pcDisplacement
    | 3 => .pcIndex
    | 4 => .immediate
    | _ => .unknown

/-- `Instruction::getRegisterType`. -/
def getRegisterType (partMode partReg : BitVec 16) : ℕ :=
  if partMode = 0 then partReg.toNat else partReg.toNat + 8

/-- `Instruction::getCondition`. -/
def getCondition (condPart : BitVec 16) : Condition :=
  match (condPart &&& 0xF).toNat with
  | 0 => .true
  | 1 => .false
  | 2 => .higher
  | 3 => .lowerSame
  | 4 => .carryClear
  | 5 => .carrySet
  | 6 => .notEqual
  | 7 => .equal
  | 8 => .overflowClear
  | 9 => .overflowSet
  | 10 => .plus
  | 11 => .minus
  | 12 => .greaterEqual
  | 13 => .lessThan
  | 14 => .greaterThan
  | _ => .lessEqual

end M68kEmu
