import M68kEmu.Model.Disassembler

/-!
# Instruction objects

`Instruction` is the base class with its `is_valid`, and `Derived` the object of the class that a
constructor builds, with the fields that `execute` and `disassembly` read.  Classes with the same
fields share a structure.  Some constructors leave `data_size` unset when they reject the opcode:
the field is then `none`, and reading it is the fault `uninitialised`.

The second half is what the methods of many classes have in common: the lines that step over the
opcode, the assignments of the flags, and the bodies that several classes repeat.
-/

namespace M68kEmu

/-! ### Fields -/

/-- The fields of the classes with one operand (also named `ea_mode`, `addr_mode` and
so on in the source). -/
structure OneOperand where
  destMode : AddressingMode := .unknown
  destReg : ℕ := regD0
  dataSize : Option DataSize := none
  deriving DecidableEq, Repr

/-- The fields of the classes with a source and a destination. -/
structure TwoOperand extends OneOperand where
  srcMode : AddressingMode := .unknown
  srcReg : ℕ := regD0
  deriving DecidableEq, Repr

/-- `Addq`, `Subq`, `Moveq`. -/
structure QuickOperand extends OneOperand where
  immData : BitVec 8 := 0
  deriving DecidableEq, Repr

/-- `Mul`, `Div`. -/
structure SignedOperand extends TwoOperand where
  isSigned : Bool := false
  deriving DecidableEq, Repr

/-- `Move`. -/
structure MoveOperand extends TwoOperand where
  isMovea : Bool := false
  deriving DecidableEq, Repr

/-- `Lea`. -/
structure LeaOperand where
  srcMode : AddressingMode
  srcReg : ℕ
  addrReg : ℕ
  dataSize : DataSize
  deriving DecidableEq, Repr

/-- `Scc`. -/
structure SccOperand where
  condition : Condition
  destMode : AddressingMode
  destReg : ℕ
  deriving DecidableEq, Repr

/-- `Bcc`. -/
structure BccOperand where
  condition : Condition
  displacement8 : BitVec 8
  dataSize : DataSize
  deriving DecidableEq, Repr

/-- `BitManip::InstructionType`. -/
inductive BitManipType where
  | btst | bchg | bclr | bset
  deriving DecidableEq, Repr

/-- `BitManip`. -/
structure BitManipOperand extends TwoOperand where
  instructionType : BitManipType
  instructionStr : String
  dataBitsModulo : BitVec 8
  deriving DecidableEq, Repr

/-- `BitShift::InstructionType`. -/
inductive BitShiftType where
  | as | ls | rox | ro
  deriving DecidableEq, Repr

/-- `BitShift`. -/
structure BitShiftOperand where
  addrMode : AddressingMode
  addrReg : ℕ
  shiftReg : ℕ
  immShift : BitVec 8
  directionLeft : Bool
  isImm : Bool
  isMemory : Bool
  instructionType : BitShiftType
  instructionStr : String
  dataSize : DataSize
  deriving DecidableEq, Repr

/-! ### Objects -/

/-- An object of one of the classes derived from `Instruction`. -/
inductive Derived where
  | add (f : TwoOperand)
  | adda (f : TwoOperand)
  | addi (f : OneOperand)
  | addq (f : QuickOperand)
  | addx (f : TwoOperand)
  | and (f : TwoOperand)
  | andi (f : OneOperand)
  | bcc (f : BccOperand)
  | bitManip (f : BitManipOperand)
  | bitShift (f : BitShiftOperand)
  | clr (f : OneOperand)
  | cmp (f : TwoOperand)
  | cmpa (f : TwoOperand)
  | cmpi (f : OneOperand)
  | div (f : SignedOperand)
  | eor (f : TwoOperand)
  | eori (f : OneOperand)
  | ext (f : OneOperand)
  | illegal
  | jmp (f : OneOperand)
  | jsr (f : OneOperand)
  | lea (f : LeaOperand)
  | link (addrReg : ℕ)
  | move (f : MoveOperand)
  | moveq (f : QuickOperand)
  | mul (f : SignedOperand)
  | neg (f : OneOperand)
  | nop
  | or (f : TwoOperand)
  | ori (f : OneOperand)
  | pea (f : OneOperand)
  | rts
  | scc (f : SccOperand)
  | sub (f : TwoOperand)
  | suba (f : TwoOperand)
  | subi (f : OneOperand)
  | subq (f : QuickOperand)
  | subx (f : TwoOperand)
  | tst (f : OneOperand)
  | unlk (addrReg : ℕ)
  deriving DecidableEq, Repr

/-- `Instruction`. -/
structure Instruction where
  isValid : Bool := true
  derived : Derived
  deriving DecidableEq, Repr

/-! ### Constructors that several classes repeat -/

/-- The switch on a two-bit size field; its default branch leaves `data_size` unset
and clears `is_valid`. -/
def sizeOfPart (part : BitVec 16) : Option DataSize :=
  match part.toNat with
  | 0 => some .byte
  | 1 => some .word
  | 2 => some .long
  | _ => none

/-- The constructor of `Add`, `Sub`, `And` and `Or`. -/
def createOpMode (cls : TwoOperand → Derived) (opcode : BitVec 16) : Instruction :=
  let dataRegPart := (opcode >>> 9) &&& 0x7
  let eaModePart := (opcode >>> 3) &&& 0x7
  let eaRegPart := opcode &&& 0x7
  let dataSizePart := (opcode >>> 6) &&& 0x3
  let opMode := (opcode >>> 8) &&& 0x1
  let dataSize := sizeOfPart dataSizePart
  let eaMode := getAddressingMode eaModePart eaRegPart
  let eaReg := getRegisterType eaModePart eaRegPart
  let dataReg := getRegisterType 0 dataRegPart
  if opMode ≠ 0 then
    { isValid := isMemoryAlterable eaMode && dataSize.isSome
      derived :=
      cls { destMode := eaMode, destReg := eaReg, srcMode := .directData,
            srcReg := dataReg, dataSize } }
  else
    { isValid := dataSize.isSome
      derived :=
      cls { destMode := .directData, destReg := dataReg, srcMode := eaMode,
            srcReg := eaReg, dataSize } }

/-- The constructor of `Adda`, `Suba` and `Cmpa`. -/
def createAddr (cls : TwoOperand → Derived) (opcode : BitVec 16) : Instruction :=
  let addrRegPart := (opcode >>> 9) &&& 0x7
  let eaModePart := (opcode >>> 3) &&& 0x7
  let eaRegPart := opcode &&& 0x7
  let dataSizePart := (opcode >>> 8) &&& 0x1
  { derived := cls
      { destMode := .directAddr
        destReg := getRegisterType 1 addrRegPart
        srcMode := getAddressingMode eaModePart eaRegPart
        srcReg := getRegisterType eaModePart eaRegPart
        dataSize := some (if dataSizePart = 0 then .word else .long) } }

/-- The constructor of `Addi`, `Subi`, `Andi`, `Ori`, `Eori`, `Cmpi`, `Clr` and `Neg`. -/
def createDest (cls : OneOperand → Derived) (opcode : BitVec 16) : Instruction :=
  let eaModePart := (opcode >>> 3) &&& 0x7
  let eaRegPart := opcode &&& 0x7
  let dataSize := sizeOfPart ((opcode >>> 6) &&& 0x3)
  let destMode := getAddressingMode eaModePart eaRegPart
  { isValid := isMemoryAlterable destMode && dataSize.isSome
    derived := cls { destMode, destReg := getRegisterType eaModePart eaRegPart, dataSize } }

/-- The constructor of `Addq` and `Subq`. -/
def createQuick (cls : QuickOperand → Derived) (opcode : BitVec 16) : Instruction :=
  let eaModePart := (opcode >>> 3) &&& 0x7
  let eaRegPart := opcode &&& 0x7
  let dataSize := sizeOfPart ((opcode >>> 6) &&& 0x3)
  let destMode := getAddressingMode eaModePart eaRegPart
  let immData := ((opcode >>> 9) &&& 0x7).setWidth 8
  { isValid := isMemoryAlterable destMode && dataSize.isSome
    derived := cls
      { destMode, destReg := getRegisterType eaModePart eaRegPart, dataSize
        immData := if immData = 0 then 8 else immData } }

/-- The constructor of `Addx` and `Subx`. -/
def createExtended (cls : TwoOperand → Derived) (opcode : BitVec 16) : Instruction :=
  let destRegPart := (opcode >>> 9) &&& 0x7
  let srcRegPart := opcode &&& 0x7
  let modePart := (opcode >>> 3) &&& 0x1
  let dataSize := sizeOfPart ((opcode >>> 6) &&& 0x3)
  let mode : AddressingMode := if modePart = 0 then .directData else .indirectPredecrement
  { isValid := dataSize.isSome
    derived := cls
      { destMode := mode, destReg := getRegisterType modePart destRegPart
        srcMode := mode, srcReg := getRegisterType modePart srcRegPart, dataSize } }

/-- The constructor of `Mul` and `Div`. -/
def createSigned (cls : SignedOperand → Derived) (opcode : BitVec 16) : Instruction :=
  let dataRegPart := (opcode >>> 9) &&& 0x7
  let eaModePart := (opcode >>> 3) &&& 0x7
  let eaRegPart := opcode &&& 0x7
  { derived := cls
      { isSigned := (opcode >>> 8) &&& 0x1 ≠ 0
        destMode := .directData
        destReg := getRegisterType 0 dataRegPart
        srcMode := getAddressingMode eaModePart eaRegPart
        srcReg := getRegisterType eaModePart eaRegPart
        dataSize := some .word } }

/-- The constructor of `Jmp`, `Jsr` and `Pea`. -/
def createControl (cls : OneOperand → Derived) (opcode : BitVec 16) : Instruction :=
  let eaModePart := (opcode >>> 3) &&& 0x7
  let eaRegPart := opcode &&& 0x7
  let destMode := getAddressingMode eaModePart eaRegPart
  { isValid := isControlAddr destMode
    derived :=
    cls { destMode, destReg := getRegisterType eaModePart eaRegPart, dataSize := some .long } }

/-! ### Bodies that several classes repeat -/

variable {M : Type} [IMemory M]

/-- `pc += SIZE_WORD`, the lines at the head of the methods. -/
def skipOpcode : CpuM M Unit := do
  let pc ← getReg regPC .long
  setReg regPC .long (pc + 2)

/-- A read of the field `data_size`. -/
def readSize (dataSize : Option DataSize) : CpuM M DataSize :=
  match dataSize with
  | some size => pure size
  | none => throw .uninitialised

/-- The flags after `Add`, `Sub`, `Addi`, `Subi`, `Addq`, `Subq` and `Neg`. -/
def setArithmeticFlags (size : DataSize) (srcData destData result : BitVec 32) : CpuM M Unit := do
  let result : BitVec 64 := result.setWidth 64
  setFlag .extend (isCarry result size)
  setFlag .negative (isNegative result size)
  setFlag .zero (isZero result size)
  setFlag .overflow (isOverflow srcData destData size)
  setFlag .carry (isCarry result size)

/-- The flags after `Cmp`, `Cmpi` and `Cmpa`. -/
def setCompareFlags (size : DataSize) (srcData destData result : BitVec 32) : CpuM M Unit := do
  let result : BitVec 64 := result.setWidth 64
  setFlag .negative (isNegative result size)
  setFlag .zero (isZero result size)
  setFlag .overflow (isOverflow srcData destData size)
  setFlag .carry (isCarry result size)

/-- The flags after the logic instructions, `Ext`, `Mul` and `Tst`. -/
def setLogicFlags {w : ℕ} (size : DataSize) (result : BitVec w) : CpuM M Unit := do
  setFlag .negative (isNegative result size)
  setFlag .zero (isZero result size)
  setFlag .overflow false
  setFlag .carry false

section Families

variable (A : Accessors M)

/-- `getData(this->src_mode, this->src_reg, this->data_size)`. -/
def fetchSource (f : TwoOperand) (size : DataSize) : CpuM M (BitVec 32) :=
  A.getData f.srcMode f.srcReg size

/-- `getData(ADDR_MODE_IMMEDIATE, REG_D0, this->data_size)`. -/
def fetchImmediate (size : DataSize) : CpuM M (BitVec 32) := A.getData .immediate regD0 size

/-- `execute` of the classes that read a source, read the destination silently, and
write the destination. -/
def readModifyWrite (fetch : DataSize → CpuM M (BitVec 32)) (f : OneOperand)
    (op : (srcData destData : BitVec 32) → BitVec 32)
    (flags : DataSize → (srcData destData result : BitVec 32) → CpuM M Unit) : CpuM M Unit := do
  skipOpcode
  let dataSize ← readSize f.dataSize
  let srcData ← fetch dataSize
  let destData ← A.getDataSilent f.destMode f.destReg dataSize
  let result := op srcData destData
  A.setData f.destMode f.destReg dataSize result
  flags dataSize srcData destData result

/-- `execute` of `Addx` and `Subx`. -/
def extendedArithmetic (f : TwoOperand)
    (op : (srcData destData extendData : BitVec 32) → BitVec 32) :
    CpuM M Unit := do
  skipOpcode
  let dataSize ← readSize f.dataSize
  let extend ← getFlag .extend
  let extendData : BitVec 32 := if extend then 1 else 0
  let srcData ← A.getData f.srcMode f.srcReg dataSize
  let destData ← A.getDataSilent f.destMode f.destReg dataSize
  let sum := op srcData destData extendData
  let result : BitVec 64 := sum.setWidth 64
  A.setData f.destMode f.destReg dataSize sum
  -- change only if non zero
  if !isZero result dataSize then
    setFlag .zero false
  setFlag .extend (isCarry result dataSize)
  setFlag .negative (isNegative result dataSize)
  setFlag .overflow (isOverflow srcData destData dataSize)
  setFlag .carry (isCarry result dataSize)

/-- `execute` of the compare instructions. -/
def compareWith (fetch : DataSize → CpuM M (BitVec 32)) (f : OneOperand) : CpuM M Unit := do
  skipOpcode
  let dataSize ← readSize f.dataSize
  let srcData ← fetch dataSize
  let destData ← A.getData f.destMode f.destReg dataSize
  setCompareFlags dataSize srcData destData (destData - srcData)

end Families

section Listings

open Disassembler

/-- `disassembly` of the classes with a source and a destination; the operands are
printed from left to right. -/
def listTwoOperand (name : String) (f : TwoOperand) : CpuM M String := do
  skipOpcode
  let dataSize ← readSize f.dataSize
  let src ← effectiveAddress f.srcMode f.srcReg dataSize
  let dest ← effectiveAddress f.destMode f.destReg dataSize
  return name ++ sizeSuffix dataSize ++ " " ++ src ++ ", " ++ dest

/-- `disassembly` of the classes with an immediate source. -/
def listImmediate (name : String) (f : OneOperand) : CpuM M String :=
  listTwoOperand name { f with srcMode := .immediate, srcReg := regD0 }

/-- `disassembly` of the classes that print one operand after their name. -/
def listOneOperand (name : DataSize → String) (f : OneOperand) : CpuM M String := do
  skipOpcode
  let dataSize ← readSize f.dataSize
  let dest ← effectiveAddress f.destMode f.destReg dataSize
  return name dataSize ++ dest

end Listings

end M68kEmu
