import M68kEmu.Model.Instruction

/-!
# The logic, bit and shift classes

`And`, `Or`, `Eor`, their immediate forms, `Ext`, `Tst`, `BitManip` and `BitShift`.
-/

namespace M68kEmu

variable {M : Type} [IMemory M] (A : Accessors M)

/-- The flags of the logic classes, which do not read the operands. -/
def setResultFlags (size : DataSize) (_srcData _destData result : BitVec 32) : CpuM M Unit :=
  setLogicFlags size (result.setWidth 64)

namespace And

def create : BitVec 16 → Instruction := createOpMode .and
def execute (f : TwoOperand) : CpuM M Unit :=
  readModifyWrite A (fetchSource A f) f.toOneOperand (fun src dest => src &&& dest) setResultFlags
def disassembly (f : TwoOperand) : CpuM M String := listTwoOperand "and" f

end And

namespace Or

def create : BitVec 16 → Instruction := createOpMode .or
def execute (f : TwoOperand) : CpuM M Unit :=
  readModifyWrite A (fetchSource A f) f.toOneOperand (fun src dest => dest ||| src) setResultFlags
def disassembly (f : TwoOperand) : CpuM M String := listTwoOperand "or" f

end Or

namespace Eor

def create (opcode : BitVec 16) : Instruction :=
  let dataRegPart := (opcode >>> 9) &&& 0x7
  let eaModePart := (opcode >>> 3) &&& 0x7
  let eaRegPart := opcode &&& 0x7
  let opMode := (opcode >>> 8) &&& 0x1
  let dataSize := sizeOfPart ((opcode >>> 6) &&& 0x3)
  let destMode := getAddressingMode eaModePart eaRegPart
  if opMode ≠ 0 then
    { isValid := isMemoryAlterable destMode && dataSize.isSome
      derived := .eor
        { destMode, destReg := getRegisterType eaModePart eaRegPart
          srcMode := .directData, srcReg := getRegisterType 0 dataRegPart, dataSize } }
  else
    { isValid := false, derived := .eor { dataSize } }
def execute (f : TwoOperand) : CpuM M Unit :=
  readModifyWrite A (fetchSource A f) f.toOneOperand (fun src dest => dest ^^^ src) setResultFlags
def disassembly (f : TwoOperand) : CpuM M String := listTwoOperand "eor" f

end Eor

namespace Andi

def create : BitVec 16 → Instruction := createDest .andi
def execute (f : OneOperand) : CpuM M Unit :=
  readModifyWrite A (fetchImmediate A) f (fun src dest => src &&& dest) setResultFlags
def disassembly (f : OneOperand) : CpuM M String := listImmediate "andi" f

end Andi

namespace Ori

def create : BitVec 16 → Instruction := createDest .ori
def execute (f : OneOperand) : CpuM M Unit :=
  readModifyWrite A (fetchImmediate A) f (fun src dest => dest ||| src) setResultFlags
def disassembly (f : OneOperand) : CpuM M String := listImmediate "ori" f

end Ori

namespace Eori

def create : BitVec 16 → Instruction := createDest .eori
def execute (f : OneOperand) : CpuM M Unit :=
  readModifyWrite A (fetchImmediate A) f (fun src dest => dest ^^^ src) setResultFlags
def disassembly (f : OneOperand) : CpuM M String := listImmediate "eori" f

end Eori

namespace Ext

def create (opcode : BitVec 16) : Instruction :=
  let addrRegPart := opcode &&& 0x7
  let dataSizePart := (opcode >>> 6) &&& 0x1
  { derived := .ext
      { destMode := .directData
        destReg := getRegisterType 0 addrRegPart
        dataSize := some (if dataSizePart ≠ 0 then .long else .word) } }

/-- The extended value; both branches cast to `int8_t`. -/
def extended (dataSize : DataSize) (data : BitVec 32) : BitVec 32 :=
  if dataSize = .word then mask16 (castInt8 data) else castInt8 data

def execute (f : OneOperand) : CpuM M Unit := do
  skipOpcode
  let dataSize ← readSize f.dataSize
  let data ← A.getData f.destMode f.destReg (if dataSize = .word then .byte else .word)
  let result := extended dataSize data
  A.setData f.destMode f.destReg dataSize result
  setLogicFlags dataSize result
def disassembly (f : OneOperand) : CpuM M String :=
  listOneOperand (fun size => "ext" ++ Disassembler.sizeSuffix size) f

end Ext

namespace Tst

def create (opcode : BitVec 16) : Instruction :=
  let eaModePart := (opcode >>> 3) &&& 0x7
  let eaRegPart := opcode &&& 0x7
  let dataSize := sizeOfPart ((opcode >>> 6) &&& 0x3)
  { isValid := dataSize.isSome
    derived := .tst
      { destMode := getAddressingMode eaModePart eaRegPart
        destReg := getRegisterType eaModePart eaRegPart
        -- the field is initialised in the class
        dataSize := some (dataSize.getD .long) } }
def execute (f : OneOperand) : CpuM M Unit := do
  skipOpcode
  let dataSize ← readSize f.dataSize
  let eaData ← A.getData f.destMode f.destReg dataSize
  setLogicFlags dataSize eaData
def disassembly (f : OneOperand) : CpuM M String := listOneOperand (fun _ => "tst ") f

end Tst

/-- `static_cast<BitManip::InstructionType>`. -/
def BitManipType.ofPart (part : BitVec 16) : BitManipType :=
  match part.toNat with
  | 0 => .btst
  | 1 => .bchg
  | 2 => .bclr
  | _ => .bset

/-- The value of `instruction_str`. -/
def BitManipType.text : BitManipType → String
  | .btst => "btst"
  | .bchg => "bchg"
  | .bclr => "bclr"
  | .bset => "bset"

namespace BitManip

def create (opcode : BitVec 16) : Instruction :=
  let destModePart := (opcode >>> 3) &&& 0x7
  let destRegPart := opcode &&& 0x7
  let srcModePart := (opcode >>> 8) &&& 0x1
  let srcRegPart := (opcode >>> 9) &&& 0x7
  let instructionType := BitManipType.ofPart ((opcode >>> 6) &&& 0x3)
  let destMode := getAddressingMode destModePart destRegPart
  { isValid := isDataAlterable destMode
    derived := .bitManip
      { destMode
        destReg := getRegisterType destModePart destRegPart
        srcMode := if srcModePart ≠ 0 then .directData else .immediate
        srcReg := getRegisterType 0 srcRegPart
        dataSize := some (if destMode = .directData then .long else .byte)
        dataBitsModulo := if destMode = .directData then 32 else 8
        instructionType
        instructionStr := instructionType.text } }

/-- The value of the tested bit. -/
def testBitValue (destData shift : BitVec 32) : Bool := (destData >>> shift.toNat) &&& 0x1 != 0

/-- The low half of the 64-bit `result`; the masks are formed by `1ull << shift`. -/
def manipulated (instructionType : BitManipType) (destData shift : BitVec 32) : BitVec 32 :=
  let result : BitVec 64 := destData.setWidth 64
  let bit : BitVec 64 := 1 <<< shift.toNat
  match instructionType with
  | .btst => result.setWidth 32
  | .bchg => (if testBitValue destData shift then result &&& ~~~bit else result ||| bit).setWidth 32
  | .bclr => (result &&& ~~~bit).setWidth 32
  | .bset => (result ||| bit).setWidth 32

def execute (f : BitManipOperand) : CpuM M Unit := do
  skipOpcode
  let dataSize ← readSize f.dataSize
  let srcData ← A.getData f.srcMode f.srcReg dataSize
  let shift := srcData % f.dataBitsModulo.setWidth 32
  let destData ← A.getDataSilent f.destMode f.destReg dataSize
  A.setData f.destMode f.destReg dataSize (manipulated f.instructionType destData shift)
  setFlag .zero (!testBitValue destData shift)
def disassembly (f : BitManipOperand) : CpuM M String := do
  skipOpcode
  let dataSize ← readSize f.dataSize
  let src ← Disassembler.effectiveAddress f.srcMode f.srcReg dataSize
  let dest ← Disassembler.effectiveAddress f.destMode f.destReg dataSize
  return f.instructionStr ++ " " ++ src ++ ", " ++ dest

end BitManip

/-- `static_cast<BitShift::InstructionType>`. -/
def BitShiftType.ofPart (part : BitVec 16) : BitShiftType :=
  match part.toNat with
  | 0 => .as
  | 1 => .ls
  | 2 => .rox
  | _ => .ro

/-- The value of `instruction_str` before the direction is appended. -/
def BitShiftType.text : BitShiftType → String
  | .as => "as"
  | .ls => "ls"
  | .rox => "rox"
  | .ro => "ro"

namespace BitShift

def create (opcode : BitVec 16) : Instruction :=
  let addrModePart := (opcode >>> 3) &&& 0x7
  let addrRegPart := opcode &&& 0x7
  let directionPart := (opcode >>> 8) &&& 0x1
  let dataSizePart := (opcode >>> 6) &&& 0x3
  let directionLeft : Bool := directionPart = 1
  let dataSize : DataSize := match dataSizePart.toNat with
    | 0 => .byte
    | 1 => .word
    | 2 => .long
    | _ => .word
  let isMemory : Bool := dataSizePart = 3
  let instructionTypePart := (opcode >>> (if isMemory then 3 else 9)) &&& 0x3
  let isImm : Bool := (opcode >>> 5) &&& 0x1 = 1
  let rotationPart := (opcode >>> 9) &&& 0x7
  let instructionType := BitShiftType.ofPart instructionTypePart
  let instructionStr := instructionType.text ++ (if directionLeft then "l" else "r")
  if isMemory then
    let addrMode := getAddressingMode addrModePart addrRegPart
    { isValid := isMemoryAlterable addrMode
      derived := .bitShift
        { addrMode, addrReg := getRegisterType addrModePart addrRegPart,
          shiftReg := regD0, immShift := 1
          directionLeft, isImm, isMemory, instructionType, instructionStr, dataSize } }
  else
    { derived := .bitShift
        { addrMode := getAddressingMode 0 0
          addrReg := getRegisterType 0 addrRegPart
          shiftReg := if isImm then regD0 else getRegisterType 0 rotationPart
          immShift := if isImm then (rotationPart + 1).setWidth 8 else 0
          directionLeft, isImm, isMemory, instructionType, instructionStr, dataSize } }

/-- The flags `C` and `X` set by the shifts and by `rox`. -/
def setCarryExtend (value : BitVec 64) : CpuM M Unit := do
  setFlag .carry (value != 0)
  setFlag .extend (value != 0)

/-- The branch `ROX`; on the way right the operand is not read into `result`. -/
def rotateExtended (f : BitShiftOperand) (addrData shift : BitVec 64) : CpuM M (BitVec 64) := do
  let flag ← getFlag .carry
  let carry : BitVec 64 := if flag then 1 else 0
  if f.directionLeft then
    match f.dataSize with
    | .byte => do
      let result := rol9 (addrData ||| lsl carry 8) shift
      setCarryExtend result
      return result
    | .word => do
      let result := rol17 (addrData ||| lsl carry 16) shift
      setCarryExtend (lsr result 8)
      return result
    | .long => do
      let result := rol33 (addrData ||| lsl carry 32) shift
      setCarryExtend (lsr result 24)
      return result
  else
    match f.dataSize with
    | .byte => do
      let result := ror9 (0 ||| lsl carry 8) shift
      setCarryExtend result
      return result
    | .word => do
      let result := ror17 (0 ||| lsl carry 16) shift
      setCarryExtend (lsr result 8)
      return result
    | .long => do
      let result := ror33 (0 ||| lsl carry 32) shift
      setCarryExtend (lsr result 24)
      return result

/-- The switch on `instruction_type`: the result and the flags `C` and `X`. -/
def shifted (f : BitShiftOperand) (addrData shift : BitVec 64) : CpuM M (BitVec 64) :=
  match f.instructionType with
  | .as =>
    if f.directionLeft then do
      setCarryExtend (lsl addrData shift &&& 1)
      return lsl addrData shift
    else do
      setCarryExtend (lsr addrData (shift - 1) &&& 1)
      return if isNegative addrData f.dataSize then
        lsr addrData shift ||| ~~~(lsr (~~~0) shift) else lsr addrData shift
  | .ls =>
    if f.directionLeft then do
      setCarryExtend (lsl addrData shift &&& 1)
      return lsl addrData shift
    else do
      setCarryExtend (lsr addrData (shift - 1) &&& 1)
      return lsr addrData shift
  | .rox => rotateExtended f addrData shift
  | .ro =>
    if f.directionLeft then do
      setFlag .carry (lsr addrData (8 - shift) != 0)
      return if rol addrData shift f.dataSize then 1 else 0
    else do
      setFlag .carry (lsl addrData (9 - shift) != 0)
      return if ror addrData shift f.dataSize then 1 else 0

/-- The result is never stored: only flags and the program counter change. -/
def execute (f : BitShiftOperand) : CpuM M Unit := do
  skipOpcode
  let addrData ← A.getDataSilent f.addrMode f.addrReg f.dataSize
  let shift ← if !f.isMemory && !f.isImm then do
      let shiftData ← A.getData .directData f.shiftReg f.dataSize
      pure ((shiftData % 64).setWidth 64)
    else pure (f.immShift.setWidth 64)
  let result ← shifted f (addrData.setWidth 64) shift
  setFlag .negative (isNegative result f.dataSize)
  setFlag .zero (isZero result f.dataSize)
  setFlag .overflow false

/-- `imm_shift` is a `uint8_t`, which a stream prints as a character. -/
def disassembly (f : BitShiftOperand) : CpuM M String := do
  skipOpcode
  if f.isImm then
    let addr ← Disassembler.effectiveAddress f.addrMode f.addrReg f.dataSize
    return f.instructionStr ++ " " ++ " #$" ++
      String.singleton (Char.ofNat f.immShift.toNat) ++ ", " ++ addr
  else
    let shift ← Disassembler.effectiveAddress .directData f.shiftReg f.dataSize
    let addr ← Disassembler.effectiveAddress f.addrMode f.addrReg f.dataSize
    return f.instructionStr ++ " " ++ " " ++ shift ++ ", " ++ addr

end BitShift

end M68kEmu
