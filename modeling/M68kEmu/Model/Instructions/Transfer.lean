import M68kEmu.Model.Instruction

/-!
# The classes that move data

`Move`, `Moveq`, `Lea`, `Pea`, `Clr`, `Scc`, `Link` and `Unlk`.
-/

namespace M68kEmu

variable {M : Type} [IMemory M] (A : Accessors M)

namespace Move

def create (opcode : BitVec 16) : Instruction :=
  let destModePart := (opcode >>> 6) &&& 0x7
  let destRegPart := (opcode >>> 9) &&& 0x7
  let srcModePart := (opcode >>> 3) &&& 0x7
  let srcRegPart := opcode &&& 0x7
  let destMode := getAddressingMode destModePart destRegPart
  let srcMode := getAddressingMode srcModePart srcRegPart
  let dataSize : Option DataSize := match ((opcode >>> 12) &&& 0x3).toNat with
    | 1 => some .byte
    | 2 => some .long
    | 3 => some .word
    | _ => none
  let isMovea : Bool := destMode = .directAddr
  { isValid := srcMode != .unknown && isMemoryAlterable destMode && dataSize.isSome &&
      !(isMovea && dataSize == some .byte)
    derived := .move
      { destMode, destReg := getRegisterType destModePart destRegPart
        srcMode, srcReg := getRegisterType srcModePart srcRegPart, dataSize, isMovea } }

def execute (f : MoveOperand) : CpuM M Unit := do
  skipOpcode
  let dataSize ← readSize f.dataSize
  let srcData ← A.getData f.srcMode f.srcReg dataSize
  if f.isMovea then
    A.setData f.destMode f.destReg .long (if dataSize = .word then castInt16 srcData else srcData)
  else
    A.setData f.destMode f.destReg dataSize srcData
    setFlag .negative (isNegative srcData dataSize)
    setFlag .zero (srcData == 0)
    setFlag .overflow false
    setFlag .carry false
def disassembly (f : MoveOperand) : CpuM M String :=
  listTwoOperand (if f.isMovea then "movea" else "move") f.toTwoOperand

end Move

namespace Moveq

def create (opcode : BitVec 16) : Instruction :=
  { derived := .moveq
      { destMode := .directData
        destReg := getRegisterType 0 ((opcode >>> 9) &&& 0x7)
        dataSize := some .long
        immData := (opcode &&& 0xFF).setWidth 8 } }

/-- `imm_data` is a `uint8_t`: it is zero-extended, and its sign is looked for in bit 31. -/
def execute (f : QuickOperand) : CpuM M Unit := do
  skipOpcode
  let dataSize ← readSize f.dataSize
  A.setData f.destMode f.destReg dataSize (f.immData.setWidth 32)
  setFlag .negative (isNegative f.immData dataSize)
  setFlag .zero (f.immData == 0)
  setFlag .overflow false
  setFlag .carry false
def disassembly (f : QuickOperand) : CpuM M String :=
  listOneOperand (fun _ => "moveq" ++ " #$" ++ hexText f.immData.toNat ++ ", ") f.toOneOperand

end Moveq

namespace Lea

def create (opcode : BitVec 16) : Instruction :=
  let addrRegPart := (opcode >>> 9) &&& 0x7
  let eaModePart := (opcode >>> 3) &&& 0x7
  let eaRegPart := opcode &&& 0x7
  let srcMode := getAddressingMode eaModePart eaRegPart
  { isValid := isControlAddr srcMode
    derived := .lea
      { srcMode
        srcReg := getRegisterType eaModePart eaRegPart
        addrReg := getRegisterType 1 addrRegPart
        dataSize := .long } }

def execute (f : LeaOperand) : CpuM M Unit := do
  skipOpcode
  let srcData ← A.getControlAddress f.srcMode f.srcReg f.dataSize
  A.setData .directAddr f.addrReg f.dataSize srcData
def disassembly (f : LeaOperand) : CpuM M String := do
  skipOpcode
  let src ← Disassembler.effectiveAddress f.srcMode f.srcReg f.dataSize
  let dest ← Disassembler.effectiveAddress .directAddr f.addrReg f.dataSize
  return "lea " ++ src ++ ", " ++ dest

end Lea

namespace Pea

def create : BitVec 16 → Instruction := createControl .pea
def execute (f : OneOperand) : CpuM M Unit := do
  skipOpcode
  let dataSize ← readSize f.dataSize
  let addr ← A.getControlAddress f.destMode f.destReg dataSize
  CPUState.stackPush .long addr
def disassembly (f : OneOperand) : CpuM M String := listOneOperand (fun _ => "pea ") f

end Pea

namespace Clr

def create : BitVec 16 → Instruction := createDest .clr
def execute (f : OneOperand) : CpuM M Unit := do
  skipOpcode
  let dataSize ← readSize f.dataSize
  A.setData f.destMode f.destReg dataSize 0
  setFlag .negative false
  setFlag .zero true
  setFlag .overflow false
  setFlag .carry false
def disassembly (f : OneOperand) : CpuM M String :=
  listOneOperand (fun size => "clr" ++ Disassembler.sizeSuffix size ++ " ") f

end Clr

namespace Scc

def create (opcode : BitVec 16) : Instruction :=
  let condPart := (opcode >>> 8) &&& 0xF
  let eaModePart := (opcode >>> 3) &&& 0x7
  let eaRegPart := opcode &&& 0x7
  let destMode := getAddressingMode eaModePart eaRegPart
  { isValid := isDataAlterable destMode
    derived := .scc
      { condition := getCondition condPart
        destMode
        destReg := getRegisterType eaModePart eaRegPart } }

def execute (f : SccOperand) : CpuM M Unit := do
  skipOpcode
  let condResult ← CPUState.checkCondition f.condition
  if condResult then
    A.setData f.destMode f.destReg .byte 0xFF
  else
    A.setData f.destMode f.destReg .byte 0x00
def disassembly (f : SccOperand) : CpuM M String := do
  skipOpcode
  let dest ← Disassembler.effectiveAddress f.destMode f.destReg .byte
  return "s" ++ Disassembler.conditionSuffix f.condition ++ " " ++ dest

end Scc

namespace Link

def create (opcode : BitVec 16) : Instruction :=
  { derived := .link (getRegisterType 1 (opcode &&& 0x7)) }

/-- The lines that read the displacement and step over it; the program counter is written once. -/
def fetchDisplacement : CpuM M (BitVec 32) := do
  let pc ← getReg regPC .long
  let displacement ← memGet (pc + 2) .word
  setReg regPC .long (pc + 2 + 2)
  return displacement

def execute (addrReg : ℕ) : CpuM M Unit := do
  let displacement ← fetchDisplacement
  let addrData ← getReg addrReg .long
  CPUState.stackPush .long addrData
  let stackPtr ← getReg regUSP .long
  setReg addrReg .long stackPtr
  setReg regUSP .long (stackPtr + castInt16 displacement)
def disassembly (addrReg : ℕ) : CpuM M String := do
  let displacement ← fetchDisplacement
  return "link " ++ Disassembler.reg addrReg ++ ", $" ++ hex16 displacement

end Link

namespace Unlk

def create (opcode : BitVec 16) : Instruction :=
  { derived := .unlk (getRegisterType 1 (opcode &&& 0x7)) }

def execute (addrReg : ℕ) : CpuM M Unit := do
  skipOpcode
  let addrData ← getReg addrReg .long
  setReg regUSP .long addrData
  let data ← CPUState.stackPop .long
  setReg addrReg .long data
def disassembly (addrReg : ℕ) : CpuM M String := do
  skipOpcode
  return "unlk " ++ Disassembler.reg addrReg

end Unlk

end M68kEmu
