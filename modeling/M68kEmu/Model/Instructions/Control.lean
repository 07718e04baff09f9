import M68kEmu.Model.Instruction

/-!
# The classes that change the flow of control

`Bcc` (with `BRA` and `BSR`), `Jmp`, `Jsr`, `Rts`, `Nop` and `Illegal`.
-/

namespace M68kEmu

variable {M : Type} [IMemory M] (A : Accessors M)

namespace Bcc

def create (opcode : BitVec 16) : Instruction :=
  let condPart := (opcode >>> 8) &&& 0xF
  let displacement8 : BitVec 8 := (opcode &&& 0xFF).setWidth 8
  { derived := .bcc
      { condition := getCondition condPart
        displacement8
        dataSize := if displacement8 = 0x00 then .word else if displacement8 = 0xFF then .long
        else .byte } }

/-- The switch on `data_size` that reads the displacement, given the read of an
immediate operand. -/
def displacement (immediate : DataSize → CpuM M (BitVec 32)) (f : BccOperand) :
    CpuM M (BitVec 32) :=
  match f.dataSize with
  | .byte => return castInt8 (f.displacement8.setWidth 32)
  | .word => do
    let data ← immediate f.dataSize
    return castInt16 data
  | .long => immediate f.dataSize

/-- The local `pc` stays at the end of the opcode word: the branch is taken from there,
and `BSR` pushes it. -/
def execute (f : BccOperand) : CpuM M Unit := do
  let opcodePc ← getReg regPC .long
  let pc := opcodePc + 2
  setReg regPC .long pc
  let displacement ← displacement (A.getData .immediate regD0) f
  match f.condition with
  | .true => setReg regPC .long (pc + displacement)
  | .false => do
    CPUState.stackPush .long pc
    setReg regPC .long (pc + displacement)
  | condition => do
    let condResult ← CPUState.checkCondition condition
    if condResult then
      setReg regPC .long (pc + displacement)

/-- The text before the target. -/
def mnemonic : Condition → String
  | .true => "bra"
  | .false => "bsr"
  | condition => "b" ++ Disassembler.conditionSuffix condition

def disassembly (f : BccOperand) : CpuM M String := do
  let opcodePc ← getReg regPC .long
  let pc := opcodePc + 2
  setReg regPC .long pc
  let displacement ← displacement (CPUState.getData .immediate regD0) f
  return mnemonic f.condition ++ " $" ++ hex32 (pc + displacement)

end Bcc

namespace Jmp

def create : BitVec 16 → Instruction := createControl .jmp
def execute (f : OneOperand) : CpuM M Unit := do
  skipOpcode
  let dataSize ← readSize f.dataSize
  let destAddr ← A.getControlAddress f.destMode f.destReg dataSize
  setReg regPC .long destAddr
def disassembly (f : OneOperand) : CpuM M String := listOneOperand (fun _ => "jmp ") f

end Jmp

namespace Jsr

def create : BitVec 16 → Instruction := createControl .jsr
def execute (f : OneOperand) : CpuM M Unit := do
  skipOpcode
  let dataSize ← readSize f.dataSize
  let destAddr ← A.getControlAddress f.destMode f.destReg dataSize
  let pc ← getReg regPC .long
  CPUState.stackPush .long pc
  setReg regPC .long destAddr
def disassembly (f : OneOperand) : CpuM M String := listOneOperand (fun _ => "jsr ") f

end Jsr

namespace Rts

def create (_opcode : BitVec 16) : Instruction := { derived := .rts }

/-- The program counter is not stepped over the opcode. -/
def execute : CpuM M Unit := do
  let returnAddr ← CPUState.stackPop .long
  setReg regPC .long returnAddr
def disassembly : CpuM M String := do
  skipOpcode
  return "rts"

end Rts

namespace Nop

def create (_opcode : BitVec 16) : Instruction := { derived := .nop }
def execute : CpuM M Unit := skipOpcode
def disassembly : CpuM M String := do
  skipOpcode
  return "nop"

end Nop

namespace Illegal

def create (_opcode : BitVec 16) : Instruction := { derived := .illegal }
def execute : CpuM M Unit := do
  skipOpcode
  throw .invalidOpcode
def disassembly : CpuM M String := do
  skipOpcode
  return "illegal"

end Illegal

end M68kEmu
