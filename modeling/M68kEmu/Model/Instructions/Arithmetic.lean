import M68kEmu.Model.Instruction

/-!
# The arithmetic and compare classes

`Add`, `Sub`, `Addi`, `Subi`, `Addq`, `Subq`, `Adda`, `Suba`, `Addx`, `Subx`, `Neg`, `Cmp`, `Cmpi`,
`Cmpa`, `Mul` and `Div`.  Sums and differences are formed in `uint32_t` before they are widened to
the 64-bit `result`.
-/

namespace M68kEmu

variable {M : Type} [IMemory M] (A : Accessors M)

namespace Add

def create : BitVec 16 → Instruction := createOpMode .add
def execute (f : TwoOperand) : CpuM M Unit :=
  readModifyWrite A (fetchSource A f) f.toOneOperand (fun src dest => src + dest) setArithmeticFlags
def disassembly (f : TwoOperand) : CpuM M String := listTwoOperand "add" f

end Add

namespace Sub

def create : BitVec 16 → Instruction := createOpMode .sub
def execute (f : TwoOperand) : CpuM M Unit :=
  readModifyWrite A (fetchSource A f) f.toOneOperand (fun src dest => dest - src) setArithmeticFlags
def disassembly (f : TwoOperand) : CpuM M String := listTwoOperand "sub" f

end Sub

namespace Addi

def create : BitVec 16 → Instruction := createDest .addi
def execute (f : OneOperand) : CpuM M Unit :=
  readModifyWrite A (fetchImmediate A) f (fun src dest => src + dest) setArithmeticFlags
def disassembly (f : OneOperand) : CpuM M String := listImmediate "addi" f

end Addi

namespace Subi

def create : BitVec 16 → Instruction := createDest .subi
def execute (f : OneOperand) : CpuM M Unit :=
  readModifyWrite A (fetchImmediate A) f (fun src dest => dest - src) setArithmeticFlags
def disassembly (f : OneOperand) : CpuM M String := listImmediate "subi" f

end Subi

/-- The flags of `Addq` and `Subq`, which an address-register destination leaves alone. -/
def setQuickFlags (destMode : AddressingMode) (size : DataSize)
    (srcData destData result : BitVec 32) : CpuM M Unit :=
  if destMode ≠ .directAddr then setArithmeticFlags size srcData destData result else pure ()

namespace Addq

def create : BitVec 16 → Instruction := createQuick .addq
def execute (f : QuickOperand) : CpuM M Unit :=
  readModifyWrite A (fun _ => pure (f.immData.setWidth 32)) f.toOneOperand
    (fun src dest => src + dest) (setQuickFlags f.destMode)
def disassembly (f : QuickOperand) : CpuM M String :=
  listOneOperand (fun size => "addq" ++ Disassembler.sizeSuffix size ++ " #$" ++
    hexText f.immData.toNat ++ ", ") f.toOneOperand

end Addq

namespace Subq

def create : BitVec 16 → Instruction := createQuick .subq
def execute (f : QuickOperand) : CpuM M Unit :=
  readModifyWrite A (fun _ => pure (f.immData.setWidth 32)) f.toOneOperand
    (fun src dest => dest - src) (setQuickFlags f.destMode)
def disassembly (f : QuickOperand) : CpuM M String :=
  listOneOperand (fun size => "subq" ++ Disassembler.sizeSuffix size ++ " #$" ++
    hexText f.immData.toNat ++ ", ") f.toOneOperand

end Subq

namespace Adda

def create : BitVec 16 → Instruction := createAddr .adda
def execute (f : TwoOperand) : CpuM M Unit :=
  readModifyWrite A (fetchSource A f) f.toOneOperand (fun src dest => src + dest)
    (fun _ _ _ _ => pure ())
def disassembly (f : TwoOperand) : CpuM M String := listTwoOperand "adda" f

end Adda

namespace Suba

def create : BitVec 16 → Instruction := createAddr .suba
def execute (f : TwoOperand) : CpuM M Unit :=
  readModifyWrite A (fetchSource A f) f.toOneOperand (fun src dest => dest - src)
    (fun _ _ _ _ => pure ())
def disassembly (f : TwoOperand) : CpuM M String := listTwoOperand "suba" f

end Suba

namespace Addx

def create : BitVec 16 → Instruction := createExtended .addx
def execute (f : TwoOperand) : CpuM M Unit :=
  extendedArithmetic A f (fun src dest extend => src + dest + extend)
def disassembly (f : TwoOperand) : CpuM M String := listTwoOperand "addx" f

end Addx

namespace Subx

def create : BitVec 16 → Instruction := createExtended .subx
def execute (f : TwoOperand) : CpuM M Unit :=
  extendedArithmetic A f (fun src dest extend => dest - src - extend)
def disassembly (f : TwoOperand) : CpuM M String := listTwoOperand "subx" f

end Subx

namespace Neg

def create : BitVec 16 → Instruction := createDest .neg
def execute (f : OneOperand) : CpuM M Unit :=
  readModifyWrite A (fun _ => pure 0) f (fun src dest => src - dest) setArithmeticFlags
def disassembly (f : OneOperand) : CpuM M String := listOneOperand (fun _ => "neg ") f

end Neg

namespace Cmp

def create (opcode : BitVec 16) : Instruction :=
  let dataRegPart := (opcode >>> 9) &&& 0x7
  let eaModePart := (opcode >>> 3) &&& 0x7
  let eaRegPart := opcode &&& 0x7
  let dataSize := sizeOfPart ((opcode >>> 6) &&& 0x3)
  { isValid := dataSize.isSome
    derived := .cmp
      { destMode := .directData
        destReg := getRegisterType 0 dataRegPart
        srcMode := getAddressingMode eaModePart eaRegPart
        srcReg := getRegisterType eaModePart eaRegPart
        dataSize } }
def execute (f : TwoOperand) : CpuM M Unit := compareWith A (fetchSource A f) f.toOneOperand
def disassembly (f : TwoOperand) : CpuM M String := listTwoOperand "cmp" f

end Cmp

namespace Cmpi

def create : BitVec 16 → Instruction := createDest .cmpi
def execute (f : OneOperand) : CpuM M Unit := compareWith A (fetchImmediate A) f
def disassembly (f : OneOperand) : CpuM M String := listImmediate "cmpi" f

end Cmpi

namespace Cmpa

def create : BitVec 16 → Instruction := createAddr .cmpa

/-- The source; a word is sign-extended. -/
def fetchExtended (f : TwoOperand) (size : DataSize) : CpuM M (BitVec 32) := do
  let srcData ← A.getData f.srcMode f.srcReg size
  return if size = .word then castInt16 srcData else srcData

def execute (f : TwoOperand) : CpuM M Unit := compareWith A (fetchExtended A f) f.toOneOperand
def disassembly (f : TwoOperand) : CpuM M String := listTwoOperand "cmpa" f

end Cmpa

namespace Mul

def create : BitVec 16 → Instruction := createSigned .mul

/-- The product, formed in `int` and read as a `uint32_t`. -/
def product (isSigned : Bool) (srcData destData : BitVec 16) : BitVec 32 :=
  if isSigned then srcData.signExtend 32 * destData.signExtend 32
  else srcData.setWidth 32 * destData.setWidth 32

def execute (f : SignedOperand) : CpuM M Unit := do
  skipOpcode
  let dataSize ← readSize f.dataSize
  let srcData ← A.getData f.srcMode f.srcReg dataSize
  let destData ← A.getDataSilent f.destMode f.destReg dataSize
  let result := product f.isSigned (srcData.setWidth 16) (destData.setWidth 16)
  A.setData f.destMode f.destReg .long result
  setLogicFlags .long result
def disassembly (f : SignedOperand) : CpuM M String :=
  listTwoOperand (if f.isSigned then "muls" else "mulu") f.toTwoOperand

end Mul

namespace Div

def create : BitVec 16 → Instruction := createSigned .div

/-- Quotient and remainder, truncated toward zero, packed into one word: the
remainder in the high half. -/
def packed (isSigned : Bool) (srcData destData : BitVec 16) : BitVec 32 :=
  if isSigned then (destData.sdiv srcData).setWidth 32 |||
    ((destData.srem srcData).setWidth 32 <<< 16)
  else (destData / srcData).setWidth 32 ||| ((destData % srcData).setWidth 32 <<< 16)

def execute (f : SignedOperand) : CpuM M Unit := do
  skipOpcode
  let dataSize ← readSize f.dataSize
  let srcData ← A.getData f.srcMode f.srcReg dataSize
  let destData ← A.getDataSilent f.destMode f.destReg dataSize
  let srcWord : BitVec 16 := srcData.setWidth 16
  let destWord : BitVec 16 := destData.setWidth 16
  -- the source divides without a check
  if srcWord = 0 then
    throw .divideByZero
  let result := packed f.isSigned srcWord destWord
  A.setData f.destMode f.destReg .long result
  setLogicFlags .word (mask16 result)
def disassembly (f : SignedOperand) : CpuM M String :=
  listTwoOperand (if f.isSigned then "mivs" else "divu") f.toTwoOperand

end Div

end M68kEmu
