import M68kEmu.Decode.Valid
import M68kEmu.Frame.Parts

/-!
# The operands and the destinations of an instruction

* `Derived.listed`: the opcode word and the operands, in the order in which the
  disassembler prints them;
* `Derived.consumed`: the parts that `execute` steps over.  They are the listed ones, except for the
  shifts, which only step over the opcode;
* `Derived.written`: the registers that `execute` assigns outright: a register destination, the
  stack pointer and the frame pointer of the instructions that use the stack, and the program
  counter of those that jump.
-/

namespace M68kEmu

/-- An operand of an object; `dataSize` is unset only in objects that the constructor rejects. -/
def operandOf (mode : AddressingMode) (reg : ℕ) (dataSize : Option DataSize) : Part :=
  .operand mode reg (dataSize.getD .long)

/-- The destination operand. -/
def OneOperand.destPart (f : OneOperand) : Part := operandOf f.destMode f.destReg f.dataSize

/-- The source operand. -/
def TwoOperand.srcPart (f : TwoOperand) : Part := operandOf f.srcMode f.srcReg f.dataSize

/-- An immediate source. -/
def OneOperand.immPart (f : OneOperand) : Part := operandOf .immediate regD0 f.dataSize

/-- The displacement of a branch. -/
def BccOperand.parts (f : BccOperand) : List Part :=
  if f.dataSize = .byte then [] else [.operand .immediate regD0 f.dataSize]

namespace Derived

/-- The opcode word and the operands. -/
def listed : Derived → List Part
  | .add f | .adda f | .addx f | .and f | .cmp f | .cmpa f | .eor f | .or f | .sub f
  | .suba f | .subx f =>
    [.opcode, f.srcPart, f.destPart]
  | .addi f | .andi f | .cmpi f | .eori f | .ori f | .subi f => [.opcode, f.immPart, f.destPart]
  | .clr f | .ext f | .jmp f | .jsr f | .neg f | .pea f | .tst f => [.opcode, f.destPart]
  | .addq f | .moveq f | .subq f => [.opcode, f.destPart]
  | .div f | .mul f => [.opcode, f.srcPart, f.destPart]
  | .bitManip f => [.opcode, f.srcPart, f.destPart]
  | .move f => [.opcode, f.srcPart, f.destPart]
  | .bitShift f =>
    if f.isImm then [.opcode, .operand f.addrMode f.addrReg f.dataSize]
    else [.opcode, .operand .directData f.shiftReg f.dataSize,
      .operand f.addrMode f.addrReg f.dataSize]
  | .lea f =>
    [.opcode, .operand f.srcMode f.srcReg f.dataSize, .operand .directAddr f.addrReg f.dataSize]
  | .scc f => [.opcode, .operand f.destMode f.destReg .byte]
  | .bcc f => .opcode :: f.parts
  | .link _ => [.opcode, .operand .immediate regD0 .word]
  | .illegal | .nop | .rts | .unlk _ => [.opcode]

/-- The parts that `execute` steps over. -/
def consumed : Derived → List Part
  | .bitShift _ => [.opcode]
  | d => d.listed

theorem consumed_eq_listed {d : Derived} (h : d.cls ≠ .bitShift) : d.consumed = d.listed := by
  cases d <;> first | rfl | exact absurd rfl h

end Derived

/-- The register that a destination assigns. -/
def assigned (mode : AddressingMode) (reg : ℕ) : List ℕ :=
  if mode = .directData ∨ mode = .directAddr then [reg] else []

/-- The registers that `execute` assigns outright. -/
def Derived.written : Derived → List ℕ
  | .add f | .adda f | .addx f | .and f | .eor f | .or f | .sub f | .suba f | .subx f =>
    assigned f.destMode f.destReg
  | .addi f | .andi f | .clr f | .eori f | .ext f | .neg f | .ori f | .subi f =>
    assigned f.destMode f.destReg
  | .addq f | .moveq f | .subq f => assigned f.destMode f.destReg
  | .div f | .mul f => assigned f.destMode f.destReg
  | .bitManip f => assigned f.destMode f.destReg
  | .move f => assigned f.destMode f.destReg
  | .scc f => assigned f.destMode f.destReg
  | .lea f => [f.addrReg]
  | .link addrReg | .unlk addrReg => [addrReg, regUSP]
  | .pea _ => [regUSP]
  | .jsr _ | .rts => [regUSP, regPC]
  | .bcc f => if f.condition = .false then [regUSP, regPC] else [regPC]
  | .jmp _ => [regPC]
  | .bitShift _ | .cmp _ | .cmpa _ | .cmpi _ | .illegal | .nop | .tst _ => []

theorem mem_assigned {mode : AddressingMode} {reg : ℕ}
    (h : mode = .directData ∨ mode = .directAddr) : reg ∈ assigned mode reg := by
  rw [assigned, if_pos h]
  exact List.mem_singleton_self reg

end M68kEmu
