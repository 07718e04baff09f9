import M68kEmu.Model.Instructions.Arithmetic
import M68kEmu.Model.Instructions.Control
import M68kEmu.Model.Instructions.Logic
import M68kEmu.Model.Instructions.Transfer

/-!
# The virtual functions of `Instruction`

`Derived.execute` and `Derived.disassembly` are the virtual calls: they select the method
of the object's class.
-/

namespace M68kEmu

namespace Derived

variable {M : Type} [IMemory M]

/-- `instruction->execute(cpu_state)`. -/
def execute (A : Accessors M) : Derived → CpuM M Unit
  | .add f => Add.execute A f
  | .adda f => Adda.execute A f
  | .addi f => Addi.execute A f
  | .addq f => Addq.execute A f
  | .addx f => Addx.execute A f
  | .and f => And.execute A f
  | .andi f => Andi.execute A f
  | .bcc f => Bcc.execute A f
  | .bitManip f => BitManip.execute A f
  | .bitShift f => BitShift.execute A f
  | .clr f => Clr.execute A f
  | .cmp f => Cmp.execute A f
  | .cmpa f => Cmpa.execute A f
  | .cmpi f => Cmpi.execute A f
  | .div f => Div.execute A f
  | .eor f => Eor.execute A f
  | .eori f => Eori.execute A f
  | .ext f => Ext.execute A f
  | .illegal => Illegal.execute
  | .jmp f => Jmp.execute A f
  | .jsr f => Jsr.execute A f
  | .lea f => Lea.execute A f
  | .link addrReg => Link.execute addrReg
  | .move f => Move.execute A f
  | .moveq f => Moveq.execute A f
  | .mul f => Mul.execute A f
  | .neg f => Neg.execute A f
  | .nop => Nop.execute
  | .or f => Or.execute A f
  | .ori f => Ori.execute A f
  | .pea f => Pea.execute A f
  | .rts => Rts.execute
  | .scc f => Scc.execute A f
  | .sub f => Sub.execute A f
  | .suba f => Suba.execute A f
  | .subi f => Subi.execute A f
  | .subq f => Subq.execute A f
  | .subx f => Subx.execute A f
  | .tst f => Tst.execute A f
  | .unlk addrReg => Unlk.execute addrReg

/-- `instruction->disassembly(cpu_state)`. -/
def disassembly : Derived → CpuM M String
  | .add f => Add.disassembly f
  | .adda f => Adda.disassembly f
  | .addi f => Addi.disassembly f
  | .addq f => Addq.disassembly f
  | .addx f => Addx.disassembly f
  | .and f => And.disassembly f
  | .andi f => Andi.disassembly f
  | .bcc f => Bcc.disassembly f
  | .bitManip f => BitManip.disassembly f
  | .bitShift f => BitShift.disassembly f
  | .clr f => Clr.disassembly f
  | .cmp f => Cmp.disassembly f
  | .cmpa f => Cmpa.disassembly f
  | .cmpi f => Cmpi.disassembly f
  | .div f => Div.disassembly f
  | .eor f => Eor.disassembly f
  | .eori f => Eori.disassembly f
  | .ext f => Ext.disassembly f
  | .illegal => Illegal.disassembly
  | .jmp f => Jmp.disassembly f
  | .jsr f => Jsr.disassembly f
  | .lea f => Lea.disassembly f
  | .link addrReg => Link.disassembly addrReg
  | .move f => Move.disassembly f
  | .moveq f => Moveq.disassembly f
  | .mul f => Mul.disassembly f
  | .neg f => Neg.disassembly f
  | .nop => Nop.disassembly
  | .or f => Or.disassembly f
  | .ori f => Ori.disassembly f
  | .pea f => Pea.disassembly f
  | .rts => Rts.disassembly
  | .scc f => Scc.disassembly f
  | .sub f => Sub.disassembly f
  | .suba f => Suba.disassembly f
  | .subi f => Subi.disassembly f
  | .subq f => Subq.disassembly f
  | .subx f => Subx.disassembly f
  | .tst f => Tst.disassembly f
  | .unlk addrReg => Unlk.disassembly addrReg

end Derived

end M68kEmu
