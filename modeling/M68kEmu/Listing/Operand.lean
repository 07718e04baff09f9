import M68kEmu.Decode.Regular
import M68kEmu.Frame.Classes
import M68kEmu.Listing.Line

/-!
# The line that a method prints

`operandField` is what the listing of an operand shows, from its mode, its register and its
extension words. `Derived.line` puts together the line of an object at an address; it is what
`disassembly` prints (`disassembly_eq_ok`).
-/

namespace M68kEmu

open Outcome Disassembler

/-- What the listing of an operand shows, given its extension words. -/
def operandField (mode : AddressingMode) (reg : ℕ) (size : DataSize) (w : BitVec 32) : Field :=
  match mode with
  | .directAddr | .directData => .register reg
  | .indirect => .indirect reg
  | .indirectPostincrement => .postincrement reg
  | .indirectPredecrement => .predecrement reg
  | .indirectDisplacement => .displacement (w.setWidth 16).toNat reg
  | .indirectIndex => .index ((castInt8 w).setWidth 16).toNat reg (extReg w)
  | .pcDisplacement => .displacement (castInt16 w + 2).toNat regPC
  | .pcIndex => .index (castInt8 w + 2).toNat regPC (extReg w)
  | .absWord => .absWord w.toNat
  | .absLong => .absLong w.toNat
  | .immediate => .immediate (if size = .byte then mask8 w else w).toNat
  | .unknown => .unknown

/-- The extension words of an operand at an address. -/
def extensionAt (mem : BaseMemory) (pc : BitVec 32) (mode : AddressingMode) (size : DataSize) :
    BitVec 32 :=
  match extSize mode size with
  | some e => mem.read pc e
  | none => 0

section Listed

variable {mode : AddressingMode} {r : ℕ} {size : DataSize} {s t : CPUState BaseMemory}
    {text : String}

/-- `effectiveAddress` prints the field of its operand. -/
theorem effectiveAddress_eq_ok (h : effectiveAddress mode r size s = .ok text t) :
    text = (operandField mode r size (extensionAt s.memory (s.reg regPC) mode size)).text ∧
    t.memory = s.memory ∧ t.reg regPC = s.reg regPC + (Part.operand mode r size).length := by
  cases mode with
  | directData | directAddr | indirect | indirectPostincrement | indirectPredecrement | unknown =>
    obtain ⟨rfl, rfl⟩ := EStateM.Result.ok.inj h
    exact ⟨rfl, rfl, (BitVec.add_zero _).symm⟩
  | indirectDisplacement | indirectIndex | pcDisplacement | pcIndex | absWord | absLong
  | immediate =>
    simp [effectiveAddress, -bind_pure_comp] at h
    obtain ⟨-, rfl, rfl⟩ := h
    refine ⟨rfl, rfl, ?_⟩
    rw [CPUState.reg_withReg_self named_regPC]
    rfl

end Listed

/-! ### The operands of an object -/

/-- How `execute` uses an operand. -/
inductive Use where
  /-- the address is taken, or written to -/
  | address
  /-- `getData` reads it -/
  | get
  /-- `getDataSilent` reads it -/
  | getSilent
  deriving DecidableEq, Repr

/-- An operand of an object. -/
structure Operand where
  use : Use
  mode : AddressingMode
  reg : ℕ
  size : DataSize
  deriving DecidableEq, Repr

/-- The destination operand. -/
def OneOperand.dest (f : OneOperand) (use : Use) : Operand :=
  ⟨use, f.destMode, f.destReg, f.dataSize.getD .long⟩

/-- The source operand. -/
def TwoOperand.src (f : TwoOperand) : Operand := ⟨.get, f.srcMode, f.srcReg, f.dataSize.getD .long⟩

/-- An immediate source. -/
def OneOperand.imm (f : OneOperand) : Operand := ⟨.get, .immediate, regD0, f.dataSize.getD .long⟩

namespace Operand

/-- What the listing of the operand shows at an address. -/
def field (o : Operand) (mem : BaseMemory) (pc : BitVec 32) : Field :=
  operandField o.mode o.reg o.size (extensionAt mem pc o.mode o.size)

/-- The operand as a part of an instruction. -/
def part (o : Operand) : Part := .operand o.mode o.reg o.size

end Operand

/-- The fields of the operands from an address on. -/
def fieldsAt (mem : BaseMemory) (pc : BitVec 32) : List Operand → List Field
  | [] => []
  | o :: os => o.field mem pc :: fieldsAt mem (pc + o.part.length) os

/-- The displacement of a branch whose opcode word ends at the address. -/
def BccOperand.displacementAt (f : BccOperand) (mem : BaseMemory) (pc : BitVec 32) : BitVec 32 :=
  match f.dataSize with
  | .byte => castInt8 (f.displacement8.setWidth 32)
  | .word => castInt16 (mem.read pc .word)
  | .long => mem.read pc .long

namespace Derived

/-- The operands that have extension words or data, in the order of the listing. -/
def operandList : Derived → List Operand
  | .add f | .adda f | .addx f | .and f | .eor f | .or f | .sub f | .suba f | .subx f =>
    [f.src, f.dest .getSilent]
  | .cmp f | .cmpa f => [f.src, f.dest .get]
  | .addi f | .andi f | .eori f | .ori f | .subi f => [f.imm, f.dest .getSilent]
  | .cmpi f => [f.imm, f.dest .get]
  | .neg f => [f.dest .getSilent]
  | .ext f | .tst f => [f.dest .get]
  | .clr f | .jmp f | .jsr f | .pea f => [f.dest .address]
  | .addq f | .subq f => [f.dest .getSilent]
  | .moveq f => [f.dest .address]
  | .div f | .mul f => [f.src, f.dest .getSilent]
  | .bitManip f => [f.src, f.dest .getSilent]
  | .move f => [f.src, f.dest .address]
  | .bitShift f => [⟨.getSilent, f.addrMode, f.addrReg, f.dataSize⟩]
  | .lea f =>
    [⟨.address, f.srcMode, f.srcReg, f.dataSize⟩, ⟨.address, .directAddr, f.addrReg, f.dataSize⟩]
  | .scc f => [⟨.address, f.destMode, f.destReg, .byte⟩]
  | .bcc _ | .illegal | .link _ | .nop | .rts | .unlk _ => []

/-- The name in the listing. -/
def name : Derived → Name
  | .add _ => .add
  | .adda _ => .adda
  | .addi _ => .addi
  | .addq _ => .addq
  | .addx _ => .addx
  | .and _ => .and
  | .andi _ => .andi
  | .bcc f => .bcc f.condition
  | .bitManip f => .bitManip f.instructionType
  | .bitShift f => .bitShift f.instructionType f.directionLeft
  | .clr _ => .clr
  | .cmp _ => .cmp
  | .cmpa _ => .cmpa
  | .cmpi _ => .cmpi
  | .div f => .div f.isSigned
  | .eor _ => .eor
  | .eori _ => .eori
  | .ext _ => .ext
  | .illegal => .illegal
  | .jmp _ => .jmp
  | .jsr _ => .jsr
  | .lea _ => .lea
  | .link _ => .link
  | .move f => .move f.isMovea
  | .moveq _ => .moveq
  | .mul f => .mul f.isSigned
  | .neg _ => .neg
  | .nop => .nop
  | .or _ => .or
  | .ori _ => .ori
  | .pea _ => .pea
  | .rts => .rts
  | .scc f => .scc f.condition
  | .sub _ => .sub
  | .suba _ => .suba
  | .subi _ => .subi
  | .subq _ => .subq
  | .subx _ => .subx
  | .tst _ => .tst
  | .unlk _ => .unlk

/-- The size that the listing shows. -/
def suffix : Derived → Option DataSize
  | .add f | .adda f | .addx f | .and f | .cmp f | .cmpa f | .eor f | .or f | .sub f | .suba f
  | .subx f => f.dataSize
  | .addi f | .andi f | .clr f | .cmpi f | .eori f | .ext f | .ori f | .subi f => f.dataSize
  | .addq f | .subq f => f.dataSize
  | .div f | .mul f => f.dataSize
  | .move f => f.dataSize
  | _ => none

/-- The fields that are in the opcode word. -/
def opcodeFields : Derived → List Field
  | .addq f | .moveq f | .subq f => [.immediate f.immData.toNat]
  | .bitShift f => [if f.isImm then .count f.immShift.toNat else .countRegister f.shiftReg]
  | .link addrReg | .unlk addrReg => [.register addrReg]
  | _ => []

/-- The fields that follow from the words after the opcode word. -/
def extensionFields (mem : BaseMemory) (pc : BitVec 32) : Derived → List Field
  | .link _ => [.target ((mem.read pc .word).setWidth 16).toNat]
  | .bcc f => [.target (pc + f.displacementAt mem pc).toNat]
  | d => fieldsAt mem pc d.operandList

/-- The line of the object, whose opcode word is at the address. -/
def line (d : Derived) (mem : BaseMemory) (pc : BitVec 32) : Line :=
  ⟨d.name, d.suffix, d.opcodeFields ++ d.extensionFields mem (pc + 2)⟩

end Derived

/-! ### The methods -/

section Methods

variable {s t : CPUState BaseMemory} {text : String} {size : DataSize}

theorem skipOpcode_bind {α : Type} {f : Unit → CpuM BaseMemory α}
    {r : EStateM.Result Fault (CPUState BaseMemory) α}
    (h : (skipOpcode >>= f) s = r) : f () (s.withReg regPC (s.reg regPC + 2)) = r := by
  rw [← h, bind_of_ok (skipOpcode_apply s)]

theorem reg_skipOpcode : (s.withReg regPC (s.reg regPC + 2)).reg regPC = s.reg regPC + 2 :=
  CPUState.reg_withReg_self named_regPC

/-- Two operands, one after the other. -/
theorem effectiveAddress_two (o p : Operand) (g : String → String → String)
    (h : (do
      let src ← effectiveAddress o.mode o.reg o.size
      let dest ← effectiveAddress p.mode p.reg p.size
      return g src dest) s = .ok text t) :
    text = g (o.field s.memory (s.reg regPC)).text
      (p.field s.memory (s.reg regPC + o.part.length)).text := by
  obtain ⟨src, s₁, hsrc, hrest⟩ := bind_eq_ok.1 h
  obtain ⟨dest, s₂, hdest, hdone⟩ := bind_eq_ok.1 hrest
  obtain ⟨rfl, rfl⟩ := EStateM.Result.ok.inj hdone
  obtain ⟨rfl, hmem, hpc⟩ := effectiveAddress_eq_ok hsrc
  obtain ⟨rfl, -, -⟩ := effectiveAddress_eq_ok hdest
  rw [hmem, hpc]
  rfl

theorem effectiveAddress_one (o : Operand) (g : String → String)
    (h : (do
      let dest ← effectiveAddress o.mode o.reg o.size
      return g dest) s = .ok text t) : text = g (o.field s.memory (s.reg regPC)).text := by
  obtain ⟨dest, s₁, hdest, hdone⟩ := bind_eq_ok.1 h
  obtain ⟨rfl, rfl⟩ := EStateM.Result.ok.inj hdone
  obtain ⟨rfl, -, -⟩ := effectiveAddress_eq_ok hdest
  rfl

theorem listTwoOperand_eq_ok {n : Name} {label : String} (hlabel : label = n.text) (hext : n ≠ .ext)
    (f : TwoOperand) (use : Use) (h : listTwoOperand label f s = .ok text t) :
    text = Line.text ⟨n, f.dataSize, fieldsAt s.memory (s.reg regPC + 2) [f.src, f.dest use]⟩ := by
  obtain ⟨⟨destMode, destReg, dataSize⟩, srcMode, srcReg⟩ := f
  replace h := skipOpcode_bind h
  rcases dataSize with _ | size
  · cases h
  · have htext := effectiveAddress_two ⟨.get, srcMode, srcReg, size⟩ ⟨use, destMode, destReg, size⟩
      (fun src dest => label ++ sizeSuffix size ++ " " ++ src ++ ", " ++ dest) h
    rw [reg_skipOpcode] at htext
    rw [htext, fieldsAt, fieldsAt, fieldsAt, Line.text_two hext, hlabel]
    rfl

/-- One operand after a text that depends on the size. -/
theorem listOneOperand_eq_ok {g : DataSize → String} (f : OneOperand) (use : Use)
    (h : listOneOperand g f s = .ok text t) : ∃ size, f.dataSize = some size ∧
      text = g size ++ ((f.dest use).field s.memory (s.reg regPC + 2)).text := by
  obtain ⟨destMode, destReg, dataSize⟩ := f
  replace h := skipOpcode_bind h
  rcases dataSize with _ | size
  · cases h
  · have htext := effectiveAddress_one ⟨use, destMode, destReg, size⟩ (fun dest => g size ++ dest) h
    rw [reg_skipOpcode] at htext
    exact ⟨size, rfl, htext⟩

/-- One operand after a name. -/
theorem listOneOperand_name_eq_ok {n : Name} {label : String} (hlabel : label = n.text ++ " ")
    (hext : n ≠ .ext)
    (f : OneOperand) (use : Use) (h : listOneOperand (fun _ => label) f s = .ok text t) :
    text = Line.text ⟨n, none, fieldsAt s.memory (s.reg regPC + 2) [f.dest use]⟩ := by
  obtain ⟨size, -, rfl⟩ := listOneOperand_eq_ok f use h
  rw [fieldsAt, fieldsAt, Line.text_one hext, hlabel, suffixText, String.append_empty]

/-- An immediate of the opcode word, and one operand. -/
theorem listOneOperand_quick_eq_ok {n : Name} {label : String} (hlabel : label = n.text)
    (hext : n ≠ .ext) (f : QuickOperand) (use : Use)
    (h : listOneOperand (fun size => label ++ sizeSuffix size ++ " #$" ++
      hexText f.immData.toNat ++ ", ") f.toOneOperand s = .ok text t) :
    text = Line.text ⟨n, f.dataSize,
      .immediate f.immData.toNat :: fieldsAt s.memory (s.reg regPC + 2) [f.dest use]⟩ := by
  obtain ⟨size, hsize, rfl⟩ := listOneOperand_eq_ok f.toOneOperand use h
  rw [fieldsAt, fieldsAt, Line.text_two hext, hsize, hlabel]
  apply String.toList_inj.1
  simp [suffixText, Field.text]

theorem text_of_bitShift {f : BitShiftOperand} (hf : f.Regular)
    (h : BitShift.disassembly f s = .ok text t) :
    text = ((Derived.bitShift f).line s.memory (s.reg regPC)).text := by
  have hname : f.instructionStr = (Name.bitShift f.instructionType f.directionLeft).text :=
    hf.text.trans (Name.text_bitShift _ _)
  have hline : (Derived.bitShift f).line s.memory (s.reg regPC) =
      ⟨.bitShift f.instructionType f.directionLeft, none,
        [if f.isImm then .count f.immShift.toNat else .countRegister f.shiftReg,
          operandField f.addrMode f.addrReg f.dataSize
            (extensionAt s.memory (s.reg regPC + 2) f.addrMode f.dataSize)]⟩ := rfl
  have hext : Name.bitShift f.instructionType f.directionLeft ≠ .ext := by simp
  replace h := skipOpcode_bind h
  rw [hline, Line.text_two hext, suffixText, String.append_empty, ← hname]
  by_cases himm : f.isImm = true
  · rw [if_pos himm] at h ⊢
    have htext := effectiveAddress_one ⟨.getSilent, f.addrMode, f.addrReg, f.dataSize⟩ (fun addr =>
      f.instructionStr ++ " " ++ " #$" ++ String.singleton (Char.ofNat f.immShift.toNat) ++
        ", " ++ addr) h
    rw [reg_skipOpcode] at htext
    have hcount :
        (Field.count f.immShift.toNat).text = " #$" ++
        String.singleton (Char.ofNat f.immShift.toNat) := rfl
    rw [htext, hcount]
    apply String.toList_inj.1
    simp [Operand.field]
  · rw [if_neg himm] at h ⊢
    have htext := effectiveAddress_two ⟨.get, .directData, f.shiftReg, f.dataSize⟩
      ⟨.getSilent, f.addrMode, f.addrReg, f.dataSize⟩ (fun shift addr =>
        f.instructionStr ++ " " ++ " " ++ shift ++ ", " ++ addr) h
    rw [reg_skipOpcode] at htext
    have hlength : (Operand.part ⟨.get, .directData, f.shiftReg, f.dataSize⟩).length = 0#32 := rfl
    have hshift : (Operand.field ⟨.get, .directData, f.shiftReg, f.dataSize⟩
        (s.withReg regPC (s.reg regPC + 2)).memory (s.reg regPC + 2)).text = reg f.shiftReg := rfl
    have hcount : (Field.countRegister f.shiftReg).text = " " ++ reg f.shiftReg := rfl
    rw [htext, hlength, BitVec.add_zero, hshift, hcount]
    apply String.toList_inj.1
    simp [Operand.field]

theorem text_of_bitManip {f : BitManipOperand} (hf : f.instructionStr = f.instructionType.text)
    (h : BitManip.disassembly f s = .ok text t) :
    text = ((Derived.bitManip f).line s.memory (s.reg regPC)).text := by
  have hname : f.instructionStr = (Name.bitManip f.instructionType).text :=
    hf.trans (Name.text_bitManip _)
  have hext : Name.bitManip f.instructionType ≠ .ext := by simp
  have hline : (Derived.bitManip f).line s.memory (s.reg regPC) =
      ⟨.bitManip f.instructionType, none,
        fieldsAt s.memory (s.reg regPC + 2) [f.src, f.dest .getSilent]⟩ := rfl
  rw [hline, fieldsAt, fieldsAt, fieldsAt, Line.text_two hext, suffixText,
    String.append_empty, ← hname]
  obtain ⟨⟨⟨destMode, destReg, dataSize⟩, srcMode, srcReg⟩, instructionType, instructionStr,
      dataBitsModulo⟩ := f
  replace h := skipOpcode_bind h
  rcases dataSize with _ | size
  · cases h
  · have htext :=
      effectiveAddress_two ⟨.get, srcMode, srcReg, size⟩ ⟨.getSilent, destMode, destReg, size⟩
      (fun src dest => instructionStr ++ " " ++ src ++ ", " ++ dest) h
    rw [reg_skipOpcode] at htext
    exact htext

/-- The displacement of a branch. -/
theorem displacement_eq_ok {f : BccOperand} {v : BitVec 32}
    (h : Bcc.displacement (CPUState.getData .immediate regD0) f s = .ok v t) :
    v = f.displacementAt s.memory (s.reg regPC) := by
  rw [BccOperand.displacementAt]
  rw [Bcc.displacement] at h
  rcases hsize : f.dataSize with _ | _ | _
  · rw [hsize] at h
    obtain ⟨rfl, rfl⟩ := EStateM.Result.ok.inj h
    rfl
  · rw [hsize] at h
    simp [CPUState.getData, -bind_pure_comp] at h
    exact h.2.1.symm
  · rw [hsize] at h
    simp [CPUState.getData, -bind_pure_comp] at h
    exact h.2.1.symm

theorem text_of_bcc {f : BccOperand} (h : Bcc.disassembly f s = .ok text t) :
    text = ((Derived.bcc f).line s.memory (s.reg regPC)).text := by
  have hext : Name.bcc f.condition ≠ .ext := by simp
  have hline : (Derived.bcc f).line s.memory (s.reg regPC) =
      ⟨.bcc f.condition, none,
        [.target (s.reg regPC + 2 + f.displacementAt s.memory (s.reg regPC + 2)).toNat]⟩ := rfl
  rw [hline, Line.text_one hext, suffixText, String.append_empty, ← Name.text_bcc]
  rw [Bcc.disassembly, bind_of_ok (getReg_long named_regPC)] at h
  rw [bind_of_ok (setReg_long named_regPC)] at h
  obtain ⟨v, u, hv, hdone⟩ := bind_eq_ok.1 h
  obtain ⟨rfl, rfl⟩ := EStateM.Result.ok.inj hdone
  rw [displacement_eq_ok hv, reg_skipOpcode, CPUState.memory_withReg, Field.text, hex32]
  apply String.toList_inj.1
  simp

theorem text_of_clr {f : OneOperand} (h : Clr.disassembly f s = .ok text t) :
    text = ((Derived.clr f).line s.memory (s.reg regPC)).text := by
  obtain ⟨size, hsize, rfl⟩ := listOneOperand_eq_ok f .address h
  have hline : (Derived.clr f).line s.memory (s.reg regPC) =
      ⟨.clr, f.dataSize, [(f.dest .address).field s.memory (s.reg regPC + 2)]⟩ := rfl
  rw [hline, Line.text_one (by decide), hsize]
  rfl

theorem text_of_ext {f : OneOperand} (h : Ext.disassembly f s = .ok text t) :
    text = ((Derived.ext f).line s.memory (s.reg regPC)).text := by
  obtain ⟨size, hsize, rfl⟩ := listOneOperand_eq_ok f .get h
  have hline : (Derived.ext f).line s.memory (s.reg regPC) =
      ⟨.ext, f.dataSize, [(f.dest .get).field s.memory (s.reg regPC + 2)]⟩ := rfl
  rw [hline, Line.text_ext, hsize]
  rfl

theorem text_of_moveq {f : QuickOperand} (h : Moveq.disassembly f s = .ok text t) :
    text = ((Derived.moveq f).line s.memory (s.reg regPC)).text := by
  obtain ⟨size, hsize, rfl⟩ := listOneOperand_eq_ok f.toOneOperand .address h
  have hline : (Derived.moveq f).line s.memory (s.reg regPC) =
      ⟨.moveq, none,
        [.immediate f.immData.toNat, (f.dest .address).field s.memory (s.reg regPC + 2)]⟩ := rfl
  have himm : (Field.immediate f.immData.toNat).text = "#$" ++ hexText f.immData.toNat := rfl
  have hname : "moveq" = Name.moveq.text := rfl
  rw [hline, Line.text_two (by decide), suffixText, himm, hname]
  apply String.toList_inj.1
  simp

theorem text_of_lea {f : LeaOperand} (h : Lea.disassembly f s = .ok text t) :
    text = ((Derived.lea f).line s.memory (s.reg regPC)).text := by
  have htext := effectiveAddress_two ⟨.address, f.srcMode, f.srcReg, f.dataSize⟩
    ⟨.address, .directAddr, f.addrReg, f.dataSize⟩ (fun src dest => "lea " ++ src ++ ", " ++ dest)
    (skipOpcode_bind h)
  have hline : (Derived.lea f).line s.memory (s.reg regPC) =
      ⟨.lea, none, fieldsAt s.memory (s.reg regPC + 2) (Derived.lea f).operandList⟩ := rfl
  have hname : "lea " = Name.lea.text ++ " " := rfl
  rw [reg_skipOpcode] at htext
  rw [htext, hline, Derived.operandList, fieldsAt, fieldsAt, fieldsAt,
    Line.text_two (by decide), suffixText, String.append_empty, hname]
  rfl

theorem text_of_scc {f : SccOperand} (h : Scc.disassembly f s = .ok text t) :
    text = ((Derived.scc f).line s.memory (s.reg regPC)).text := by
  have htext := effectiveAddress_one ⟨.address, f.destMode, f.destReg, .byte⟩ (fun dest =>
    "s" ++ conditionSuffix f.condition ++ " " ++ dest) (skipOpcode_bind h)
  have hline : (Derived.scc f).line s.memory (s.reg regPC) =
      ⟨.scc f.condition, none,
        [Operand.field ⟨.address, f.destMode, f.destReg, .byte⟩ s.memory (s.reg regPC + 2)]⟩ := rfl
  have hext : Name.scc f.condition ≠ .ext := by simp
  rw [reg_skipOpcode] at htext
  rw [htext, hline, Line.text_one hext, suffixText, String.append_empty, ← Name.text_scc]
  rfl

theorem text_of_link {addrReg : ℕ} (h : Link.disassembly addrReg s = .ok text t) :
    text = ((Derived.link addrReg).line s.memory (s.reg regPC)).text := by
  obtain ⟨v, u, hv, hdone⟩ := bind_eq_ok.1 h
  obtain ⟨rfl, rfl⟩ := EStateM.Result.ok.inj hdone
  simp [Link.fetchDisplacement, -bind_pure_comp] at hv
  obtain ⟨-, rfl, -⟩ := hv
  have hline : (Derived.link addrReg).line s.memory (s.reg regPC) =
      ⟨.link, none,
        [.register addrReg, .target ((s.memory.read (s.reg regPC + 2) .word).setWidth 16).toNat]⟩ :=
      rfl
  have hname : "link " = Name.link.text ++ " " := rfl
  rw [hline, Line.text_two (by decide), suffixText, String.append_empty, hname, Field.text,
    Field.text, hex16]
  apply String.toList_inj.1
  simp

/-- The text that `disassembly` returns is that of the line. -/
theorem disassembly_eq_ok {d : Derived} (hd : d.Regular) (h : d.disassembly s = .ok text t) :
    text = (d.line s.memory (s.reg regPC)).text := by
  cases d with
  | add f | adda f | addx f | and f | eor f | or f | sub f | suba f | subx f =>
    exact listTwoOperand_eq_ok rfl (by simp [Derived.name]) f .getSilent h
  | cmp f | cmpa f =>
    exact listTwoOperand_eq_ok rfl (by simp [Derived.name]) f .get h
  | addi f | andi f | eori f | ori f | subi f =>
    exact listTwoOperand_eq_ok rfl (by simp [Derived.name])
      { f with srcMode := .immediate, srcReg := regD0 } .getSilent h
  | cmpi f =>
    exact listTwoOperand_eq_ok rfl (by simp [Derived.name])
      { f with srcMode := .immediate, srcReg := regD0 } .get h
  | addq f | subq f =>
    exact listOneOperand_quick_eq_ok rfl (by simp [Derived.name]) f .getSilent h
  | neg f =>
    exact listOneOperand_name_eq_ok rfl (by simp [Derived.name]) f .getSilent h
  | tst f =>
    exact listOneOperand_name_eq_ok rfl (by simp [Derived.name]) f .get h
  | jmp f | jsr f | pea f =>
    exact listOneOperand_name_eq_ok rfl (by simp [Derived.name]) f .address h
  | bitShift f => exact text_of_bitShift hd h
  | clr f => exact text_of_clr h
  | ext f => exact text_of_ext h
  | moveq f => exact text_of_moveq h
  | div f =>
    exact listTwoOperand_eq_ok (Name.text_div f.isSigned) (by simp) f.toTwoOperand .getSilent h
  | mul f =>
    exact listTwoOperand_eq_ok (Name.text_mul f.isSigned) (by simp) f.toTwoOperand .getSilent h
  | move f =>
    exact listTwoOperand_eq_ok (Name.text_move f.isMovea) (by simp) f.toTwoOperand .address h
  | bitManip f => exact text_of_bitManip hd.2.1 h
  | bcc f => exact text_of_bcc h
  | lea f => exact text_of_lea h
  | scc f => exact text_of_scc h
  | link addrReg => exact text_of_link h
  | unlk addrReg =>
    replace h := skipOpcode_bind h
    obtain ⟨rfl, -⟩ := EStateM.Result.ok.inj h
    exact (Line.text_one (by decide : Name.unlk ≠ .ext) none (.register addrReg)).symm
  | illegal =>
    replace h := skipOpcode_bind h
    obtain ⟨rfl, -⟩ := EStateM.Result.ok.inj h
    exact (Line.text_none .illegal).symm
  | nop =>
    replace h := skipOpcode_bind h
    obtain ⟨rfl, -⟩ := EStateM.Result.ok.inj h
    exact (Line.text_none .nop).symm
  | rts =>
    replace h := skipOpcode_bind h
    obtain ⟨rfl, -⟩ := EStateM.Result.ok.inj h
    exact (Line.text_none .rts).symm

end Methods

end M68kEmu
