import M68kEmu.Lib.MaskTable
import M68kEmu.Model.Instructions

/-!
# The instruction decoder (`instruction_decoder.cpp`)

`generateOpcodeTable` fills a table of 65536 instruction objects at construction; `Decode` indexes
it.  The loop variable `instruction` outlives an iteration in the source, and is moved from at the
end of each; the model passes it from one iteration to the next in the same way.
-/

namespace M68kEmu

/-- The classes derived from `Instruction`. -/
inductive InstructionClass where
  | add | adda | addi | addq | addx | and | andi | bcc | bitManip | bitShift | clr | cmp | cmpa
  | cmpi | div | eor | eori | ext | illegal | jmp | jsr | lea | link | move | moveq | mul | neg
  | nop | or | ori | pea | rts | scc | sub | suba | subi | subq | subx | tst | unlk
  deriving DecidableEq, Repr

/-- The static function `create` of the class. -/
def InstructionClass.create : InstructionClass → BitVec 16 → Instruction
  | .add => Add.create
  | .adda => Adda.create
  | .addi => Addi.create
  | .addq => Addq.create
  | .addx => Addx.create
  | .and => And.create
  | .andi => Andi.create
  | .bcc => Bcc.create
  | .bitManip => BitManip.create
  | .bitShift => BitShift.create
  | .clr => Clr.create
  | .cmp => Cmp.create
  | .cmpa => Cmpa.create
  | .cmpi => Cmpi.create
  | .div => Div.create
  | .eor => Eor.create
  | .eori => Eori.create
  | .ext => Ext.create
  | .illegal => Illegal.create
  | .jmp => Jmp.create
  | .jsr => Jsr.create
  | .lea => Lea.create
  | .link => Link.create
  | .move => Move.create
  | .moveq => Moveq.create
  | .mul => Mul.create
  | .neg => Neg.create
  | .nop => Nop.create
  | .or => Or.create
  | .ori => Ori.create
  | .pea => Pea.create
  | .rts => Rts.create
  | .scc => Scc.create
  | .sub => Sub.create
  | .suba => Suba.create
  | .subi => Subi.create
  | .subq => Subq.create
  | .subx => Subx.create
  | .tst => Tst.create
  | .unlk => Unlk.create

/-- `MaskTableElement`; the entry is the class whose `create` is the `create_function`. -/
abbrev MaskTableElement := MaskTable.Row 32 InstructionClass

/-- `opcode_mask_table`. -/
def opcodeMaskTable : List MaskTableElement :=
  [⟨⟨0xFFFF, 0x4AFC⟩, .illegal⟩,
   ⟨⟨0xFFFF, 0x4E71⟩, .nop⟩,
   ⟨⟨0xFFFF, 0x4E75⟩, .rts⟩,
   ⟨⟨0xFFF8, 0x4E50⟩, .link⟩,
   ⟨⟨0xFFF8, 0x4E58⟩, .unlk⟩,
   ⟨⟨0xFFB8, 0x4880⟩, .ext⟩,
   ⟨⟨0xFFC0, 0x0800⟩, .bitManip⟩,
   ⟨⟨0xFFC0, 0x0840⟩, .bitManip⟩,
   ⟨⟨0xFFC0, 0x0880⟩, .bitManip⟩,
   ⟨⟨0xFFC0, 0x08C0⟩, .bitManip⟩,
   ⟨⟨0xFFC0, 0x4840⟩, .pea⟩,
   ⟨⟨0xFFC0, 0x4E80⟩, .jsr⟩,
   ⟨⟨0xFFC0, 0x4EC0⟩, .jmp⟩,
   ⟨⟨0xFEC0, 0xE0C0⟩, .bitShift⟩,
   ⟨⟨0xFEC0, 0xE2C0⟩, .bitShift⟩,
   ⟨⟨0xFEC0, 0xE4C0⟩, .bitShift⟩,
   ⟨⟨0xFEC0, 0xE6C0⟩, .bitShift⟩,
   ⟨⟨0xFF00, 0x0000⟩, .ori⟩,
   ⟨⟨0xFF00, 0x0200⟩, .andi⟩,
   ⟨⟨0xFF00, 0x0400⟩, .subi⟩,
   ⟨⟨0xFF00, 0x0600⟩, .addi⟩,
   ⟨⟨0xFF00, 0x0A00⟩, .eori⟩,
   ⟨⟨0xFF00, 0x0C00⟩, .cmpi⟩,
   ⟨⟨0xFF00, 0x4200⟩, .clr⟩,
   ⟨⟨0xFF00, 0x4400⟩, .neg⟩,
   ⟨⟨0xFF00, 0x4A00⟩, .tst⟩,
   ⟨⟨0xFF00, 0x6000⟩, .bcc⟩,
   ⟨⟨0xFF00, 0x6100⟩, .bcc⟩,
   ⟨⟨0xF0C0, 0xB0C0⟩, .cmpa⟩,
   ⟨⟨0xF1C0, 0x0100⟩, .bitManip⟩,
   ⟨⟨0xF1C0, 0x0140⟩, .bitManip⟩,
   ⟨⟨0xF1C0, 0x0180⟩, .bitManip⟩,
   ⟨⟨0xF1C0, 0x01C0⟩, .bitManip⟩,
   ⟨⟨0xF1C0, 0x3040⟩, .move⟩,
   ⟨⟨0xF1C0, 0x2040⟩, .move⟩,
   ⟨⟨0xF1C0, 0x41C0⟩, .lea⟩,
   ⟨⟨0xF1C0, 0x80C0⟩, .div⟩,
   ⟨⟨0xF1C0, 0x81C0⟩, .div⟩,
   ⟨⟨0xF0C0, 0x90C0⟩, .suba⟩,
   ⟨⟨0xF1C0, 0xC0C0⟩, .mul⟩,
   ⟨⟨0xF1C0, 0xC1C0⟩, .mul⟩,
   ⟨⟨0xF000, 0xC000⟩, .and⟩,
   ⟨⟨0xF0C0, 0xD0C0⟩, .adda⟩,
   ⟨⟨0xF130, 0xD100⟩, .addx⟩,
   ⟨⟨0xF0C0, 0x50C0⟩, .scc⟩,
   ⟨⟨0xF130, 0x9100⟩, .subx⟩,
   ⟨⟨0xF018, 0xE000⟩, .bitShift⟩,
   ⟨⟨0xF018, 0xE008⟩, .bitShift⟩,
   ⟨⟨0xF018, 0xE010⟩, .bitShift⟩,
   ⟨⟨0xF018, 0xE018⟩, .bitShift⟩,
   ⟨⟨0xF100, 0x5000⟩, .addq⟩,
   ⟨⟨0xF100, 0x5100⟩, .subq⟩,
   ⟨⟨0xF100, 0x7000⟩, .moveq⟩,
   ⟨⟨0xF100, 0xB100⟩, .eor⟩,
   ⟨⟨0xF100, 0xB000⟩, .cmp⟩,
   ⟨⟨0xF000, 0x3000⟩, .move⟩,
   ⟨⟨0xF000, 0x2000⟩, .move⟩,
   ⟨⟨0xF000, 0x1000⟩, .move⟩,
   ⟨⟨0xF000, 0x6000⟩, .bcc⟩,
   ⟨⟨0xF000, 0x8000⟩, .or⟩,
   ⟨⟨0xF000, 0x9000⟩, .sub⟩,
   ⟨⟨0xF000, 0xD000⟩, .add⟩]

/-- The inner loop of `generateOpcodeTable`: a row that matches ends it, and assigns `instruction`
if its candidate is valid. -/
def scanMaskTable (opcode : BitVec 32) (instruction : Option Instruction) :
    List MaskTableElement → Option Instruction
  | [] => instruction
  | opcodeMask :: rest =>
    if opcode &&& opcodeMask.mask ≠ opcodeMask.value then scanMaskTable opcode instruction rest
    else
      let instructionCandidate := opcodeMask.entry.create (opcode.setWidth 16)
      if instructionCandidate.isValid then some instructionCandidate else instruction

/-- The body of the outer loop, on the variable `instruction` and the table filled so far. -/
def pushOpcode (state : Option Instruction × Array Instruction) (opcode : ℕ) :
    Option Instruction × Array Instruction :=
  let opcode := BitVec.ofNat 32 opcode
  let instruction := (scanMaskTable opcode state.1 opcodeMaskTable).getD
      (Illegal.create (opcode.setWidth 16))
  -- `std::move` leaves the variable empty
  (none, state.2.push instruction)

/-- The outer loop of `generateOpcodeTable`. -/
def fillOpcodeTable (opcodes : List ℕ) : Array Instruction :=
  (opcodes.foldl pushOpcode (none, #[])).2

/-- `InstructionDecoder::generateOpcodeTable`. -/
def generateOpcodeTable : Array Instruction := fillOpcodeTable (List.range 0x10000)

/-- The entry of one opcode, when `instruction` is empty at the head of its iteration. -/
def opcodeEntry (opcode : BitVec 32) : Instruction :=
  (scanMaskTable opcode none opcodeMaskTable).getD (Illegal.create (opcode.setWidth 16))

theorem foldl_pushOpcode (opcodes : List ℕ) (table : Array Instruction) :
    opcodes.foldl pushOpcode (none, table) =
      (none, table ++
        (opcodes.map fun opcode => opcodeEntry (BitVec.ofNat 32 opcode)).toArray) := by
  induction opcodes generalizing table with
  | nil => simp
  | cons opcode opcodes ih =>
    rw [List.foldl_cons, pushOpcode, ih]
    simp [opcodeEntry]

theorem fillOpcodeTable_eq (opcodes : List ℕ) :
    fillOpcodeTable opcodes =
    (opcodes.map fun opcode => opcodeEntry (BitVec.ofNat 32 opcode)).toArray := by
  rw [fillOpcodeTable, foldl_pushOpcode, Array.empty_append]

/-- `InstructionDecoder`, with a table that has an entry for every opcode. -/
structure InstructionDecoder where
  opcodeTable : Array Instruction
  size_opcodeTable : opcodeTable.size = 0x10000

namespace InstructionDecoder

/-- The constructor. -/
def new : InstructionDecoder where
  opcodeTable := generateOpcodeTable
  size_opcodeTable := by
    rw [generateOpcodeTable, fillOpcodeTable_eq, List.size_toArray, List.length_map,
        List.length_range]

/-- `InstructionDecoder::Decode`. -/
def decode (decoder : InstructionDecoder) (opcode : BitVec 16) : Instruction :=
  have : opcode.toNat < decoder.opcodeTable.size := by
    rw [decoder.size_opcodeTable]; exact opcode.isLt
  decoder.opcodeTable[opcode.toNat]

theorem decode_eq_of_getElem? {decoder : InstructionDecoder} {opcode : BitVec 16}
    {instruction : Instruction} (h : decoder.opcodeTable[opcode.toNat]? = some instruction) :
    decoder.decode opcode = instruction := by
  obtain ⟨_, h⟩ := Array.getElem?_eq_some_iff.1 h
  exact h

/-- What `Decode` returns for an opcode depends on no other opcode. -/
theorem decode_new (opcode : BitVec 16) : new.decode opcode = opcodeEntry (opcode.setWidth 32) := by
  have hlt : opcode.toNat < 0x10000 := opcode.isLt
  have hopcode : BitVec.ofNat 32 opcode.toNat = opcode.setWidth 32 := BitVec.ofNat_toNat 32 opcode
  have hnew : new.opcodeTable = generateOpcodeTable := by rw [new]
  refine decode_eq_of_getElem? ?_
  rw [hnew, generateOpcodeTable, fillOpcodeTable_eq, List.getElem?_toArray, List.getElem?_map,
    List.getElem?_range hlt, Option.map_some, hopcode]

end InstructionDecoder

end M68kEmu
