import M68kEmu.Lib.MaskTable

/-!
# The opcode table of `tools/opcode_table_generator.py`

The table from which `opcode_mask_table` was generated.  It also has the rows that
`opcode_mask_table` comments out.
-/

namespace M68kEmu

/-- The names of the table. -/
inductive Mnemonic where
  | oriToCCR | oriToSR | andiToCCR | andiToSR | illegal | reset | nop | stop | rte | rts | trapv
  | rtr | swap | link | unlk | ext | trap | moveUSP | btst | bchg | bclr | bset | moveFromSR
  | moveToCCR | moveToSR | nbcd | pea | tas | jsr | jmp | dbcc | sbcd | abcd | asd | lsd | roxd
  | rod | ori | andi | subi | addi | eori | cmpi | movep | negx | clr | neg | not | tst | movem
  | bra | bsr | cmpa | moveaw | moveal | lea | chk | divu | divs | suba | mulu | muls | exg | and
  | adda | addx | scc | subx | cmpm | addq | subq | moveq | eor | cmp | movew | movel | moveb | bcc
  | or | sub | add
  deriving DecidableEq, Repr

/-- `opcode_table`; the entry is `fnc_name`. -/
def opcodeTable : List (MaskTable.Row 32 Mnemonic) :=
  [⟨⟨0xFFFF, 0x003C⟩, .oriToCCR⟩,
   ⟨⟨0xFFFF, 0x007C⟩, .oriToSR⟩,
   ⟨⟨0xFFFF, 0x023C⟩, .andiToCCR⟩,
   ⟨⟨0xFFFF, 0x027C⟩, .andiToSR⟩,
   ⟨⟨0xFFFF, 0x4AFC⟩, .illegal⟩,
   ⟨⟨0xFFFF, 0x4E70⟩, .reset⟩,
   ⟨⟨0xFFFF, 0x4E71⟩, .nop⟩,
   ⟨⟨0xFFFF, 0x4E72⟩, .stop⟩,
   ⟨⟨0xFFFF, 0x4E73⟩, .rte⟩,
   ⟨⟨0xFFFF, 0x4E75⟩, .rts⟩,
   ⟨⟨0xFFFF, 0x4E76⟩, .trapv⟩,
   ⟨⟨0xFFFF, 0x4E77⟩, .rtr⟩,
   ⟨⟨0xFFF8, 0x4840⟩, .swap⟩,
   ⟨⟨0xFFF8, 0x4E50⟩, .link⟩,
   ⟨⟨0xFFF8, 0x4E58⟩, .unlk⟩,
   ⟨⟨0xFFB8, 0x4880⟩, .ext⟩,
   ⟨⟨0xFFF0, 0x4E40⟩, .trap⟩,
   ⟨⟨0xFFF0, 0x4E60⟩, .moveUSP⟩,
   ⟨⟨0xFFC0, 0x0800⟩, .btst⟩,
   ⟨⟨0xFFC0, 0x0840⟩, .bchg⟩,
   ⟨⟨0xFFC0, 0x0880⟩, .bclr⟩,
   ⟨⟨0xFFC0, 0x08C0⟩, .bset⟩,
   ⟨⟨0xFFC0, 0x40C0⟩, .moveFromSR⟩,
   ⟨⟨0xFFC0, 0x44C0⟩, .moveToCCR⟩,
   ⟨⟨0xFFC0, 0x46C0⟩, .moveToSR⟩,
   ⟨⟨0xFFC0, 0x4800⟩, .nbcd⟩,
   ⟨⟨0xFFC0, 0x4840⟩, .pea⟩,
   ⟨⟨0xFFC0, 0x4AC0⟩, .tas⟩,
   ⟨⟨0xFFC0, 0x4E80⟩, .jsr⟩,
   ⟨⟨0xFFC0, 0x4EC0⟩, .jmp⟩,
   ⟨⟨0xF0F8, 0x50C8⟩, .dbcc⟩,
   ⟨⟨0xF1F0, 0x8100⟩, .sbcd⟩,
   ⟨⟨0xF1F0, 0xC100⟩, .abcd⟩,
   ⟨⟨0xFEC0, 0xE0C0⟩, .asd⟩,
   ⟨⟨0xFEC0, 0xE2C0⟩, .lsd⟩,
   ⟨⟨0xFEC0, 0xE4C0⟩, .roxd⟩,
   ⟨⟨0xFEC0, 0xE6C0⟩, .rod⟩,
   ⟨⟨0xFF00, 0x0000⟩, .ori⟩,
   ⟨⟨0xFF00, 0x0200⟩, .andi⟩,
   ⟨⟨0xFF00, 0x0400⟩, .subi⟩,
   ⟨⟨0xFF00, 0x0600⟩, .addi⟩,
   ⟨⟨0xFF00, 0x0A00⟩, .eori⟩,
   ⟨⟨0xFF00, 0x0C00⟩, .cmpi⟩,
   ⟨⟨0xF138, 0x0108⟩, .movep⟩,
   ⟨⟨0xFF00, 0x4000⟩, .negx⟩,
   ⟨⟨0xFF00, 0x4200⟩, .clr⟩,
   ⟨⟨0xFF00, 0x4400⟩, .neg⟩,
   ⟨⟨0xFF00, 0x4600⟩, .not⟩,
   ⟨⟨0xFF00, 0x4A00⟩, .tst⟩,
   ⟨⟨0xFB80, 0x4880⟩, .movem⟩,
   ⟨⟨0xFF00, 0x6000⟩, .bra⟩,
   ⟨⟨0xFF00, 0x6100⟩, .bsr⟩,
   ⟨⟨0xF0C0, 0xB0C0⟩, .cmpa⟩,
   ⟨⟨0xF1C0, 0x0100⟩, .btst⟩,
   ⟨⟨0xF1C0, 0x0140⟩, .bchg⟩,
   ⟨⟨0xF1C0, 0x0180⟩, .bclr⟩,
   ⟨⟨0xF1C0, 0x01C0⟩, .bset⟩,
   ⟨⟨0xF1C0, 0x3040⟩, .moveaw⟩,
   ⟨⟨0xF1C0, 0x2040⟩, .moveal⟩,
   ⟨⟨0xF1C0, 0x41C0⟩, .lea⟩,
   ⟨⟨0xF1C0, 0x4180⟩, .chk⟩,
   ⟨⟨0xF1C0, 0x80C0⟩, .divu⟩,
   ⟨⟨0xF1C0, 0x81C0⟩, .divs⟩,
   ⟨⟨0xF0C0, 0x90C0⟩, .suba⟩,
   ⟨⟨0xF1C0, 0xC0C0⟩, .mulu⟩,
   ⟨⟨0xF1C0, 0xC1C0⟩, .muls⟩,
   ⟨⟨0xF130, 0xC100⟩, .exg⟩,
   ⟨⟨0xF000, 0xC000⟩, .and⟩,
   ⟨⟨0xF0C0, 0xD0C0⟩, .adda⟩,
   ⟨⟨0xF130, 0xD100⟩, .addx⟩,
   ⟨⟨0xF0C0, 0x50C0⟩, .scc⟩,
   ⟨⟨0xF130, 0x9100⟩, .subx⟩,
   ⟨⟨0xF138, 0xB108⟩, .cmpm⟩,
   ⟨⟨0xF018, 0xE000⟩, .asd⟩,
   ⟨⟨0xF018, 0xE008⟩, .lsd⟩,
   ⟨⟨0xF018, 0xE010⟩, .roxd⟩,
   ⟨⟨0xF018, 0xE018⟩, .rod⟩,
   ⟨⟨0xF100, 0x5000⟩, .addq⟩,
   ⟨⟨0xF100, 0x5100⟩, .subq⟩,
   ⟨⟨0xF100, 0x7000⟩, .moveq⟩,
   ⟨⟨0xF100, 0xB100⟩, .eor⟩,
   ⟨⟨0xF100, 0xB000⟩, .cmp⟩,
   ⟨⟨0xF000, 0x3000⟩, .movew⟩,
   ⟨⟨0xF000, 0x2000⟩, .movel⟩,
   ⟨⟨0xF000, 0x1000⟩, .moveb⟩,
   ⟨⟨0xF000, 0x6000⟩, .bcc⟩,
   ⟨⟨0xF000, 0x8000⟩, .or⟩,
   ⟨⟨0xF000, 0x9000⟩, .sub⟩,
   ⟨⟨0xF000, 0xD000⟩, .add⟩]

end M68kEmu
