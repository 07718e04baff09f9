import M68kEmu.Program.Rules
import M68kEmu.Semantics.LoadElf

/-!
# A loaded program

What `load_elf` leaves of a file that carries some bytes: the bytes at their address, the program
counter at the entry and the stack pointer at the end of the memory; and the instructions that
several programs have.  All operands are long words.
-/

namespace M68kEmu

open Outcome

/-- A section that `load_elf` copies has `length` bytes for the addresses from `base` on. -/
def ElfFile.Carries (file : ElfFile) (base length : ℕ) (bytes : ℕ → BitVec 8) : Prop :=
  ∃ segment ∈ file.sections, segment.isLoaded ∧ segment.address.toNat = base ∧
    segment.size.toNat = length ∧ ∀ i < length, segment.data i = bytes i

/-- The state after `load_elf`, in a memory of `MEMORY_SIZE` bytes. -/
structure Started (file : ElfFile) (t : CPUState BaseMemory) : Prop where
  memSize : t.memory.memSize = memorySize
  pc : t.reg regPC = file.entry.setWidth 32
  sp : t.reg regUSP = memorySize
  bytes : ∀ base length bytes, file.Carries base length bytes → ∀ i < length,
    t.memory.baseAddr (base + i) = bytes i

variable {s : CPUState BaseMemory} {load : String → Option ElfFile} {fileName : String}
    {file : ElfFile}

/-- `load_elf` succeeds on a supported file. -/
theorem loadElf_started (hload : load fileName = some file) (hheader : file.Supported)
    (hsep : Separated file.sections) (hsize : s.memory.memSize = memorySize) :
    ∃ t, loadElf load fileName s = .ok true t ∧ Started file t := by
  obtain ⟨t, ht⟩ := loadElf_ok hload hheader hsize
  obtain ⟨-, s₁, hcopy, rfl⟩ := loadElf_eq_true hload ht
  obtain ⟨-, hmemSize, hcopied, -⟩ := copied_of_copySections hsep hcopy
  refine ⟨_, ht, hmemSize.trans hsize, CPUState.reg_withReg_self named_regPC, ?_, ?_⟩
  · rw [CPUState.reg_withReg_of_ne named_regPC named_regUSP (by decide),
      CPUState.reg_withReg_self named_regUSP]
  · rintro base length bytes ⟨segment, hmem, hloaded, rfl, rfl, hdata⟩ i hi
    rw [← hdata i hi]
    refine (hcopied segment hmem hloaded _ ⟨by omega, by omega⟩).trans ?_
    rw [Nat.add_sub_cancel_left]

/-- The text of a program is loaded. -/
theorem Started.loaded {t : CPUState BaseMemory} (h : Started file t) {base : ℕ}
    {text : List (BitVec 16)}
    (htext : file.Carries base (2 * text.length) (textByte text)) (heven : base % 2 = 0)
    (hbelow : base + 2 * text.length ≤ 2 ^ 24) : Loaded t.memory base text := by
  refine Loaded.of_bytes heven hbelow ?_ (h.bytes _ _ _ htext)
  rw [h.memSize]
  exact hbelow

/-- An executable for the 68000 with the given sections. -/
def executable (entry : BitVec 32) (sections : List ElfSection) : ElfFile where
  elfClass := elfClass32
  encoding := elfData2Msb
  type := etExec
  machine := em68k
  entry := entry.setWidth 64
  sections
  entry_lt _ := by
    rw [BitVec.toNat_setWidth_of_le (by decide)]
    exact entry.isLt

/-- Two sections that do not overlap. -/
theorem separated_pair {segment segment' : ElfSection}
    (h : segment.address.toNat + segment.size.toNat ≤ 2 ^ 24)
    (h' : segment'.address.toNat + segment'.size.toNat ≤ 2 ^ 24)
    (hapart : segment.address.toNat + segment.size.toNat ≤ segment'.address.toNat ∨
      segment'.address.toNat + segment'.size.toNat ≤ segment.address.toNat) :
      Separated [segment, segment'] where
  below x hx _ addr hcov := by
    unfold ElfSection.Covers at hcov
    obtain rfl | hx := List.mem_cons.1 hx
    · omega
    · obtain rfl := List.mem_singleton.1 hx
      omega
  disjoint := by
    refine List.pairwise_pair.2 fun _ _ addr hcov hcov' => ?_
    unfold ElfSection.Covers at hcov hcov'
    omega

/-! ### Long operands -/

/-- An operand of a long word. -/
abbrev longDest (destMode : AddressingMode) (destReg : ℕ) : OneOperand :=
  { destMode, destReg, dataSize := some .long }

/-- A source and a destination of a long word. -/
abbrev longBoth (srcMode : AddressingMode) (srcReg : ℕ) (destMode : AddressingMode) (destReg : ℕ) :
    TwoOperand :=
  { toOneOperand := longDest destMode destReg, srcMode, srcReg }

/-- A destination of a long word, and a number in the opcode. -/
abbrev longQuick (immData : BitVec 8) (destMode : AddressingMode) (destReg : ℕ) : QuickOperand :=
  { toOneOperand := longDest destMode destReg, immData }

/-- `move.l`. -/
abbrev longMove (srcMode : AddressingMode) (srcReg : ℕ) (destMode : AddressingMode) (destReg : ℕ) :
    MoveOperand :=
  { toTwoOperand := longBoth srcMode srcReg destMode destReg, isMovea := false }

/-- `movea.l`. -/
abbrev longMovea (srcMode : AddressingMode) (srcReg : ℕ) (destReg : ℕ) : MoveOperand :=
  { toTwoOperand := longBoth srcMode srcReg .directAddr destReg, isMovea := true }

/-- An entry of the decode table. -/
theorem derived_of_entry {opcode : BitVec 16} {object : Derived}
    (h : (opcodeEntry (opcode.setWidth 32)).derived = object) :
    (decode opcode).derived = object := by
  rw [decode_eq_opcodeEntry]
  exact h

/-! The opcodes that several programs have. -/

theorem decode_4E56 : (decode 0x4E56).derived = .link 14 := derived_of_entry rfl
theorem decode_4E5E : (decode 0x4E5E).derived = .unlk 14 := derived_of_entry rfl
theorem decode_4E75 : (decode 0x4E75).derived = .rts := derived_of_entry rfl
theorem decode_4EBA : (decode 0x4EBA).derived = .jsr (longDest .pcDisplacement 10) :=
  derived_of_entry rfl
theorem decode_4878 : (decode 0x4878).derived = .pea (longDest .absWord 8) := derived_of_entry rfl
theorem decode_7001 : (decode 0x7001).derived = .moveq (longQuick 1 .directData 0) :=
  derived_of_entry rfl
theorem decode_202E :
    (decode 0x202E).derived = .move (longMove .indirectDisplacement 14 .directData 0) :=
  derived_of_entry rfl
theorem decode_B0AE :
    (decode 0xB0AE).derived = .cmp (longBoth .indirectDisplacement 14 .directData 0) :=
  derived_of_entry rfl
theorem decode_508F : (decode 0x508F).derived = .addq (longQuick 8 .directAddr 15) :=
  derived_of_entry rfl
theorem decode_5380 : (decode 0x5380).derived = .subq (longQuick 1 .directData 0) :=
  derived_of_entry rfl

end M68kEmu
