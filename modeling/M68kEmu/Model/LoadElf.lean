import M68kEmu.Model.CpuState

/-!
# `load_elf` (`cpu.cpp`)

The reader `ELFIO::elfio` is not part of the repository.  `ElfFile` is what its accessors return for
a file that it loads, and the reader itself is a parameter: a map from file names to files.  The
lines that print the section table are left out.
-/

namespace M68kEmu

/-! ### The constants of `ELFIO` -/

def elfClass32 : BitVec 8 := 1
def elfData2Msb : BitVec 8 := 2
def etExec : BitVec 16 := 2
def em68k : BitVec 16 := 4

/-- `PT_LOAD`, a type of segments; the same number is `SHT_PROGBITS` among the types of sections. -/
def ptLoad : BitVec 32 := 1

/-- `SHT_NOBITS`, the type of the sections without file contents. -/
def shtNobits : BitVec 32 := 8

def shfAlloc : BitVec 64 := 2

/-! ### Files -/

/-- `ELFIO::section`: the header fields, and the byte of the file at each offset. -/
structure ElfSection where
  type : BitVec 32
  flags : BitVec 64
  address : BitVec 64
  size : BitVec 64
  data : ℕ → BitVec 8

/-- `ELFIO::elfio`, after it has loaded a file; the fields of a 32-bit file have 32 bits. -/
structure ElfFile where
  elfClass : BitVec 8
  encoding : BitVec 8
  type : BitVec 16
  machine : BitVec 16
  entry : BitVec 64
  sections : List ElfSection
  entry_lt : elfClass = elfClass32 → entry.toNat < 2 ^ 32

/-! ### Loading -/

variable {M : Type} [IMemory M]

/-- The loop that copies the first `count` bytes of a section. -/
def copySection (segment : ElfSection) : ℕ → CpuM M Unit
  | 0 => pure ()
  | i + 1 => do
    copySection segment i
    memSet (segment.address.setWidth 32 + BitVec.ofNat 32 i) .byte ((segment.data i).signExtend 32)

/-- `segment->get_type() == ELFIO::PT_LOAD && (f & SHF_ALLOC) != 0`. -/
def ElfSection.isLoaded (segment : ElfSection) : Bool :=
  segment.type == ptLoad && segment.flags &&& shfAlloc != 0

/-- The loop over the sections. -/
def copySections : List ElfSection → CpuM M Unit
  | [] => pure ()
  | segment :: rest => do
    if segment.isLoaded then
      copySection segment (segment.size.setWidth 32).toNat
    copySections rest

/-- `load_elf`. -/
def loadElf (load : String → Option ElfFile) (fileName : String) : CpuM M Bool :=
  match load fileName with
  | none => return false
  | some elfReader =>
    if elfReader.elfClass ≠ elfClass32 ∨ elfReader.encoding ≠ elfData2Msb ∨
      elfReader.type ≠ etExec ∨ elfReader.machine ≠ em68k then
      return false
    else do
      copySections elfReader.sections
      setReg regUSP .long memorySize
      setReg regPC .long (elfReader.entry.setWidth 32)
      return true

end M68kEmu
