import M68kEmu.Decode.Valid

/-!
# The loops of `generateOpcodeTable`, on any mask table

`generateOpcodeTable` once more, with both variables that outlive an iteration, and on a
table of any masks, values and creators.  The variables own an object or are empty, and
`std::move` leaves them empty.

A candidate that is rejected stays behind in `instruction_candidate`.  It reaches no entry, since an
entry is taken from `instruction`, and that variable is empty at the head of each iteration of the
outer loop (`TableLocals.Filled`).
-/

namespace M68kEmu

/-- A `MaskTableElement` with any `create_function`. -/
abbrev MaskTableRow := MaskTable.Row 32 (BitVec 16 → Instruction)

/-- The vector that `generateOpcodeTable` fills, and its local variables; an empty
pointer is `none`. -/
structure TableLocals where
  opcodeTable : Array (Option Instruction)
  instruction : Option Instruction
  instructionCandidate : Option Instruction

namespace TableLocals

/-- The inner loop: a row that matches ends it. -/
def scan (opcode : BitVec 32) (l : TableLocals) : List MaskTableRow → TableLocals
  | [] => l
  | opcodeMask :: rest =>
    if opcode &&& opcodeMask.mask ≠ opcodeMask.value then scan opcode l rest
    else
      let created := opcodeMask.entry (opcode.setWidth 16)
      if created.isValid then
        -- `instruction = std::move(instruction_candidate)`
        { l with instruction := some created, instructionCandidate := none }
      else { l with instructionCandidate := some created }

/-- The body of the outer loop. -/
def push (maskTable : List MaskTableRow) (opcode : BitVec 32) (l : TableLocals) : TableLocals :=
  let l := l.scan opcode maskTable
  let instruction := if l.instruction.isNone then some (Illegal.create (opcode.setWidth 16))
      else l.instruction
  { l with opcodeTable := l.opcodeTable.push instruction, instruction := none }

/-- The outer loop, from an opcode on. -/
def fill (maskTable : List MaskTableRow) (opcode : BitVec 32) (l : TableLocals) : TableLocals :=
  if opcode ≤ 0xffff then fill maskTable (opcode + 1) (l.push maskTable opcode) else l
termination_by 0x10000 - opcode.toNat
decreasing_by bv_omega

/-- `InstructionDecoder::generateOpcodeTable`; `clear` leaves the vector empty. -/
def generateOpcodeTable (maskTable : List MaskTableRow) : TableLocals :=
  fill maskTable 0#32 ⟨#[], none, none⟩

/-! ### One opcode -/

/-- The entry of an opcode: the object of the first row that it matches, if that is valid. -/
def specifiedEntry (maskTable : List MaskTableRow) (opcode : BitVec 16) : Instruction :=
  match MaskTable.first maskTable (opcode.setWidth 32) with
  | none => Illegal.create opcode
  | some row => if (row.entry opcode).isValid then row.entry opcode else Illegal.create opcode

section Opcode

variable {maskTable : List MaskTableRow} {l : TableLocals} {n : ℕ}

/-- The inner loop does nothing, or what the first row that matches says. -/
theorem scan_eq (opcode : BitVec 32) (l : TableLocals) (rows : List MaskTableRow) :
    l.scan opcode rows =
      match MaskTable.first rows opcode with
      | none => l
      | some row =>
        if (row.entry (opcode.setWidth 16)).isValid then
          { l with instruction := some (row.entry
            (opcode.setWidth 16)), instructionCandidate := none }
        else { l with instructionCandidate := some (row.entry (opcode.setWidth 16)) } := by
  induction rows with
  | nil => rfl
  | cons row rows ih =>
    rw [scan, MaskTable.first_cons]
    by_cases h : opcode &&& row.mask = row.value
    · rw [if_neg (not_not.2 h), if_pos (MaskTable.Pattern.test_iff.2 h)]
    · rw [if_pos h, if_neg fun htest => h (MaskTable.Pattern.test_iff.1 htest), ih]

theorem opcodeTable_scan (opcode : BitVec 32) (l : TableLocals) (rows : List MaskTableRow) :
    (l.scan opcode rows).opcodeTable = l.opcodeTable := by
  rw [scan_eq]
  split
  · rfl
  · split_ifs <;> rfl

/-- Where `instruction` is empty before, the body appends the entry of the opcode,
whatever the candidate was. -/
theorem push_eq (opcode : BitVec 16) (h : l.instruction = none) :
    (l.push maskTable (opcode.setWidth 32)).opcodeTable =
      l.opcodeTable.push (some (specifiedEntry maskTable opcode)) := by
  unfold push
  dsimp only
  rw [opcodeTable_scan]
  congr 1
  rw [scan_eq, setWidth_setWidth_opcode, specifiedEntry]
  rcases MaskTable.first maskTable (opcode.setWidth 32) with _ | row
  · simp [h]
  · dsimp only
    split_ifs with hvalid <;> simp_all

/-! ### All opcodes -/

/-- The table has the entries of the opcodes below `n`, and `instruction` is empty. -/
structure Filled (maskTable : List MaskTableRow) (n : ℕ) (l : TableLocals) : Prop where
  size : l.opcodeTable.size = n
  entry : ∀ opcode : BitVec 16, opcode.toNat < n →
    l.opcodeTable[opcode.toNat]? = some (some (specifiedEntry maskTable opcode))
  empty : l.instruction = none

theorem filled_start (maskTable : List MaskTableRow) : Filled maskTable 0 ⟨#[], none, none⟩ :=
  ⟨rfl, fun _ h => absurd h (Nat.not_lt_zero _), rfl⟩

/-- An iteration of the outer loop. -/
theorem Filled.push (h : l.Filled maskTable n) (hn : n < 0x10000) :
    (l.push maskTable (BitVec.ofNat 32 n)).Filled maskTable (n + 1) := by
  have hopcode : BitVec.ofNat 32 n = (BitVec.ofNat 16 n).setWidth 32 := by bv_omega
  have hpush : (l.push maskTable ((BitVec.ofNat 16 n).setWidth 32)).opcodeTable = _ :=
    push_eq (BitVec.ofNat 16 n) h.empty
  rw [← hopcode] at hpush
  refine ⟨?_, fun opcode hlt => ?_, rfl⟩
  · rw [hpush, Array.size_push, h.size]
  · rw [hpush, Array.getElem?_push, h.size]
    split_ifs with hlast
    · rw [← hlast, BitVec.ofNat_toNat, BitVec.setWidth_eq]
    · exact h.entry opcode (by omega)

/-- The outer loop, from any iteration on. -/
theorem Filled.fill (h : l.Filled maskTable n) (hn : n ≤ 0x10000) :
    (fill maskTable (BitVec.ofNat 32 n) l).Filled maskTable 0x10000 := by
  induction hk : 0x10000 - n generalizing n l with
  | zero =>
    have hend : n = 0x10000 := by omega
    subst hend
    rw [TableLocals.fill, if_neg (by decide)]
    exact h
  | succ k ih =>
    have hlt : n < 0x10000 := by omega
    have hle : BitVec.ofNat 32 n ≤ 0xffff := by bv_omega
    have hnext : BitVec.ofNat 32 n + 1 = BitVec.ofNat 32 (n + 1) := by bv_omega
    rw [TableLocals.fill, if_pos hle, hnext]
    exact ih (h.push hlt) (by omega) (by omega)

end Opcode

theorem filled_generateOpcodeTable (maskTable : List MaskTableRow) :
    (generateOpcodeTable maskTable).Filled maskTable 0x10000 := by
  unfold generateOpcodeTable
  exact (filled_start maskTable).fill (Nat.zero_le _)

/-! ### The table of the source -/

/-- `opcode_mask_table`, with its creators. -/
def opcodeMaskRows : List MaskTableRow :=
  opcodeMaskTable.map (MaskTable.Row.map InstructionClass.create)

/-- On that table the specification is the decoder. -/
theorem specifiedEntry_opcodeMaskRows (opcode : BitVec 16) :
    specifiedEntry opcodeMaskRows opcode = decode opcode := by
  rw [specifiedEntry, opcodeMaskRows, MaskTable.first_map, decode_eq]
  rcases MaskTable.first opcodeMaskTable (opcode.setWidth 32) with _ | row
  · rfl
  · rfl

/-- The loops on that table fill in what `Decode` returns. -/
theorem getElem?_opcodeTable_opcodeMaskRows (opcode : BitVec 16) :
    (generateOpcodeTable opcodeMaskRows).opcodeTable[opcode.toNat]? =
    some (some (decode opcode)) := by
  have hentry := (filled_generateOpcodeTable opcodeMaskRows).entry opcode opcode.isLt
  rwa [specifiedEntry_opcodeMaskRows] at hentry

/-! ### Any table -/

/-- Whatever the mask table, the loops end with one object for each opcode: that of the first row
that the opcode matches, if it is valid, and an `Illegal` otherwise. -/
theorem opcode_table_carries_nothing_over (maskTable : List MaskTableRow) :
    (generateOpcodeTable maskTable).opcodeTable.size = 0x10000 ∧ ∀ opcode : BitVec 16,
      (generateOpcodeTable maskTable).opcodeTable[opcode.toNat]? =
      some (some (specifiedEntry maskTable opcode)) := by
  have hfilled := filled_generateOpcodeTable maskTable
  refine ⟨hfilled.size, fun opcode => ?_⟩
  exact hfilled.entry opcode opcode.isLt

end TableLocals

end M68kEmu
