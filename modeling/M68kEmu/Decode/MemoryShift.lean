import M68kEmu.Decode.Valid

/-!
# The opcodes of the shifts

The opcodes `1110 xxxx xxxx xxxx` are the shifts.  Those whose size field is 3 shift a memory
operand, which is the effective address of the opcode; `MemoryShift` sorts them by its mode.
-/

namespace M68kEmu

open MaskTable

/-- The opcode of a shift of a memory operand, with a mode that satisfies `P`. -/
def MemoryShift (P : AddressingMode → Prop) (opcode : BitVec 16) : Prop :=
  opcode &&& 0xF0C0 = 0xE0C0 ∧ P (getAddressingMode ((opcode >>> 3) &&& 0x7) (opcode &&& 0x7))

instance (P : AddressingMode → Prop) [DecidablePred P] (opcode : BitVec 16) :
    Decidable (MemoryShift P opcode) :=
  inferInstanceAs (Decidable (_ ∧ _))

/-- The rows of `BitShift` match opcodes of the form `1110 xxxx xxxx xxxx` only. -/
theorem implies_of_bitShift :
    ∀ row ∈ opcodeMaskTable, row.entry = .bitShift →
    Pattern.Implies row.toPattern ⟨0xF000, 0xE000⟩ := by
  decide

/-- An opcode of that form matches rows of `BitShift` only. -/
theorem bitShift_of_not_excludes :
    ∀ row ∈ opcodeMaskTable, ¬Pattern.Excludes ⟨0xF000, 0xE000⟩ row.toPattern →
    row.entry = .bitShift := by
  decide

theorem bitShift_create_mode {opcode : BitVec 16} {f : BitShiftOperand}
    (h : (BitShift.create opcode).derived = .bitShift f) :
    f.addrMode = if (opcode >>> 6) &&& 0x3 = 3 then getAddressingMode ((opcode >>> 3) &&& 0x7)
      (opcode &&& 0x7) else .directData := by
  by_cases hmemory : (opcode >>> 6) &&& 0x3 = 3
  · simp only [BitShift.create, hmemory, decide_true, if_true, Derived.bitShift.injEq] at h ⊢
    rw [← h]
  · simp only [BitShift.create, hmemory, decide_false, Bool.false_eq_true, if_false,
      Derived.bitShift.injEq] at h ⊢
    rw [← h]
    rfl

theorem bitShift_create_isMemory {opcode : BitVec 16} {f : BitShiftOperand}
    (h : (BitShift.create opcode).derived = .bitShift f) :
    f.isMemory = decide ((opcode >>> 6) &&& 0x3 = 3) := by
  by_cases hmemory : (opcode >>> 6) &&& 0x3 = 3
  · simp only [BitShift.create, hmemory, decide_true, if_true, Derived.bitShift.injEq] at h ⊢
    rw [← h]
  · simp only [BitShift.create, hmemory, decide_false, Bool.false_eq_true, if_false,
      Derived.bitShift.injEq] at h ⊢
    rw [← h]

/-- A shift that is not in memory is of a data register. -/
theorem directData_of_bitShift {opcode : BitVec 16} {f : BitShiftOperand}
    (h : (decode opcode).derived = .bitShift f) (hmemory : f.isMemory = false) :
    f.addrMode = .directData := by
  obtain ⟨-, hcreate⟩ := created_of_decode h nofun
  have hpart := bitShift_create_isMemory hcreate
  rw [hmemory, eq_comm, decide_eq_false_iff_not] at hpart
  rw [bitShift_create_mode hcreate, if_neg hpart]

theorem Derived.eq_bitShift_of_cls {d : Derived} (h : d.cls = .bitShift) :
    ∃ f, d = .bitShift f := by
  cases d <;> simp [Derived.cls] at h
  exact ⟨_, rfl⟩

section Operand

variable {P : AddressingMode → Prop} {opcode : BitVec 16}

/-- The mode of the operand of a shift, by its opcode. -/
theorem memoryShift_iff {f : BitShiftOperand} (hP : ¬P .directData)
    (h : (decode opcode).derived = .bitShift f) : MemoryShift P opcode ↔ P f.addrMode := by
  have hcls : (decode opcode).derived.cls = .bitShift := by rw [h, Derived.cls]
  obtain ⟨row, hrow, hentry, htest, -, hdecode⟩ := exists_row_of_decode hcls (by decide)
  have hnibble : opcode &&& 0xF000 = 0xE000 :=
    test_iff_opcode.1 ((implies_of_bitShift row hrow hentry).test htest)
  rw [hdecode] at h
  rw [bitShift_create_mode h, MemoryShift]
  split_ifs with hmemory
  · have hsize : opcode &&& ((0x3 : BitVec 16) <<< 6) = (0x3 : BitVec 16) <<< 6 := by
      rw [and_shiftLeft, hmemory]
    have hmask :
        (0xF0C0 : BitVec 16) = (0xF000 : BitVec 16) ||| ((0x3 : BitVec 16) <<< 6) := by decide
    have hopcode : opcode &&& 0xF0C0 = 0xE0C0 := by
      rw [hmask, BitVec.and_or_distrib_left, hnibble, hsize]
      decide
    exact and_iff_right hopcode
  · refine iff_of_false (fun hshift => hmemory ?_) hP
    exact field_eq_of_matches hshift.1 6 0x3 (by decide)

/-- An opcode of the form `1110 xxxx xxxx xxxx` is a shift or illegal. -/
theorem cls_of_nibble (h : opcode &&& 0xF000 = 0xE000)
    (hcls : (decode opcode).derived.cls ≠ .illegal) : (decode opcode).derived.cls = .bitShift := by
  obtain ⟨row, hrow, hentry, htest, -⟩ := exists_row_of_decode rfl hcls
  rw [← hentry]
  refine bitShift_of_not_excludes row hrow fun hex => ?_
  have hnot := hex.not_test (test_iff_opcode.2 h)
  rw [htest] at hnot
  cases hnot

theorem not_memoryShift (hlegal : (decode opcode).derived.cls ≠ .illegal)
    (hcls : (decode opcode).derived.cls ≠ .bitShift) : ¬MemoryShift P opcode := fun hshift =>
  hcls (cls_of_nibble ((and_eq_of_and_eq hshift.1 (by decide)).trans (by decide)) hlegal)

end Operand

end M68kEmu
