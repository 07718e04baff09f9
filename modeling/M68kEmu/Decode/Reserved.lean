import M68kEmu.Decode.Valid

/-!
# Reserved operand encodings

An effective address of mode 7 with register 5, 6 or 7 is reserved: `getAddressingMode` answers the
mode that does not exist.  Most constructors reject it.  Those of `Add`, `Sub`, `And`, `Or`, `Cmp`,
`Adda`, `Suba`, `Cmpa`, `Mul` and `Div` do not look at the mode of their source, and `Tst` not at
that of its operand (`unknown_mem_modes_iff`).
-/

namespace M68kEmu

open MaskTable

/-- The addressing modes of the operands. -/
def Derived.modes : Derived → List AddressingMode
  | .add f | .adda f | .addx f | .and f | .cmp f | .cmpa f | .eor f | .or f | .sub f
  | .suba f | .subx f =>
    [f.srcMode, f.destMode]
  | .addi f | .andi f | .clr f | .cmpi f | .eori f | .ext f | .jmp f | .jsr f | .neg f | .ori
      f | .pea f | .subi f
  | .tst f => [f.destMode]
  | .addq f | .moveq f | .subq f => [f.destMode]
  | .div f | .mul f => [f.srcMode, f.destMode]
  | .bitManip f => [f.srcMode, f.destMode]
  | .bitShift f => [f.addrMode]
  | .lea f => [f.srcMode]
  | .move f => [f.srcMode, f.destMode]
  | .scc f => [f.destMode]
  | .bcc _ | .illegal | .link _ | .nop | .rts | .unlk _ => []

/-- The effective address of the opcode is reserved. -/
def ReservedOperand (opcode : BitVec 16) : Prop :=
  opcode &&& 0x38 = 0x38 ∧ 5 ≤ (opcode &&& 0x7).toNat

instance (opcode : BitVec 16) : Decidable (ReservedOperand opcode) :=
  inferInstanceAs (Decidable (_ ∧ _))

/-- The opcodes whose constructor does not look at the mode of the effective address: `OR`,
`SUB`, `CMP`, `AND`, `ADD` to a data register, `DIVU`, `DIVS`, `SUBA`, `CMPA`, `MULU`,
`MULS`, `ADDA`, and `TST`. -/
def uncheckedOperand : List (Pattern 32) :=
  [0x8000, 0x9000, 0xB000, 0xC000, 0xD000].flatMap (fun line =>
    [0x0000, 0x0040, 0x0080, 0x00C0, 0x01C0].map fun opMode => ⟨0xF1C0, line ||| opMode⟩) ++
  [⟨0xFFC0, 0x4A00⟩, ⟨0xFFC0, 0x4A40⟩, ⟨0xFFC0, 0x4A80⟩]

/-- A reserved effective address that no constructor looks at. -/
def UncheckedReserved (opcode : BitVec 16) : Prop :=
  ReservedOperand opcode ∧ ∃ p ∈ uncheckedOperand, p.test (opcode.setWidth 32)

instance (opcode : BitVec 16) : Decidable (UncheckedReserved opcode) :=
  inferInstanceAs (Decidable (_ ∧ _))

/-- The opcodes that a constructor accepts without a look at the mode of the effective address, by
their size fields. -/
def unlooked : InstructionClass → List (Pattern 32)
  | .add | .sub | .and | .or => [⟨0x01C0, 0x0000⟩, ⟨0x01C0, 0x0040⟩, ⟨0x01C0, 0x0080⟩]
  | .cmp | .tst => [⟨0x00C0, 0x0000⟩, ⟨0x00C0, 0x0040⟩, ⟨0x00C0, 0x0080⟩]
  | .adda | .suba | .cmpa | .mul | .div => [⟨0x0100, 0x0000⟩, ⟨0x0100, 0x0100⟩]
  | _ => []

/-! ### The table -/

/-- A row of such a class leaves the unchecked opcodes. -/
theorem unchecked_of_row :
    ∀ row ∈ opcodeMaskTable, ∀ q ∈ unlooked row.entry,
      Pattern.Excludes row.toPattern q ∨
        ∃ p ∈ uncheckedOperand, Pattern.Implies ⟨row.mask ||| q.mask, row.value ||| q.value⟩ p := by
  decide +kernel

/-- An unchecked opcode of mode 7 takes a row of such a class. -/
theorem row_of_unchecked :
    ∀ p ∈ uncheckedOperand,
      (∃ row ∈ opcodeMaskTable, p.Implies row.toPattern) ∧
        ∀ row ∈ candidates [] ⟨p.mask ||| 0x38, p.value ||| 0x38⟩ opcodeMaskTable,
          ∃ q ∈ unlooked row.entry, p.Implies q := by
  decide +kernel

/-! ### The constructors -/

section Fields

variable {opcode : BitVec 16}

theorem getAddressingMode_eq_unknown_iff {partMode partReg : BitVec 16} (h : partMode.toNat ≤ 7) :
    getAddressingMode partMode partReg = .unknown ↔ partMode = 7 ∧ 5 ≤ partReg.toNat := by
  have heq : partMode = 7 ↔ partMode.toNat = 7 := by rw [← BitVec.toNat_inj]; rfl
  rw [heq, getAddressingMode]
  grind

theorem toNat_field_le (part : BitVec 16) : (part &&& 0x7).toNat ≤ 7 := by
  rw [BitVec.toNat_and]
  exact Nat.and_le_right

/-- The mode of the effective address, from its two fields. -/
theorem reservedOperand_iff :
    ReservedOperand opcode ↔
    getAddressingMode ((opcode >>> 3) &&& 0x7) (opcode &&& 0x7) = .unknown := by
  rw [getAddressingMode_eq_unknown_iff (toNat_field_le _), ReservedOperand]
  refine and_congr_left fun _ => ⟨fun h => field_eq_of_matches h 3 0x7 (by decide), fun h => ?_⟩
  have hmask : (0x38 : BitVec 16) = (0x7 : BitVec 16) <<< 3 := by decide
  rw [hmask, and_shiftLeft, h]

/-- The values of a field. -/
theorem and_eq_or (part mask : BitVec 16) :
    ∃ n ≤ mask.toNat, part &&& mask = BitVec.ofNat 16 n := by
  refine ⟨(part &&& mask).toNat, ?_, by simp⟩
  rw [BitVec.toNat_and]
  exact Nat.and_le_right

/-- The three sizes of a size field. -/
theorem sizeOfPart_isSome_iff :
    (sizeOfPart ((opcode >>> 6) &&& 0x3)).isSome ↔
      opcode &&& 0xC0 = 0x00 ∨ opcode &&& 0xC0 = 0x40 ∨ opcode &&& 0xC0 = 0x80 := by
  have hmask : (0xC0 : BitVec 16) = (0x3 : BitVec 16) <<< 6 := by decide
  rw [hmask, and_shiftLeft]
  obtain ⟨n, hn, h⟩ := and_eq_or (opcode >>> 6) 0x3
  rw [h]
  clear h
  revert n
  decide

/-- A size field with the bit above it clear. -/
theorem opMode_iff {v : BitVec 16} (hv : v &&& 0xC0 = v) (hbit : (v >>> 8) &&& 0x1 = 0) :
    opcode &&& 0x1C0 = v ↔ (opcode >>> 8) &&& 0x1 = 0 ∧ opcode &&& 0xC0 = v := by
  constructor
  · intro h
    exact ⟨(field_eq_of_matches h 8 0x1 (by decide)).trans hbit,
      (and_eq_of_and_eq h (by decide)).trans hv⟩
  · rintro ⟨hop, hsize⟩
    have hmask : (0x1C0 : BitVec 16) = ((0x1 : BitVec 16) <<< 8) ||| 0xC0 := by decide
    rw [hmask, BitVec.and_or_distrib_left, and_shiftLeft, hop, hsize]
    simp

end Fields

section Families

variable {opcode : BitVec 16}

theorem exists_test_iff (m : BitVec 16) (values : List (BitVec 16)) :
    (∃ q ∈ values.map fun v => (⟨m.setWidth 32, v.setWidth 32⟩ : Pattern 32),
      q.test (opcode.setWidth 32)) ↔ opcode &&& m ∈ values := by
  simp only [List.mem_map, exists_exists_and_eq_and, test_iff_opcode]
  simp

/-- The three patterns of a size field. -/
theorem exists_size_iff :
    (∃ q ∈ ([⟨0x00C0, 0x0000⟩, ⟨0x00C0, 0x0040⟩, ⟨0x00C0, 0x0080⟩] : List (Pattern 32)),
      q.test (opcode.setWidth 32)) ↔ (sizeOfPart ((opcode >>> 6) &&& 0x3)).isSome := by
  rw [sizeOfPart_isSome_iff]
  refine (exists_test_iff 0xC0 [0x00, 0x40, 0x80]).trans ?_
  simp

theorem exists_opMode_iff :
    (∃ q ∈ ([⟨0x01C0, 0x0000⟩, ⟨0x01C0, 0x0040⟩, ⟨0x01C0, 0x0080⟩] : List (Pattern 32)),
      q.test (opcode.setWidth 32)) ↔
      (opcode >>> 8) &&& 0x1 = 0 ∧ (sizeOfPart ((opcode >>> 6) &&& 0x3)).isSome := by
  rw [sizeOfPart_isSome_iff, and_or_left, and_or_left, ← opMode_iff (by decide) (by decide),
    ← opMode_iff (by decide) (by decide), ← opMode_iff (by decide) (by decide)]
  refine (exists_test_iff 0x1C0 [0x00, 0x40, 0x80]).trans ?_
  simp

/-- Every opcode has one of two values at a bit. -/
theorem exists_bit :
    ∃ q ∈ ([⟨0x0100, 0x0000⟩, ⟨0x0100, 0x0100⟩] : List (Pattern 32)),
    q.test (opcode.setWidth 32) := by
  refine (exists_test_iff 0x100 [0x000, 0x100]).2 ?_
  have hmask : (0x100 : BitVec 16) = (0x1 : BitVec 16) <<< 8 := by decide
  obtain ⟨n, hn, h⟩ := and_eq_or (opcode >>> 8) 0x1
  rw [hmask, and_shiftLeft, h]
  clear h
  revert n
  decide

/-- The constructor accepts the opcode and hands out an object with the mode that does not exist. -/
def AcceptsUnknown (instruction : Instruction) : Prop :=
  instruction.isValid ∧ .unknown ∈ instruction.derived.modes

theorem ne_unknown_of_isMemoryAlterable {mode : AddressingMode} (h : isMemoryAlterable mode) :
    mode ≠ .unknown := by
  rintro rfl
  cases h

theorem ne_unknown_of_isControlAddr {mode : AddressingMode} (h : isControlAddr mode) :
    mode ≠ .unknown := by
  rintro rfl
  cases h

theorem acceptsUnknown_createOpMode {cls : TwoOperand → Derived}
    (hcls : ∀ f, (cls f).modes = [f.srcMode, f.destMode]) :
    AcceptsUnknown (createOpMode cls opcode) ↔
      ReservedOperand opcode ∧ (opcode >>> 8) &&& 0x1 = 0 ∧
      (sizeOfPart ((opcode >>> 6) &&& 0x3)).isSome := by
  simp only [AcceptsUnknown, createOpMode]
  split_ifs with hop
  · refine iff_of_false (fun h => ?_) fun h => hop h.2.1
    have halterable := (Bool.and_eq_true_iff.1 h.1).1
    rw [hcls] at h
    exact (ne_unknown_of_isMemoryAlterable halterable).symm (by simpa using h.2)
  · have hmem :
        AddressingMode.unknown ∈ [getAddressingMode ((opcode >>> 3) &&& 0x7) (opcode &&& 0x7),
          .directData] ↔ ReservedOperand opcode := by
      rw [reservedOperand_iff]
      simp [eq_comm]
    rw [hcls, hmem, and_comm, and_iff_right (not_not.1 hop)]

theorem acceptsUnknown_createAddr {cls : TwoOperand → Derived}
    (hcls : ∀ f, (cls f).modes = [f.srcMode, f.destMode]) :
    AcceptsUnknown (createAddr cls opcode) ↔ ReservedOperand opcode := by
  simp only [AcceptsUnknown, createAddr, hcls, reservedOperand_iff]
  simp [eq_comm]

theorem acceptsUnknown_createSigned {cls : SignedOperand → Derived}
    (hcls : ∀ f, (cls f).modes = [f.srcMode, f.destMode]) :
    AcceptsUnknown (createSigned cls opcode) ↔ ReservedOperand opcode := by
  simp only [AcceptsUnknown, createSigned, hcls, reservedOperand_iff]
  simp [eq_comm]

theorem acceptsUnknown_cmp :
    AcceptsUnknown (Cmp.create opcode) ↔
    ReservedOperand opcode ∧ (sizeOfPart ((opcode >>> 6) &&& 0x3)).isSome := by
  rw [AcceptsUnknown, and_comm, reservedOperand_iff]
  refine and_congr_left fun _ => ?_
  simp [Cmp.create, Derived.modes, eq_comm]

theorem acceptsUnknown_tst :
    AcceptsUnknown (Tst.create opcode) ↔
    ReservedOperand opcode ∧ (sizeOfPart ((opcode >>> 6) &&& 0x3)).isSome := by
  rw [AcceptsUnknown, and_comm, reservedOperand_iff]
  refine and_congr_left fun _ => ?_
  simp [Tst.create, Derived.modes, eq_comm]

end Families

/-- The other constructors accept no object with the mode that does not exist. -/
theorem not_acceptsUnknown {cls : InstructionClass} {opcode : BitVec 16} (h : unlooked cls = []) :
    ¬AcceptsUnknown (cls.create opcode) := by
  rintro ⟨hvalid, hmode⟩
  have hf := accepts_create cls opcode hvalid
  have hdest {a b : AddressingMode} (hb : isMemoryAlterable b) (hmode : .unknown ∈ [a, b]) :
      a = .unknown := by
    have hne := ne_unknown_of_isMemoryAlterable hb
    simp only [List.mem_cons, List.not_mem_nil, or_false] at hmode
    exact (hmode.resolve_right hne.symm).symm
  have hsingle {a : AddressingMode} (h : .unknown ∈ [a]) : a = .unknown :=
    (List.mem_singleton.1 h).symm
  cases cls with
  | add | sub | and | or | cmp | tst | adda | suba | cmpa | mul | div => cases h
  | addi | subi | andi | ori | eori | cmpi | clr | neg | addq | subq | moveq =>
    exact ne_unknown_of_isMemoryAlterable hf.alterable (hsingle hmode)
  | ext => exact ne_unknown_of_isMemoryAlterable hf.1.alterable (hsingle hmode)
  | jmp | jsr | pea | lea => exact ne_unknown_of_isControlAddr hf.1.2 (hsingle hmode)
  | scc => exact ne_unknown_of_isMemoryAlterable hf.2 (hsingle hmode)
  -- these set the source to a mode that exists, or test it
  | addx | subx =>
    have hsrc :
        (if (opcode >>> 3) &&& 0x1 = 0 then AddressingMode.directData else .indirectPredecrement) =
        .unknown :=
      hdest hf.alterable hmode
    split_ifs at hsrc
  | bitManip =>
    have hsrc :
        (if (opcode >>> 8) &&& 0x1 ≠ 0 then AddressingMode.directData else .immediate) = .unknown :=
      hdest hf.alterable hmode
    split_ifs at hsrc
  | bitShift =>
    by_cases hmemory : (opcode >>> 6) &&& 0x3 = 3
    · simp only [InstructionClass.create, BitShift.create, hmemory, decide_true, if_true]
        at hvalid hmode
      exact ne_unknown_of_isMemoryAlterable hvalid (hsingle hmode)
    · simp only [InstructionClass.create, BitShift.create, hmemory, decide_false,
        Bool.false_eq_true, if_false] at hmode
      cases hsingle hmode
  | eor =>
    simp only [InstructionClass.create, Eor.create] at hvalid hmode
    split_ifs at hvalid hmode
    have hsrc := hdest (Bool.and_eq_true_iff.1 hvalid).1 hmode
    cases hsrc
  | move =>
    have hsrc := hdest hf.1.alterable hmode
    simp only [InstructionClass.create, Move.create, Bool.and_eq_true, bne_iff_ne] at hvalid
    exact hvalid.1.1.1 hsrc
  | bcc | illegal | link | nop | rts | unlk => exact absurd hmode List.not_mem_nil

theorem acceptsUnknown_iff {cls : InstructionClass} {opcode : BitVec 16} :
    AcceptsUnknown (cls.create opcode) ↔
      ReservedOperand opcode ∧ ∃ q ∈ unlooked cls, q.test (opcode.setWidth 32) := by
  cases cls with
  | add | sub | and | or =>
    exact (acceptsUnknown_createOpMode fun _ => rfl).trans (and_congr_right' exists_opMode_iff.symm)
  | adda | suba | cmpa =>
    exact (acceptsUnknown_createAddr fun _ => rfl).trans (and_iff_left exists_bit).symm
  | mul | div =>
    exact (acceptsUnknown_createSigned fun _ => rfl).trans (and_iff_left exists_bit).symm
  | cmp => exact acceptsUnknown_cmp.trans (and_congr_right' exists_size_iff.symm)
  | tst => exact acceptsUnknown_tst.trans (and_congr_right' exists_size_iff.symm)
  | _ =>
    refine iff_of_false (not_acceptsUnknown rfl) ?_
    rintro ⟨-, q, hq, -⟩
    cases hq

/-! ### The decoder -/

section Decoder

variable {opcode : BitVec 16}

/-- For a reserved effective address, the first row decides whether the opcode is unchecked. -/
theorem unchecked_iff_first (hreserved : ReservedOperand opcode) :
    (∃ p ∈ uncheckedOperand, p.test (opcode.setWidth 32)) ↔
      ∃ row, first opcodeMaskTable (opcode.setWidth 32) = some row ∧
        ∃ q ∈ unlooked row.entry, q.test (opcode.setWidth 32) := by
  constructor
  · rintro ⟨p, hp, htest⟩
    obtain ⟨⟨row', hrow', himp⟩, hcandidates⟩ := row_of_unchecked p hp
    have hmode : Pattern.test ⟨0x38, 0x38⟩ (opcode.setWidth 32) := test_iff_opcode.2 hreserved.1
    rcases hfirst : first opcodeMaskTable (opcode.setWidth 32) with _ | row
    · exact absurd (himp.test htest) (not_test_of_first hfirst row' hrow')
    · have hboth := Pattern.test_or htest hmode
      have hcandidate := mem_candidates_of_first (fun _ h => absurd h List.not_mem_nil) hboth hfirst
      obtain ⟨q, hq, himp⟩ := hcandidates row hcandidate
      exact ⟨row, rfl, q, hq, himp.test htest⟩
  · rintro ⟨row, hfirst, q, hq, htest⟩
    obtain ⟨hmem, hrow⟩ := mem_of_first hfirst
    obtain hex | ⟨p, hp, himp⟩ := unchecked_of_row row hmem q hq
    · have hnot := hex.not_test hrow
      rw [htest] at hnot
      cases hnot
    · exact ⟨p, hp, himp.test (Pattern.test_or hrow htest)⟩

/-- The unchecked reserved opcodes are those that the decoder turns into an object with the mode
that does not exist. -/
theorem unknown_mem_modes_iff : .unknown ∈ (decode opcode).derived.modes ↔
    UncheckedReserved opcode := by
  have hfirst : .unknown ∈ (decode opcode).derived.modes ↔
      ∃ row, first opcodeMaskTable (opcode.setWidth 32) = some row ∧
      AcceptsUnknown (row.entry.create opcode) := by
    rw [decode_eq]
    rcases first opcodeMaskTable (opcode.setWidth 32) with _ | row
    · exact iff_of_false List.not_mem_nil (by rintro ⟨_, h, -⟩; cases h)
    · dsimp only
      split_ifs with hvalid
      · exact ⟨fun h => ⟨row, rfl, hvalid, h⟩, fun ⟨_, h, hunknown⟩ => by cases h; exact hunknown.2⟩
      · exact iff_of_false List.not_mem_nil
          (by rintro ⟨_, h, hunknown⟩; cases h; exact hvalid hunknown.1)
  simp only [hfirst, acceptsUnknown_iff, UncheckedReserved]
  constructor
  · rintro ⟨row, hrow, hreserved, hq⟩
    exact ⟨hreserved, (unchecked_iff_first hreserved).2 ⟨row, hrow, hq⟩⟩
  · rintro ⟨hreserved, hp⟩
    obtain ⟨row, hrow, hq⟩ := (unchecked_iff_first hreserved).1 hp
    exact ⟨row, hrow, hreserved, hq⟩

/-- The constructor that the table selects decodes a reserved effective address. -/
def DecodesReserved (opcode : BitVec 16) : Prop :=
  ∃ row, first opcodeMaskTable (opcode.setWidth 32) = some row ∧
    .unknown ∈ (row.entry.create opcode).derived.modes

/-- A reserved effective address is rejected, unless it is unchecked. -/
theorem decode_of_reserved (h : DecodesReserved opcode) (hchecked : ¬UncheckedReserved opcode) :
    decode opcode = Illegal.create opcode := by
  obtain ⟨row, hrow, hmode⟩ := h
  rw [decode_eq, hrow]
  dsimp only
  split_ifs with hvalid
  · have hdecode : decode opcode = row.entry.create opcode := by
      rw [decode_eq, hrow]
      exact if_pos hvalid
    rw [← hdecode] at hmode
    exact absurd (unknown_mem_modes_iff.1 hmode) hchecked
  · rfl

end Decoder

end M68kEmu
