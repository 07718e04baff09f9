import M68kEmu.Frame.Consumption
import M68kEmu.Model.Cpu

/-!
# What a decoded instruction object satisfies

`Derived.Valid` is what the constructors check, or have by the way they take the fields of the
opcode apart: register numbers are below 16, a base register that moves is an address register,
destinations can be written.  Every object that the decoder hands out is valid (`valid_decode`).
-/

namespace M68kEmu

/-! ### The table -/

/-- The entry of an opcode, from the first row that it matches. -/
theorem scanMaskTable_eq (opcode : BitVec 32) (instruction : Option Instruction)
    (rows : List MaskTableElement) : scanMaskTable opcode instruction rows =
      match MaskTable.first rows opcode with
      | none => instruction
      | some row =>
        if (row.entry.create (opcode.setWidth 16)).isValid then some
          (row.entry.create (opcode.setWidth 16))
        else instruction := by
  induction rows with
  | nil => rfl
  | cons row rows ih =>
    rw [scanMaskTable, MaskTable.first, List.find?_cons]
    by_cases h : opcode &&& row.mask = row.value
    · rw [if_neg (not_not.2 h), MaskTable.Pattern.test_iff.2 h]
    · have htest : row.test opcode = false := by simpa [MaskTable.Pattern.test] using h
      rw [if_pos h, htest, ih, MaskTable.first]

theorem setWidth_setWidth_opcode (opcode : BitVec 16) :
    (opcode.setWidth 32).setWidth 16 = opcode := by
  rw [BitVec.setWidth_setWidth_of_le opcode (by decide), BitVec.setWidth_eq]

/-- A test of the whole opcode, as the decoder makes it on 32 bits. -/
theorem test_iff_opcode {opcode m v : BitVec 16} :
    MaskTable.Pattern.test ⟨m.setWidth 32, v.setWidth 32⟩ (opcode.setWidth 32) ↔
    opcode &&& m = v := by
  rw [MaskTable.Pattern.test_iff, ← BitVec.setWidth_and]
  refine ⟨fun h => ?_, fun h => by rw [h]⟩
  have := congrArg (BitVec.setWidth 16) h
  rwa [setWidth_setWidth_opcode, setWidth_setWidth_opcode] at this

/-- The decoder in terms of the first row that an opcode matches. -/
theorem decode_eq (opcode : BitVec 16) :
    decode opcode =
      match MaskTable.first opcodeMaskTable (opcode.setWidth 32) with
      | none => Illegal.create opcode
      | some row => if (row.entry.create opcode).isValid then row.entry.create opcode
          else Illegal.create opcode := by
  rw [decode_eq_opcodeEntry, opcodeEntry, scanMaskTable_eq, setWidth_setWidth_opcode]
  rcases MaskTable.first opcodeMaskTable (opcode.setWidth 32) with _ | row
  · rfl
  · dsimp only
    split_ifs <;> rfl

/-- A property of the objects that the constructors accept, and of `Illegal`, holds of
every decoded object. -/
theorem decode_induction {P : BitVec 16 → Derived → Prop} (hillegal : ∀ opcode, P opcode .illegal)
    (hrow : ∀ row ∈ opcodeMaskTable, ∀ opcode : BitVec 16, row.test (opcode.setWidth 32) →
      (row.entry.create opcode).isValid → P opcode (row.entry.create opcode).derived)
      (opcode : BitVec 16) : P opcode (decode opcode).derived := by
  rw [decode_eq]
  rcases hfirst : MaskTable.first opcodeMaskTable (opcode.setWidth 32) with _ | row
  · exact hillegal opcode
  · obtain ⟨hmem, htest⟩ := MaskTable.mem_of_first hfirst
    dsimp only
    split_ifs with hvalid
    · exact hrow row hmem opcode htest hvalid
    · exact hillegal opcode

/-! ### Validity -/

/-- The register of an operand is a data or an address register; one that the operand moves is an
address register. -/
structure ValidOperand (mode : AddressingMode) (reg : ℕ) : Prop where
  lt : reg < 16
  base : MovesBase mode → 8 ≤ reg

/-- A destination that can be written, at a size that is set. -/
structure OneOperand.Valid (f : OneOperand) : Prop where
  dest : ValidOperand f.destMode f.destReg
  alterable : isMemoryAlterable f.destMode
  sized : f.dataSize.isSome

/-- A source, and a destination that can be written. -/
structure TwoOperand.Valid (f : TwoOperand) : Prop extends OneOperand.Valid f.toOneOperand where
  src : ValidOperand f.srcMode f.srcReg

/-- The fields of an object are as its constructor leaves them when it accepts the opcode. -/
def Derived.Valid : Derived → Prop
  | .add f | .adda f | .addx f | .and f | .cmp f | .cmpa f | .eor f | .or f | .sub f | .suba f
  | .subx f => f.Valid
  | .addi f | .andi f | .clr f | .cmpi f | .eori f | .neg f | .ori f | .subi f => f.Valid
  | .addq f | .moveq f | .subq f => f.toOneOperand.Valid
  | .div f | .mul f => f.toTwoOperand.Valid ∧ f.destMode = .directData
  | .ext f => f.Valid ∧ f.destMode = .directData
  | .bitManip f => f.toTwoOperand.Valid
  | .move f => f.toTwoOperand.Valid ∧ (f.isMovea = true ↔ f.destMode = .directAddr)
  | .bitShift f => ValidOperand f.addrMode f.addrReg ∧ f.shiftReg < 16
  | .jmp f | .jsr f | .pea f => (ValidOperand f.destMode f.destReg ∧ isControlAddr f.destMode) ∧
      f.dataSize.isSome
  | .lea f => (ValidOperand f.srcMode f.srcReg ∧ isControlAddr f.srcMode) ∧ f.addrReg < 16
  | .link addrReg | .unlk addrReg => addrReg < 16
  | .scc f => ValidOperand f.destMode f.destReg ∧ isMemoryAlterable f.destMode
  | .tst f => ValidOperand f.destMode f.destReg ∧ f.dataSize.isSome
  | .bcc _ | .illegal | .nop | .rts => True

section Fields

variable (partMode part opcode : BitVec 16)

theorem validOperand_fields :
    ValidOperand (getAddressingMode partMode (part &&& 0x7))
      (getRegisterType partMode (part &&& 0x7)) where
  lt := getRegisterType_lt _ _
  base h := by
    have hmode : partMode ≠ 0 := by
      rintro rfl
      exact absurd h (by decide : ¬MovesBase .directData)
    rw [getRegisterType, if_neg hmode]
    omega

theorem validOperand_directData :
    ValidOperand .directData (getRegisterType partMode (part &&& 0x7)) :=
  ⟨getRegisterType_lt _ _, fun h => absurd h (by decide)⟩

theorem validOperand_directAddr :
    ValidOperand .directAddr (getRegisterType partMode (part &&& 0x7)) :=
  ⟨getRegisterType_lt _ _, fun h => absurd h (by decide)⟩

theorem validOperand_immediate :
    ValidOperand .immediate (getRegisterType partMode (part &&& 0x7)) :=
  ⟨getRegisterType_lt _ _, fun h => absurd h (by decide)⟩

end Fields

/-! ### The constructors -/

/-- The objects that a constructor accepts are valid. -/
def Accepts (create : BitVec 16 → Instruction) : Prop :=
  ∀ opcode, (create opcode).isValid → (create opcode).derived.Valid

section Families

theorem accepts_createOpMode {cls : TwoOperand → Derived} (hcls : ∀ f, f.Valid → (cls f).Valid) :
    Accepts (createOpMode cls) := by
  intro opcode h
  simp only [createOpMode] at h ⊢
  split_ifs at h ⊢
  · obtain ⟨halterable, hsized⟩ := Bool.and_eq_true_iff.1 h
    exact hcls _ ⟨⟨validOperand_fields _ _, halterable, hsized⟩, validOperand_directData 0 _⟩
  · exact hcls _ ⟨⟨validOperand_directData 0 _, rfl, h⟩, validOperand_fields _ _⟩

theorem accepts_createAddr {cls : TwoOperand → Derived} (hcls : ∀ f, f.Valid → (cls f).Valid) :
    Accepts (createAddr cls) := fun _ _ =>
  hcls _ ⟨⟨validOperand_directAddr 1 _, rfl, rfl⟩, validOperand_fields _ _⟩

theorem accepts_createDest {cls : OneOperand → Derived} (hcls : ∀ f, f.Valid → (cls f).Valid) :
    Accepts (createDest cls) := fun _ h =>
  hcls _ ⟨validOperand_fields _ _, (Bool.and_eq_true_iff.1 h).1, (Bool.and_eq_true_iff.1 h).2⟩

theorem accepts_createQuick {cls : QuickOperand → Derived}
    (hcls : ∀ f, f.toOneOperand.Valid → (cls f).Valid) : Accepts (createQuick cls) := fun _ h =>
  hcls _ ⟨validOperand_fields _ _, (Bool.and_eq_true_iff.1 h).1, (Bool.and_eq_true_iff.1 h).2⟩

theorem accepts_createExtended {cls : TwoOperand → Derived} (hcls : ∀ f, f.Valid → (cls f).Valid) :
    Accepts (createExtended cls) := by
  intro opcode h
  simp only [createExtended] at h ⊢
  by_cases hmode : (opcode >>> 3) &&& 0x1 = 0
  · simp only [if_pos hmode]
    exact hcls _ ⟨⟨validOperand_directData _ _, rfl, h⟩, validOperand_directData _ _⟩
  · have hbase (part : BitVec 16) :
        ValidOperand .indirectPredecrement
        (getRegisterType ((opcode >>> 3) &&& 0x1) (part &&& 0x7)) :=
      ⟨getRegisterType_lt _ _, fun _ => by rw [getRegisterType, if_neg hmode]; omega⟩
    simp only [if_neg hmode]
    exact hcls _ ⟨⟨hbase _, rfl, h⟩, hbase _⟩

theorem accepts_createSigned {cls : SignedOperand → Derived}
    (hcls : ∀ f, f.toTwoOperand.Valid ∧ f.destMode = .directData → (cls f).Valid) :
    Accepts (createSigned cls) := fun _ _ =>
  hcls _ ⟨⟨⟨validOperand_directData 0 _, rfl, rfl⟩, validOperand_fields _ _⟩, rfl⟩

theorem accepts_createControl {cls : OneOperand → Derived}
    (hcls : ∀ f, (ValidOperand f.destMode f.destReg ∧ isControlAddr f.destMode) ∧
      f.dataSize.isSome → (cls f).Valid) :
    Accepts (createControl cls) := fun _ h => hcls _ ⟨⟨validOperand_fields _ _, h⟩, rfl⟩

end Families

theorem accepts_cmp : Accepts Cmp.create := fun _ h =>
  ⟨⟨validOperand_directData 0 _, rfl, h⟩, validOperand_fields _ _⟩

theorem accepts_eor : Accepts Eor.create := by
  intro opcode h
  simp only [Eor.create] at h ⊢
  split_ifs at h ⊢
  obtain ⟨halterable, hsized⟩ := Bool.and_eq_true_iff.1 h
  exact ⟨⟨validOperand_fields _ _, halterable, hsized⟩, validOperand_directData 0 _⟩

theorem accepts_ext : Accepts Ext.create :=
  fun _ _ => ⟨⟨validOperand_directData 0 _, rfl, rfl⟩, rfl⟩

theorem accepts_tst : Accepts Tst.create := fun _ _ => ⟨validOperand_fields _ _, rfl⟩

theorem isMemoryAlterable_of_isDataAlterable {mode : AddressingMode} (h : isDataAlterable mode) :
    isMemoryAlterable mode := by
  cases mode <;> simp_all [isDataAlterable, isMemoryAlterable]

theorem accepts_bitManip : Accepts BitManip.create := by
  intro opcode h
  refine ⟨⟨validOperand_fields _ _, isMemoryAlterable_of_isDataAlterable h, rfl⟩, ?_⟩
  dsimp only [BitManip.create]
  split_ifs
  · exact validOperand_directData 0 _
  · exact validOperand_immediate 0 _

theorem accepts_bitShift : Accepts BitShift.create := by
  intro opcode _
  by_cases hmemory : (opcode >>> 6) &&& 0x3 = 3
  · simp only [BitShift.create, hmemory, decide_true, if_true]
    exact ⟨validOperand_fields _ _, (by decide : regD0 < 16)⟩
  · simp only [BitShift.create, hmemory, decide_false, Bool.false_eq_true, if_false]
    refine ⟨validOperand_directData 0 _, ?_⟩
    dsimp only
    by_cases himm : (opcode >>> 5) &&& 0x1 = 1
    · simp only [himm, decide_true, if_true]
      exact (by decide : regD0 < 16)
    · simp only [himm, decide_false, Bool.false_eq_true, if_false]
      exact getRegisterType_lt 0 _

theorem accepts_move : Accepts Move.create := by
  intro opcode h
  simp only [Move.create, Bool.and_eq_true] at h
  exact ⟨⟨⟨validOperand_fields _ _, h.1.1.2, h.1.2⟩, validOperand_fields _ _⟩, decide_eq_true_iff⟩

theorem accepts_moveq : Accepts Moveq.create := fun _ _ => ⟨validOperand_directData 0 _, rfl, rfl⟩

theorem accepts_lea : Accepts Lea.create :=
  fun _ h => ⟨⟨validOperand_fields _ _, h⟩, getRegisterType_lt 1 _⟩

theorem accepts_scc : Accepts Scc.create := fun _ h =>
  ⟨validOperand_fields _ _, isMemoryAlterable_of_isDataAlterable h⟩

/-- The objects that a class accepts are valid. -/
theorem accepts_create (cls : InstructionClass) : Accepts cls.create := by
  cases cls with
  | add | sub | and | or => exact accepts_createOpMode fun _ h => h
  | adda | suba | cmpa => exact accepts_createAddr fun _ h => h
  | addi | subi | andi | ori | eori | cmpi | clr | neg => exact accepts_createDest fun _ h => h
  | addq | subq => exact accepts_createQuick fun _ h => h
  | addx | subx => exact accepts_createExtended fun _ h => h
  | mul | div => exact accepts_createSigned fun _ h => h
  | jmp | jsr | pea => exact accepts_createControl fun _ h => h
  | cmp => exact accepts_cmp
  | eor => exact accepts_eor
  | ext => exact accepts_ext
  | tst => exact accepts_tst
  | bitManip => exact accepts_bitManip
  | bitShift => exact accepts_bitShift
  | move => exact accepts_move
  | moveq => exact accepts_moveq
  | lea => exact accepts_lea
  | scc => exact accepts_scc
  | link | unlk => exact fun _ _ => getRegisterType_lt 1 _
  | bcc | illegal | nop | rts => exact fun _ _ => trivial

/-- Every object that the decoder hands out is valid. -/
theorem valid_decode (opcode : BitVec 16) : (decode opcode).derived.Valid :=
  decode_induction (P := fun _ d => d.Valid) (fun _ => trivial)
    (fun row _ opcode _ hvalid => accepts_create row.entry opcode hvalid) opcode

/-! ### The class of an object -/

/-- The class of an object. -/
def Derived.cls : Derived → InstructionClass
  | .add _ => .add
  | .adda _ => .adda
  | .addi _ => .addi
  | .addq _ => .addq
  | .addx _ => .addx
  | .and _ => .and
  | .andi _ => .andi
  | .bcc _ => .bcc
  | .bitManip _ => .bitManip
  | .bitShift _ => .bitShift
  | .clr _ => .clr
  | .cmp _ => .cmp
  | .cmpa _ => .cmpa
  | .cmpi _ => .cmpi
  | .div _ => .div
  | .eor _ => .eor
  | .eori _ => .eori
  | .ext _ => .ext
  | .illegal => .illegal
  | .jmp _ => .jmp
  | .jsr _ => .jsr
  | .lea _ => .lea
  | .link _ => .link
  | .move _ => .move
  | .moveq _ => .moveq
  | .mul _ => .mul
  | .neg _ => .neg
  | .nop => .nop
  | .or _ => .or
  | .ori _ => .ori
  | .pea _ => .pea
  | .rts => .rts
  | .scc _ => .scc
  | .sub _ => .sub
  | .suba _ => .suba
  | .subi _ => .subi
  | .subq _ => .subq
  | .subx _ => .subx
  | .tst _ => .tst
  | .unlk _ => .unlk

theorem cls_create (cls : InstructionClass) (opcode : BitVec 16) :
    (cls.create opcode).derived.cls = cls := by
  have hopMode (ctor : TwoOperand → Derived) (hctor : ∀ f, (ctor f).cls = cls) :
      (createOpMode ctor opcode).derived.cls = cls := by
    simp only [createOpMode]
    split_ifs <;> exact hctor _
  cases cls with
  | add | sub | and | or => exact hopMode _ fun _ => rfl
  | eor =>
    simp only [InstructionClass.create, Eor.create]
    split_ifs <;> rfl
  | bitShift =>
    simp only [InstructionClass.create, BitShift.create]
    split_ifs <;> rfl
  | _ => rfl

/-- An object that is not `Illegal` comes from a row of its class that the opcode matches. -/
theorem exists_row_of_decode {opcode : BitVec 16} {cls : InstructionClass}
    (h : (decode opcode).derived.cls = cls) (hcls : cls ≠ .illegal) :
    ∃ row ∈ opcodeMaskTable, row.entry = cls ∧ row.test (opcode.setWidth 32) ∧
      (cls.create opcode).isValid ∧ decode opcode = cls.create opcode := by
  subst h
  rw [decode_eq] at hcls ⊢
  rcases hfirst : MaskTable.first opcodeMaskTable (opcode.setWidth 32) with _ | row
  · rw [hfirst] at hcls
    exact absurd rfl hcls
  · obtain ⟨hmem, htest⟩ := MaskTable.mem_of_first hfirst
    rw [hfirst] at hcls
    dsimp only at hcls ⊢
    split_ifs at hcls ⊢ with hvalid
    · rw [cls_create]
      exact ⟨row, hmem, rfl, htest, hvalid, rfl⟩
    · exact absurd rfl hcls

/-- An object that is not `Illegal` is as its constructor has left it. -/
theorem created_of_decode {opcode : BitVec 16} {d : Derived} (h : (decode opcode).derived = d)
    (hcls : d.cls ≠ .illegal) :
    (d.cls.create opcode).isValid ∧ (d.cls.create opcode).derived = d := by
  subst h
  obtain ⟨-, -, -, -, hvalid, hcreate⟩ := exists_row_of_decode rfl hcls
  exact ⟨hvalid, congrArg Instruction.derived hcreate.symm⟩

end M68kEmu
