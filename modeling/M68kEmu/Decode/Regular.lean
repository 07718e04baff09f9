import M68kEmu.Decode.Valid

/-!
# What the fields of a decoded object determine

`Derived.Regular` says which fields of an object follow from others, by the way its constructor
takes the opcode apart:  the mode of a register operand from the number of its register, the sizes
that a class fixes, and the texts that a constructor prepares for the listing.  Every decoded object
is regular (`regular_decode`).
-/

namespace M68kEmu

/-- The modes that take their address from a register. -/
def UsesBase : AddressingMode → Prop
  | .indirect | .indirectPostincrement | .indirectPredecrement | .indirectDisplacement
  | .indirectIndex => True
  | .directData | .directAddr | .absWord | .absLong | .pcDisplacement | .pcIndex | .immediate
  | .unknown => False

/-- The mode of a register operand is told by its register, and an address is taken from
an address register. -/
structure MatchesRegister (mode : AddressingMode) (reg : ℕ) : Prop where
  data : mode = .directData → reg < 8
  addr : mode = .directAddr → 8 ≤ reg
  base : UsesBase mode → 8 ≤ reg

/-- The source and the destination of an object match their registers. -/
structure TwoOperand.Matches (f : TwoOperand) : Prop where
  src : MatchesRegister f.srcMode f.srcReg
  dest : MatchesRegister f.destMode f.destReg

/-- The fields of a shift that the others determine.  Bits 3 to 5 of the opcode are the mode of a
memory operand, and its type and the kind of its count at the same time. -/
structure BitShiftOperand.Regular (f : BitShiftOperand) : Prop where
  addr : MatchesRegister f.addrMode f.addrReg
  text : f.instructionStr = f.instructionType.text ++ (if f.directionLeft then "l" else "r")
  shiftReg : f.shiftReg < 8
  imm : f.isImm = true → f.shiftReg = regD0 ∧ 1 ≤ f.immShift.toNat ∧ f.immShift.toNat ≤ 8
  noImm : f.isImm = false → f.immShift = if f.isMemory then 1 else 0
  register : f.isMemory = false → f.addrMode = .directData
  memory : f.isMemory = true → f.dataSize = .word
  direct : f.isMemory = true → f.addrMode = .directData → f.instructionType = .as ∧ f.isImm = false

/-- The fields of an object that its constructor derives from others, or fixes. -/
def Derived.Regular : Derived → Prop
  | .add f | .adda f | .addx f | .and f | .cmp f | .cmpa f | .eor f | .or f | .sub f | .suba f
  | .subx f => f.Matches
  | .addi f | .andi f | .clr f | .cmpi f | .eori f | .neg f | .ori f | .subi f | .tst f =>
    MatchesRegister f.destMode f.destReg
  | .ext f => MatchesRegister f.destMode f.destReg
  | .addq f | .subq f => MatchesRegister f.destMode f.destReg
  | .moveq f => MatchesRegister f.destMode f.destReg ∧ f.dataSize = some .long
  | .div f | .mul f => f.Matches ∧ f.dataSize = some .word
  | .move f => f.Matches
  | .bitManip f => f.Matches ∧ f.instructionStr = f.instructionType.text ∧
    f.dataSize = some (if f.destMode = .directData then .long else .byte) ∧
    f.dataBitsModulo = if f.destMode = .directData then 32 else 8
  | .bitShift f => f.Regular
  | .jmp f | .jsr f | .pea f => MatchesRegister f.destMode f.destReg ∧ f.dataSize = some .long
  | .lea f => MatchesRegister f.srcMode f.srcReg ∧ 8 ≤ f.addrReg ∧ f.dataSize = .long
  | .scc f => MatchesRegister f.destMode f.destReg
  | .link addrReg | .unlk addrReg => 8 ≤ addrReg
  | .bcc _ | .illegal | .nop | .rts => True

section Fields

variable (partMode part : BitVec 16)

theorem eq_zero_of_directData {partMode part : BitVec 16}
    (h : getAddressingMode partMode part = .directData) : partMode = 0 := by
  by_contra hne
  have hne' : partMode.toNat ≠ 0 := fun h0 => hne (BitVec.eq_of_toNat_eq h0)
  unfold getAddressingMode at h
  grind

theorem matches_fields :
    MatchesRegister (getAddressingMode partMode (part &&& 0x7))
      (getRegisterType partMode (part &&& 0x7)) := by
  have hle : (part &&& 0x7).toNat ≤ 7 := by
    rw [BitVec.toNat_and]
    exact Nat.and_le_right
  have hhigh (hmode : partMode ≠ 0) : 8 ≤ getRegisterType partMode (part &&& 0x7) := by
    rw [getRegisterType, if_neg hmode]
    omega
  refine ⟨fun h => ?_, fun h => hhigh ?_, fun h => hhigh ?_⟩
  · rw [getRegisterType, if_pos (eq_zero_of_directData h)]
    omega
  · rintro rfl
    cases h
  · rintro rfl
    cases h

theorem matches_directData : MatchesRegister .directData (getRegisterType 0 (part &&& 0x7)) :=
  matches_fields 0 part

theorem matches_directAddr : MatchesRegister .directAddr (getRegisterType 1 (part &&& 0x7)) :=
  matches_fields 1 part

theorem matches_immediate {reg : ℕ} : MatchesRegister .immediate reg :=
  ⟨fun h => absurd h (by decide), fun h => absurd h (by decide), False.elim⟩

end Fields

/-! ### The constructors -/

/-- The objects that a constructor accepts are regular. -/
def Regulates (create : BitVec 16 → Instruction) : Prop :=
  ∀ opcode, (create opcode).isValid → (create opcode).derived.Regular

section Families

theorem regulates_createOpMode {cls : TwoOperand → Derived}
    (hcls : ∀ f, f.Matches → (cls f).Regular) : Regulates (createOpMode cls) := by
  intro opcode _
  simp only [createOpMode]
  split_ifs
  · exact hcls _ ⟨matches_directData _, matches_fields _ _⟩
  · exact hcls _ ⟨matches_fields _ _, matches_directData _⟩

theorem regulates_createAddr {cls : TwoOperand → Derived}
    (hcls : ∀ f, f.Matches → (cls f).Regular) :
    Regulates (createAddr cls) := fun _ _ => hcls _ ⟨matches_fields _ _, matches_directAddr _⟩

theorem regulates_createDest {cls : OneOperand → Derived}
    (hcls : ∀ f, MatchesRegister f.destMode f.destReg → (cls f).Regular) :
    Regulates (createDest cls) :=
  fun _ _ => hcls _ (matches_fields _ _)

theorem regulates_createQuick {cls : QuickOperand → Derived}
    (hcls : ∀ f, MatchesRegister f.destMode f.destReg → (cls f).Regular) :
    Regulates (createQuick cls) :=
  fun _ _ => hcls _ (matches_fields _ _)

theorem regulates_createExtended {cls : TwoOperand → Derived}
    (hcls : ∀ f, f.Matches → (cls f).Regular) : Regulates (createExtended cls) := by
  intro opcode _
  by_cases hmode : (opcode >>> 3) &&& 0x1 = 0
  · simp only [createExtended, hmode, if_true]
    exact hcls _ ⟨matches_directData _, matches_directData _⟩
  · have hbase (part : BitVec 16) :
        MatchesRegister .indirectPredecrement
        (getRegisterType ((opcode >>> 3) &&& 0x1) (part &&& 0x7)) := by
      rw [getRegisterType, if_neg hmode]
      exact ⟨fun h => absurd h (by decide), fun h => absurd h (by decide), fun _ => by omega⟩
    simp only [createExtended, if_neg hmode]
    exact hcls _ ⟨hbase _, hbase _⟩

theorem regulates_createSigned {cls : SignedOperand → Derived}
    (hcls : ∀ f, f.Matches ∧ f.dataSize = some .word → (cls f).Regular) :
    Regulates (createSigned cls) :=
  fun _ _ => hcls _ ⟨⟨matches_fields _ _, matches_directData _⟩, rfl⟩

theorem regulates_createControl {cls : OneOperand → Derived}
    (hcls : ∀ f, MatchesRegister f.destMode f.destReg ∧ f.dataSize = some .long → (cls f).Regular) :
    Regulates (createControl cls) := fun _ _ => hcls _ ⟨matches_fields _ _, rfl⟩

end Families

theorem regulates_cmp : Regulates Cmp.create :=
  fun _ _ => ⟨matches_fields _ _, matches_directData _⟩

theorem regulates_eor : Regulates Eor.create := by
  intro opcode h
  simp only [Eor.create] at h ⊢
  split_ifs at h ⊢
  exact ⟨matches_directData _, matches_fields _ _⟩

theorem regulates_bitManip : Regulates BitManip.create := by
  intro opcode _
  refine ⟨⟨?_, matches_fields _ _⟩, rfl, rfl, rfl⟩
  dsimp only [BitManip.create]
  split_ifs
  · exact matches_directData _
  · exact matches_immediate

/-- The count that a shift of a register has in its opcode. -/
theorem count_range (part : BitVec 16) :
    1 ≤ (((part &&& 0x7) + 1).setWidth 8).toNat ∧ (((part &&& 0x7) + 1).setWidth 8).toNat ≤ 8 := by
  have hle : (part &&& 0x7).toNat ≤ 7 := by
    rw [BitVec.toNat_and]
    exact Nat.and_le_right
  rw [BitVec.toNat_setWidth, BitVec.toNat_add]
  simp only [BitVec.reduceToNat]
  omega

/-- The mode `Dn` is zero, and so are the bits in it. -/
theorem fields_of_directData {opcode : BitVec 16}
    (h : getAddressingMode ((opcode >>> 3) &&& 0x7) (opcode &&& 0x7) = .directData) :
    BitShiftType.ofPart ((opcode >>> 3) &&& 0x3) = .as ∧
    decide ((opcode >>> 5) &&& 0x1 = 1) = false := by
  have hmode : (opcode >>> 3) &&& (0x7 : BitVec 16) = 0 := eq_zero_of_directData h
  have htype : (opcode >>> 3) &&& (0x3 : BitVec 16) = ((opcode >>> 3) &&& 0x7) &&& 0x3 := by
    rw [BitVec.and_assoc]
    rfl
  have hkind : (opcode >>> 5) &&& (0x1 : BitVec 16) = (((opcode >>> 3) &&& 0x7) >>> 2) &&& 0x1 := by
    rw [BitVec.ushiftRight_and_distrib, ← BitVec.shiftRight_add, BitVec.and_assoc]
    rfl
  rw [htype, hkind, hmode]
  exact ⟨rfl, rfl⟩

theorem regulates_bitShift : Regulates BitShift.create := by
  intro opcode _
  have hreg (part : BitVec 16) : getRegisterType 0 (part &&& 0x7) < 8 :=
    (matches_directData part).data rfl
  by_cases hmemory : (opcode >>> 6) &&& 0x3 = 3
  · simp only [BitShift.create, hmemory, decide_true, if_true]
    have hcount : 1 ≤ (1 : BitVec 8).toNat ∧ (1 : BitVec 8).toNat ≤ 8 := by decide
    refine ⟨matches_fields _ _, rfl, (by decide : regD0 < 8), fun _ => ⟨rfl, hcount⟩, fun _ => rfl,
      ?_, fun _ => rfl, fun _ hmode => ?_⟩
    · intro h
      cases h
    · exact fields_of_directData hmode
  · simp only [BitShift.create, hmemory, decide_false, Bool.false_eq_true, if_false]
    refine ⟨matches_directData _, rfl, ?_, fun himm => ?_, fun himm => ?_, fun _ => rfl, ?_, ?_⟩
    · dsimp only
      split_ifs
      · decide
      · exact hreg _
    · dsimp only at himm ⊢
      rw [if_pos himm, if_pos himm]
      exact ⟨rfl, count_range _⟩
    · dsimp only at himm ⊢
      rw [if_neg (by rw [himm]; decide)]
      rfl
    · intro h
      cases h
    · intro h
      cases h

/-- The objects that a class accepts are regular. -/
theorem regulates_create (cls : InstructionClass) : Regulates cls.create := by
  cases cls with
  | add | sub | and | or => exact regulates_createOpMode fun _ h => h
  | adda | suba | cmpa => exact regulates_createAddr fun _ h => h
  | addi | subi | andi | ori | eori | cmpi | clr | neg => exact regulates_createDest fun _ h => h
  | addq | subq => exact regulates_createQuick fun _ h => h
  | addx | subx => exact regulates_createExtended fun _ h => h
  | mul | div => exact regulates_createSigned fun _ h => h
  | jmp | jsr | pea => exact regulates_createControl fun _ h => h
  | cmp => exact regulates_cmp
  | eor => exact regulates_eor
  | bitManip => exact regulates_bitManip
  | bitShift => exact regulates_bitShift
  | ext => exact fun _ _ => matches_directData _
  | tst | scc => exact fun _ _ => matches_fields _ _
  | move => exact fun _ _ => ⟨matches_fields _ _, matches_fields _ _⟩
  | moveq => exact fun _ _ => ⟨matches_directData _, rfl⟩
  | lea => exact fun _ _ => ⟨matches_fields _ _, (matches_directAddr _).addr rfl, rfl⟩
  | link | unlk => exact fun _ _ => (matches_directAddr _).addr rfl
  | bcc | illegal | nop | rts => exact fun _ _ => trivial

/-- Every object that the decoder hands out is regular. -/
theorem regular_decode (opcode : BitVec 16) : (decode opcode).derived.Regular :=
  decode_induction (P := fun _ d => d.Regular) (fun _ => trivial)
    (fun row _ opcode _ hvalid => regulates_create row.entry opcode hvalid) opcode

end M68kEmu
