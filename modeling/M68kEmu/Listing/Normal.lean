import M68kEmu.Listing.Operand

/-!
# What a line tells of its object

Modes without a register leave the register of an operand unused; `Derived.normal` sets it to `D0`,
which changes neither the line nor `execute`.  `Line.object` reads the normal object back from the
line, given what the methods do not print (`Derived.unprinted`): the size of `TST`, `NEG` and the
shifts, and whether a shift is one of a memory operand.
-/

namespace M68kEmu

open Disassembler

/-! ### Normal objects -/

/-- The register of an operand, or `D0` if the mode has none. -/
def normalReg (mode : AddressingMode) (reg : ℕ) : ℕ :=
  match mode with
  | .pcDisplacement | .pcIndex | .absWord | .absLong | .immediate | .unknown => regD0
  | _ => reg

def OneOperand.normal (f : OneOperand) : OneOperand :=
  { f with destReg := normalReg f.destMode f.destReg }

def TwoOperand.normal (f : TwoOperand) : TwoOperand :=
  { f with destReg := normalReg f.destMode f.destReg, srcReg := normalReg f.srcMode f.srcReg }

def Operand.normal (o : Operand) : Operand := { o with reg := normalReg o.mode o.reg }

namespace Derived

/-- The object without the registers that its modes do not use. -/
def normal : Derived → Derived
  | .add f => .add f.normal
  | .adda f => .adda f.normal
  | .addi f => .addi f.normal
  | .addq f => .addq { f with destReg := normalReg f.destMode f.destReg }
  | .addx f => .addx f.normal
  | .and f => .and f.normal
  | .andi f => .andi f.normal
  | .bcc f => .bcc f
  | .bitManip f =>
    .bitManip
      { f with destReg := normalReg f.destMode f.destReg, srcReg := normalReg f.srcMode f.srcReg }
  | .bitShift f => .bitShift { f with addrReg := normalReg f.addrMode f.addrReg }
  | .clr f => .clr f.normal
  | .cmp f => .cmp f.normal
  | .cmpa f => .cmpa f.normal
  | .cmpi f => .cmpi f.normal
  | .div f =>
    .div { f with
        destReg := normalReg f.destMode f.destReg, srcReg := normalReg f.srcMode f.srcReg }
  | .eor f => .eor f.normal
  | .eori f => .eori f.normal
  | .ext f => .ext f.normal
  | .illegal => .illegal
  | .jmp f => .jmp f.normal
  | .jsr f => .jsr f.normal
  | .lea f => .lea { f with srcReg := normalReg f.srcMode f.srcReg }
  | .link addrReg => .link addrReg
  | .move f =>
    .move { f with
        destReg := normalReg f.destMode f.destReg, srcReg := normalReg f.srcMode f.srcReg }
  | .moveq f => .moveq { f with destReg := normalReg f.destMode f.destReg }
  | .mul f =>
    .mul { f with
        destReg := normalReg f.destMode f.destReg, srcReg := normalReg f.srcMode f.srcReg }
  | .neg f => .neg f.normal
  | .nop => .nop
  | .or f => .or f.normal
  | .ori f => .ori f.normal
  | .pea f => .pea f.normal
  | .rts => .rts
  | .scc f => .scc { f with destReg := normalReg f.destMode f.destReg }
  | .sub f => .sub f.normal
  | .suba f => .suba f.normal
  | .subi f => .subi f.normal
  | .subq f => .subq { f with destReg := normalReg f.destMode f.destReg }
  | .subx f => .subx f.normal
  | .tst f => .tst f.normal
  | .unlk addrReg => .unlk addrReg

end Derived

section Accessors

variable {M : Type} [IMemory M] (mode : AddressingMode) (reg : ℕ)

@[simp] theorem getData_normalReg :
    (Accessors.cpuState : Accessors M).getData mode (normalReg mode reg) =
    Accessors.cpuState.getData mode reg := by
  cases mode <;> rfl

@[simp] theorem getDataSilent_normalReg :
    (Accessors.cpuState : Accessors M).getDataSilent mode (normalReg mode reg) =
      Accessors.cpuState.getDataSilent mode reg := by
  cases mode <;> rfl

@[simp] theorem setData_normalReg :
    (Accessors.cpuState : Accessors M).setData mode (normalReg mode reg) =
    Accessors.cpuState.setData mode reg := by
  cases mode <;> rfl

@[simp] theorem getControlAddress_normalReg :
    (Accessors.cpuState : Accessors M).getControlAddress mode (normalReg mode reg) =
      Accessors.cpuState.getControlAddress mode reg := by
  cases mode <;> rfl

end Accessors

namespace Derived

/-- The unused registers are not used. -/
theorem execute_normal {M : Type} [IMemory M] (d : Derived) :
    d.normal.execute (Accessors.cpuState : Accessors M) = d.execute Accessors.cpuState := by
  cases d with
  | add f | adda f | and f | eor f | or f | sub f | suba f =>
    simp [normal, execute, Add.execute, Adda.execute, And.execute, Eor.execute, Or.execute,
      Sub.execute, Suba.execute, readModifyWrite, fetchSource, TwoOperand.normal]
  | addi f | andi f | eori f | neg f | ori f | subi f =>
    simp [normal, execute, Addi.execute, Andi.execute, Eori.execute, Neg.execute,
      Ori.execute, Subi.execute, readModifyWrite, OneOperand.normal]
  | addq f | subq f => simp [normal, execute, Addq.execute, Subq.execute, readModifyWrite]
  | addx f | subx f =>
    simp [normal, execute, Addx.execute, Subx.execute, extendedArithmetic, TwoOperand.normal]
  | cmp f | cmpa f =>
    simp [normal, execute, Cmp.execute, Cmpa.execute, Cmpa.fetchExtended, compareWith, fetchSource,
      TwoOperand.normal]
  | cmpi f => simp [normal, execute, Cmpi.execute, compareWith, OneOperand.normal]
  | div f | mul f => simp [normal, execute, Div.execute, Mul.execute]
  | ext f | tst f | clr f =>
    simp [normal, execute, Ext.execute, Tst.execute, Clr.execute, OneOperand.normal]
  | jmp f | jsr f | pea f =>
    simp [normal, execute, Jmp.execute, Jsr.execute, Pea.execute, OneOperand.normal]
  | bitManip f => simp [normal, execute, BitManip.execute]
  | bitShift f =>
    simp [normal, execute, BitShift.execute, BitShift.shifted, BitShift.rotateExtended]
  | lea f => simp [normal, execute, Lea.execute]
  | move f => simp [normal, execute, Move.execute]
  | moveq f => simp [normal, execute, Moveq.execute]
  | scc f => simp [normal, execute, Scc.execute]
  | bcc f | illegal | link addrReg | nop | rts | unlk addrReg => rfl

theorem operandList_normal (d : Derived) :
    d.normal.operandList = d.operandList.map Operand.normal := by
  cases d <;> rfl

end Derived

theorem field_normal (o : Operand) (mem : BaseMemory) (pc : BitVec 32) :
    o.normal.field mem pc = o.field mem pc := by
  obtain ⟨use, mode, reg, size⟩ := o
  cases mode <;> rfl

theorem fieldsAt_normal (mem : BaseMemory) (pc : BitVec 32) (os : List Operand) :
    fieldsAt mem pc (os.map Operand.normal) = fieldsAt mem pc os := by
  induction os generalizing pc with
  | nil => rfl
  | cons o os ih =>
    rw [List.map_cons, fieldsAt, fieldsAt, field_normal, ih]
    rfl

namespace Derived

/-- The unused registers are not printed. -/
theorem line_normal (d : Derived) (mem : BaseMemory) (pc : BitVec 32) :
    d.normal.line mem pc = d.line mem pc := by
  have hfields := fieldsAt_normal mem (pc + 2) d.operandList
  rw [← operandList_normal] at hfields
  rw [line, line, Line.mk.injEq]
  cases d with
  | bcc f | link addrReg => exact ⟨rfl, rfl, rfl⟩
  | _ => exact ⟨rfl, rfl, congrArg (_ ++ ·) hfields⟩

end Derived

/-! ### What a field tells of its operand -/

namespace Field

/-- The mode of an operand with this field. -/
def operandMode : Field → AddressingMode
  | .register r => if r < 8 then .directData else .directAddr
  | .indirect _ => .indirect
  | .postincrement _ => .indirectPostincrement
  | .predecrement _ => .indirectPredecrement
  | .displacement _ r => if r = regPC then .pcDisplacement else .indirectDisplacement
  | .index _ r _ => if r = regPC then .pcIndex else .indirectIndex
  | .absWord _ => .absWord
  | .absLong _ => .absLong
  | .immediate _ => .immediate
  | _ => .unknown

/-- The register of an operand with this field. -/
def operandReg : Field → ℕ
  | .register r | .indirect r | .postincrement r | .predecrement r | .countRegister r => r
  | .displacement _ r | .index _ r _ => if r = regPC then regD0 else r
  | _ => regD0

/-- Whether the field is the count of a shift. -/
def isCount : Field → Bool
  | .count _ => true
  | _ => false

/-- The immediate of the opcode word. -/
def byte : Field → BitVec 8
  | .immediate value | .count value => BitVec.ofNat 8 value
  | _ => 0

end Field

section Fields

variable {mode : AddressingMode} {reg : ℕ} (size : DataSize) (w : BitVec 32)

theorem operandMode_operandField (h : MatchesRegister mode reg) (hlt : reg < 16) :
    (operandField mode reg size w).operandMode = mode := by
  have hpc : reg ≠ regPC := by
    unfold regPC
    omega
  cases mode with
  | directData => exact if_pos (h.data rfl)
  | directAddr => exact if_neg (Nat.not_lt.2 (h.addr rfl))
  | indirectDisplacement | indirectIndex => exact if_neg hpc
  | _ => rfl

theorem operandReg_operandField (hlt : reg < 16) :
    (operandField mode reg size w).operandReg = normalReg mode reg := by
  have hpc : reg ≠ regPC := by
    unfold regPC
    omega
  cases mode with
  | indirectDisplacement | indirectIndex => exact if_neg hpc
  | _ => rfl

end Fields

/-! ### Reading a line back -/

/-- What a method uses and does not print. -/
structure Unprinted where
  size : Option DataSize := none
  isMemory : Bool := false
  deriving DecidableEq, Repr

/-- `TST`, `NEG` and the shifts do not print their size, and a shift does not print whether it is
one of a memory operand. -/
def Derived.unprinted : Derived → Unprinted
  | .tst f | .neg f => { size := f.dataSize }
  | .bitShift f => { size := some f.dataSize, isMemory := f.isMemory }
  | _ => {}

namespace Line

/-- The field at a position. -/
def field (l : Line) (i : ℕ) : Field := l.fields.getD i .unknown

/-- The operand in the field at a position. -/
def oneOperand (l : Line) (i : ℕ) (dataSize : Option DataSize) : OneOperand where
  destMode := (l.field i).operandMode
  destReg := (l.field i).operandReg
  dataSize := dataSize

/-- The operands in the first two fields. -/
def twoOperand (l : Line) (dataSize : Option DataSize) : TwoOperand where
  toOneOperand := l.oneOperand 1 dataSize
  srcMode := (l.field 0).operandMode
  srcReg := (l.field 0).operandReg

/-- The normal object with this line. -/
def object (l : Line) (u : Unprinted) : Derived :=
  match l.name with
  | .add => .add (l.twoOperand l.suffix)
  | .adda => .adda (l.twoOperand l.suffix)
  | .addi => .addi (l.oneOperand 1 l.suffix)
  | .addq => .addq { l.oneOperand 1 l.suffix with immData := (l.field 0).byte }
  | .addx => .addx (l.twoOperand l.suffix)
  | .and => .and (l.twoOperand l.suffix)
  | .andi => .andi (l.oneOperand 1 l.suffix)
  | .bcc condition => .bcc ⟨condition, 0, .word⟩
  | .bitManip type =>
    .bitManip
      { l.twoOperand (some (if (l.field 1).operandMode = .directData then .long else .byte)) with
        instructionType := type, instructionStr := type.text
        dataBitsModulo := if (l.field 1).operandMode = .directData then 32 else 8 }
  | .bitShift type directionLeft =>
    .bitShift
      { addrMode := (l.field 1).operandMode, addrReg := (l.field 1).operandReg,
        shiftReg := (l.field 0).operandReg
        immShift := if (l.field 0).isCount then (l.field 0).byte else if u.isMemory then 1 else 0
        directionLeft, isImm := (l.field 0).isCount, isMemory := u.isMemory, instructionType := type
        instructionStr := type.text ++ (if directionLeft then "l" else "r"), dataSize :=
        u.size.getD .long }
  | .clr => .clr (l.oneOperand 0 l.suffix)
  | .cmp => .cmp (l.twoOperand l.suffix)
  | .cmpa => .cmpa (l.twoOperand l.suffix)
  | .cmpi => .cmpi (l.oneOperand 1 l.suffix)
  | .div isSigned => .div { l.twoOperand l.suffix with isSigned }
  | .eor => .eor (l.twoOperand l.suffix)
  | .eori => .eori (l.oneOperand 1 l.suffix)
  | .ext => .ext (l.oneOperand 0 l.suffix)
  | .illegal => .illegal
  | .jmp => .jmp (l.oneOperand 0 (some .long))
  | .jsr => .jsr (l.oneOperand 0 (some .long))
  | .lea =>
    .lea { srcMode := (l.field 0).operandMode, srcReg := (l.field 0).operandReg,
           addrReg := (l.field 1).operandReg
           dataSize := .long }
  | .link => .link (l.field 0).operandReg
  | .move isMovea => .move { l.twoOperand l.suffix with isMovea }
  | .moveq => .moveq { l.oneOperand 1 (some .long) with immData := (l.field 0).byte }
  | .mul isSigned => .mul { l.twoOperand l.suffix with isSigned }
  | .neg => .neg (l.oneOperand 0 u.size)
  | .nop => .nop
  | .or => .or (l.twoOperand l.suffix)
  | .ori => .ori (l.oneOperand 1 l.suffix)
  | .pea => .pea (l.oneOperand 0 (some .long))
  | .rts => .rts
  | .scc condition => .scc ⟨condition, (l.field 0).operandMode, (l.field 0).operandReg⟩
  | .sub => .sub (l.twoOperand l.suffix)
  | .suba => .suba (l.twoOperand l.suffix)
  | .subi => .subi (l.oneOperand 1 l.suffix)
  | .subq => .subq { l.oneOperand 1 l.suffix with immData := (l.field 0).byte }
  | .subx => .subx (l.twoOperand l.suffix)
  | .tst => .tst (l.oneOperand 0 u.size)
  | .unlk => .unlk (l.field 0).operandReg

end Line

section Objects

variable {mem : BaseMemory} {pc : BitVec 32} {l : Line}

theorem oneOperand_eq {f : OneOperand} {i : ℕ} {use : Use} {size : Option DataSize}
    (h : MatchesRegister f.destMode f.destReg) (hlt : f.destReg < 16)
    (hi : l.field i = (f.dest use).field mem pc)
    (hsize : size = f.dataSize) : l.oneOperand i size = f.normal := by
  have hmode : (l.field i).operandMode = f.destMode := by
    rw [hi]
    exact operandMode_operandField _ _ h hlt
  have hreg : (l.field i).operandReg = normalReg f.destMode f.destReg := by
    rw [hi]
    exact operandReg_operandField _ _ hlt
  rw [Line.oneOperand, hmode, hreg, hsize]
  rfl

theorem twoOperand_eq {f : TwoOperand} {use : Use} {pc' : BitVec 32} {size : Option DataSize}
    (h : f.Matches)
    (hdest : f.destReg < 16) (hsrc : f.srcReg < 16) (h0 : l.field 0 = f.src.field mem pc)
    (h1 : l.field 1 = (f.dest use).field mem pc') (hsize : size = f.dataSize) :
    l.twoOperand size = f.normal := by
  have hmode : (l.field 0).operandMode = f.srcMode := by
    rw [h0]
    exact operandMode_operandField _ _ h.src hsrc
  have hreg : (l.field 0).operandReg = normalReg f.srcMode f.srcReg := by
    rw [h0]
    exact operandReg_operandField _ _ hsrc
  rw [Line.twoOperand, oneOperand_eq h.dest hdest h1 hsize, hmode, hreg]
  rfl

theorem quickOperand_eq {f : QuickOperand} {size : Option DataSize}
    (h : l.oneOperand 1 size = f.toOneOperand.normal)
    (himm : l.field 0 = .immediate f.immData.toNat) :
    ({ l.oneOperand 1 size with immData := (l.field 0).byte } : QuickOperand) =
      { f with destReg := normalReg f.destMode f.destReg } := by
  rw [himm, h, Field.byte, BitVec.ofNat_toNat, BitVec.setWidth_eq]
  rfl

theorem signedOperand_eq {f : SignedOperand} {size : Option DataSize}
    (h : l.twoOperand size = f.toTwoOperand.normal) :
    ({ l.twoOperand size with isSigned := f.isSigned } : SignedOperand) =
      { f with
        destReg := normalReg f.destMode f.destReg, srcReg := normalReg f.srcMode f.srcReg } := by
  rw [h]
  rfl

/-- The normal object is read back from the line. -/
theorem object_line {d : Derived} (hd : d.Regular) (hv : d.Valid) (hbcc : ∀ f, d ≠ .bcc f) :
    (d.line mem pc).object d.unprinted = d.normal := by
  cases d with
  | add f | adda f | addx f | and f | cmp f | cmpa f | eor f | or f | sub f | suba f | subx f =>
    refine congrArg _ (?_ : (Line.twoOperand _ _) = f.normal)
    exact twoOperand_eq hd hv.dest.lt hv.src.lt rfl rfl rfl
  | addi f | andi f | cmpi f | eori f | ori f | subi f =>
    refine congrArg _ (?_ : (Line.oneOperand _ _ _) = f.normal)
    exact oneOperand_eq hd hv.dest.lt rfl rfl
  | clr f | neg f =>
    refine congrArg _ (?_ : (Line.oneOperand _ _ _) = f.normal)
    exact oneOperand_eq hd hv.dest.lt rfl rfl
  | ext f =>
    refine congrArg _ (?_ : (Line.oneOperand _ _ _) = f.normal)
    exact oneOperand_eq hd hv.1.dest.lt rfl rfl
  | tst f =>
    refine congrArg _ (?_ : (Line.oneOperand _ _ _) = f.normal)
    exact oneOperand_eq hd hv.1.lt rfl rfl
  | jmp f | jsr f | pea f =>
    refine congrArg _ (?_ : (Line.oneOperand _ _ _) = f.normal)
    exact oneOperand_eq hd.1 hv.1.1.lt rfl hd.2.symm
  | addq f =>
    have hfield : ((Derived.addq f).line mem pc).field 1 = (f.dest .getSilent).field mem (pc + 2) :=
      rfl
    exact congrArg Derived.addq (quickOperand_eq (oneOperand_eq hd hv.dest.lt hfield rfl) rfl)
  | subq f =>
    have hfield : ((Derived.subq f).line mem pc).field 1 = (f.dest .getSilent).field mem (pc + 2) :=
      rfl
    exact congrArg Derived.subq (quickOperand_eq (oneOperand_eq hd hv.dest.lt hfield rfl) rfl)
  | moveq f =>
    have hfield : ((Derived.moveq f).line mem pc).field 1 = (f.dest .address).field mem (pc + 2) :=
      rfl
    exact congrArg Derived.moveq
      (quickOperand_eq (oneOperand_eq hd.1 hv.dest.lt hfield hd.2.symm) rfl)
  | div f | mul f =>
    exact congrArg
      _ (signedOperand_eq (f := f) (twoOperand_eq hd.1 hv.1.dest.lt hv.1.src.lt rfl rfl rfl))
  | move f =>
    have hoperands : ((Derived.move f).line mem pc).twoOperand f.dataSize = f.toTwoOperand.normal :=
      twoOperand_eq hd hv.1.dest.lt hv.1.src.lt rfl rfl rfl
    refine congrArg Derived.move
      (?_ : ({ Line.twoOperand _ _ with isMovea := f.isMovea } : MoveOperand) = _)
    exact congrArg (fun g : TwoOperand => ({ g with isMovea := f.isMovea } : MoveOperand)) hoperands
  | bitManip f =>
    obtain ⟨hmatch, htext, hsize, hmodulo⟩ := hd
    have hmode : (((Derived.bitManip f).line mem pc).field 1).operandMode = f.destMode :=
      operandMode_operandField _ _ hmatch.dest hv.dest.lt
    have hoperands :
        ((Derived.bitManip f).line mem pc).twoOperand f.dataSize = f.toTwoOperand.normal :=
      twoOperand_eq hmatch hv.dest.lt hv.src.lt rfl rfl rfl
    show Derived.bitManip ⟨Line.twoOperand _ _, _, _, _⟩ =
      Derived.bitManip ⟨f.toTwoOperand.normal, _, _, _⟩
    rw [hmode, ← hsize, ← htext, ← hmodulo, hoperands]
  | bitShift f =>
    have hmode : (((Derived.bitShift f).line mem pc).field 1).operandMode = f.addrMode :=
      operandMode_operandField _ _ hd.addr hv.1.lt
    have hreg :
        (((Derived.bitShift f).line mem pc).field 1).operandReg = normalReg f.addrMode f.addrReg :=
      operandReg_operandField _ _ hv.1.lt
    have hfield : ((Derived.bitShift f).line mem pc).field 0 =
      if f.isImm then .count f.immShift.toNat else .countRegister f.shiftReg := rfl
    show Derived.bitShift ⟨_, _, _, _, _, _, _, _, _, _⟩ =
      Derived.bitShift ⟨_, _, _, _, _, _, _, _, _, _⟩
    rw [hmode, hreg, hfield]
    rcases himm : f.isImm with _ | _
    · have hcount : f.immShift = if f.isMemory then 1 else 0 := hd.noImm himm
      rw [hcount, hd.text]
      rfl
    · have hbyte : (Field.count f.immShift.toNat).byte = f.immShift := by
        rw [Field.byte, BitVec.ofNat_toNat, BitVec.setWidth_eq]
      rw [if_pos rfl, hbyte, (hd.imm himm).1, hd.text]
      rfl
  | lea f =>
    obtain ⟨hmatch, haddr, hsize⟩ := hd
    have hmode : (((Derived.lea f).line mem pc).field 0).operandMode = f.srcMode :=
      operandMode_operandField _ _ hmatch hv.1.1.lt
    have hreg : (((Derived.lea f).line mem pc).field 0).operandReg = normalReg f.srcMode f.srcReg :=
      operandReg_operandField _ _ hv.1.1.lt
    show Derived.lea ⟨_, _, _, _⟩ = _
    rw [hmode, hreg, ← hsize]
    rfl
  | scc f =>
    have hmode : (((Derived.scc f).line mem pc).field 0).operandMode = f.destMode :=
      operandMode_operandField _ _ hd hv.1.lt
    have hreg :
        (((Derived.scc f).line mem pc).field 0).operandReg = normalReg f.destMode f.destReg :=
      operandReg_operandField _ _ hv.1.lt
    show Derived.scc ⟨_, _, _⟩ = _
    rw [hmode, hreg]
    rfl
  | link addrReg | unlk addrReg => rfl
  | illegal | nop | rts => rfl
  | bcc f => exact absurd rfl (hbcc f)

end Objects

end M68kEmu
