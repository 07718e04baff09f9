import M68kEmu.Listing.Separate
import M68kEmu.Semantics.Flags

/-!
# Shifts of different sizes

A shift shows neither its size nor whether it is one of a memory operand.  Its result is lost, but
for the flags: with one value in all registers, the flag `Z` tells two sizes apart, and a memory
shift from a shift of a register.
-/

namespace M68kEmu

open Outcome

/-! ### The flag `Z` -/

/-- The result of a shift, of which the flags are kept. -/
def shiftResult (type : BitShiftType) (left : Bool) (size : DataSize) (carry : Bool)
    (data shift : BitVec 64) : BitVec 64 :=
  let flag : BitVec 64 := if carry then 1 else 0
  match type with
  | .as =>
    if left then lsl data shift
    else if isNegative data size then lsr data shift ||| ~~~(lsr (~~~0) shift) else lsr data shift
  | .ls => if left then lsl data shift else lsr data shift
  | .rox =>
    match size with
    | .byte => if left then rol9 (data ||| lsl flag 8) shift else ror9 (0 ||| lsl flag 8) shift
    | .word => if left then rol17 (data ||| lsl flag 16) shift else ror17 (0 ||| lsl flag 16) shift
    | .long => if left then rol33 (data ||| lsl flag 32) shift else ror33 (0 ||| lsl flag 32) shift
  | .ro => if if left then rol data shift size else ror data shift size then 1 else 0

theorem shifted_eq_ok (f : BitShiftOperand) (data shift : BitVec 64) (s : CPUState BaseMemory) :
    ∃ t, BitShift.shifted f data shift s = .ok
      (shiftResult f.instructionType f.directionLeft f.dataSize (s.registers.getFlag .carry) data
        shift) t := by
  obtain ⟨addrMode, addrReg, shiftReg, immShift, directionLeft, isImm, isMemory, type,
      text, size⟩ := f
  cases type with
  | rox => cases directionLeft <;> cases size <;> exact ⟨_, rfl⟩
  | as | ls | ro => cases directionLeft <;> exact ⟨_, rfl⟩

/-- The count of a shift, unless it is in a register. -/
def BitShiftOperand.fixedCount (f : BitShiftOperand) : Option ℕ :=
  if !f.isMemory && !f.isImm then none else some f.immShift.toNat

/-- The shift, if the data of the operand and of a count in a register is `data`. -/
def countOf (count : Option ℕ) (data : BitVec 32) : BitVec 64 :=
  match count with
  | some n => BitVec.ofNat 64 n
  | none => (data % 64).setWidth 64

/-- The flag `Z` after a shift of a register, where all registers have one value. -/
def shiftZero (type : BitShiftType) (left : Bool) (count : Option ℕ) (carry : Bool) (v : BitVec 32)
    (size : DataSize) :
    Bool :=
  let data := Registers.sized v size
  isZero (shiftResult type left size carry (data.setWidth 64) (countOf count data)) size

theorem bitShift_zero {f : BitShiftOperand} {s : CPUState BaseMemory} {v : BitVec 32}
    (hmode : f.addrMode = .directData)
    (hreg : f.addrReg < 16) (hshift : f.shiftReg < 16) (hv : ∀ r < 16, s.pastExtWord.reg r = v) :
    ∃ u, BitShift.execute .cpuState f s = .ok () u ∧ u.registers.getFlag .zero =
      shiftZero f.instructionType f.directionLeft f.fixedCount (s.registers.getFlag .carry) v
        f.dataSize := by
  have hread {r : ℕ} (hr : r < 16) :
      getReg r f.dataSize s.pastExtWord = .ok (Registers.sized v f.dataSize) s.pastExtWord := by
    rw [← hv r hr]
    exact getReg_apply (named_of_lt hr) _
  have hcarry : s.pastExtWord.registers.getFlag .carry = s.registers.getFlag .carry := by
    rw [Registers.getFlag, Registers.getFlag, CPUState.pastExtWord,
      CPUState.status_withReg named_regPC]
  obtain ⟨t, ht⟩ := shifted_eq_ok f ((Registers.sized v f.dataSize).setWidth 64)
    (countOf f.fixedCount (Registers.sized v f.dataSize)) s.pastExtWord
  rw [hcarry] at ht
  have hrun : BitShift.execute .cpuState f s = (do
      let result ← BitShift.shifted f ((Registers.sized v f.dataSize).setWidth 64)
        (countOf f.fixedCount (Registers.sized v f.dataSize))
      setFlag .negative (isNegative result f.dataSize)
      setFlag .zero (isZero result f.dataSize)
      setFlag .overflow false : CpuM BaseMemory Unit) s.pastExtWord := by
    rw [BitShift.execute, bind_of_ok (skipOpcode_apply s), hmode]
    refine (bind_of_ok (hread hreg)).trans ?_
    rw [BitShiftOperand.fixedCount]
    split_ifs
    · exact bind_of_ok (hread hshift)
    · rw [pure_bind, countOf, BitVec.ofNat_toNat]
  refine ⟨_, hrun.trans ((bind_of_ok ht).trans rfl), ?_⟩
  simp [getFlag_setFlag, shiftZero]

/-! ### Values that tell two sizes apart -/

/-- A value that is lost at a size, and not at a larger one. -/
def lostValue (type : BitShiftType) (left : Bool) (count : Option ℕ) (size : DataSize) : ℕ :=
  match type, left, count with
  | .ro, _, _ => 2 ^ size.bits
  | _, true, some n => 2 ^ (size.bits - n)
  | _, true, none => 2 ^ size.bits
  | _, false, some _ => 2 ^ size.bits
  | .rox, false, none => size.bits + 1
  | _, false, none => 2 ^ size.bits + 1

section Values

variable {type : BitShiftType} {left : Bool} {size size' : DataSize}

theorem sizes_of_lt (h : size.bytes < size'.bytes) : size = .byte ∧ size' = .word ∨
    size = .byte ∧ size' = .long ∨ size = .word ∧ size' = .long := by
  revert h
  cases size <;> cases size' <;> decide

/-- Of the shifts by an immediate, the right rotations through `X` alone do not
depend on the size. -/
theorem shiftZero_immediate {n : ℕ} (h1 : 1 ≤ n) (h8 : n ≤ 8)
    (hused : ¬(type = .rox ∧ left = false)) (hsize : size.bytes < size'.bytes) :
    shiftZero type left (some n) false (BitVec.ofNat 32 (lostValue type left (some n) size)) size =
    true ∧ shiftZero type left (some n) false (BitVec.ofNat 32 (lostValue type left (some n) size))
      size' = false := by
  obtain ⟨rfl, rfl⟩ | ⟨rfl, rfl⟩ | ⟨rfl, rfl⟩ := sizes_of_lt hsize <;> cases type <;> cases left <;>
    first
      | exact absurd ⟨rfl, rfl⟩ hused
      | interval_cases n <;> decide

/-- A shift by a register does, whatever its kind. -/
theorem shiftZero_register (type : BitShiftType) (left : Bool) (hsize : size.bytes < size'.bytes) :
    shiftZero type left none true (BitVec.ofNat 32 (lostValue type left none size)) size = true ∧
      shiftZero type left none true (BitVec.ofNat 32 (lostValue type left none size))
        size' = false := by
  obtain ⟨rfl, rfl⟩ | ⟨rfl, rfl⟩ | ⟨rfl, rfl⟩ := sizes_of_lt hsize <;>
    cases type <;> cases left <;> decide

/-- The shifts of a register by a register and by one. -/
theorem shiftZero_memory (left : Bool) (size : DataSize) :
    shiftZero .as left (some 1) false (if left then 33 else 2) .word = false ∧
      shiftZero .as left none false (if left then 33 else 2) size = true := by
  cases left <;> cases size <;> decide

end Values

/-! ### Forms of shifts -/

section Forms

variable {a b : Form} {f g : BitShiftOperand}

/-- The status with `C` set or not. -/
def carryStatus (carry : Bool) : BitVec 32 := if carry then 1 else 0

/-- The flag `Z` after the step of a sample. -/
theorem step_shift (hf : a.object = .bitShift f) (hmode : f.addrMode = .directData)
    (firsts : List Bool) (carry : Bool) (v : BitVec 32) :
    ∃ u, step (a.sample firsts (constantRegs v (carryStatus carry)) fun _ => 0) = .ok () u ∧
      u.registers.getFlag .zero = shiftZero f.instructionType f.directionLeft f.fixedCount carry v
        f.dataSize := by
  have hvalid := a.valid
  rw [hf] at hvalid
  have hstatus : (carryStatus carry).getLsbD 13 = false := by cases carry <;> rfl
  have hcarry : (a.sample firsts (constantRegs v (carryStatus carry)) fun _ => 0).registers.getFlag
      .carry = carry := by
    have hmask : (carryStatus carry &&& StatusRegisterFlag.carry.mask != 0) = carry := by
      cases carry <;> decide
    exact hmask
  obtain ⟨u, hu, hzero⟩ := bitShift_zero (f := f)
    (s := a.sample firsts (constantRegs v (carryStatus carry)) fun _ => 0) hmode
    hvalid.1.lt hvalid.2 fun r hr => reg_sample_constant hstatus hr
  rw [hcarry] at hzero
  exact ⟨u, (Form.step_sample rfl hf).trans hu, hzero⟩

/-- Shifts of a register that leave different flags. -/
theorem Form.Alike.separable_of_shiftZero (h : Form.Alike a b) (hf : a.object = .bitShift f)
    (hg : b.object = .bitShift g) (hmode : f.addrMode = .directData)
    (hmode' : g.addrMode = .directData) (carry : Bool) (v : BitVec 32)
    (hne : shiftZero f.instructionType f.directionLeft f.fixedCount carry v f.dataSize ≠
      shiftZero g.instructionType g.directionLeft g.fixedCount carry v g.dataSize) :
      a.Separable b := by
  obtain ⟨u, hu, hzero⟩ := step_shift hf hmode [false] carry v
  obtain ⟨w, hw, hzero'⟩ := step_shift hg hmode' [false] carry v
  refine h.separable_of_direct [false] (by rw [hf]; rfl) ?_ (not_stepsAlike_of_flag .zero hu hw ?_)
  · rw [hf]
    intro o ho
    rw [List.mem_singleton.1 ho]
    exact .inl hmode
  · rwa [hzero, hzero']

/-- What a shift shows. -/
structure SameShift (f g : BitShiftOperand) : Prop where
  type : f.instructionType = g.instructionType
  left : f.directionLeft = g.directionLeft
  mode : f.addrMode = g.addrMode
  imm : f.isImm = g.isImm
  count : f.isImm = true → f.immShift.toNat = g.immShift.toNat

theorem Form.Alike.sameShift (h : Form.Alike a b) (hf : a.object = .bitShift f)
    (hg : b.object = .bitShift g) : SameShift f g := by
  obtain ⟨hname, -, hopcode, hoperands⟩ := h.shape
  rw [hf, hg] at hname hopcode hoperands
  obtain ⟨htype, hleft⟩ := Name.bitShift.inj hname
  have hfield := (List.cons.inj hopcode).1
  refine ⟨htype, hleft, (Operand.mk.inj (List.cons.inj hoperands).1).2.1, ?_, fun himm => ?_⟩
  · cases hf : f.isImm <;> cases hg : g.isImm <;> rw [hf, hg] at hfield <;>
      first | rfl | cases hfield
  · have himm' : g.isImm = true := by
      cases hg : g.isImm
      · rw [if_pos himm, if_neg (by rw [hg]; decide)] at hfield
        cases hfield
      · rfl
    rw [if_pos himm, if_pos himm'] at hfield
    exact Field.count.inj hfield

theorem SameShift.symm (h : SameShift f g) : SameShift g f :=
  ⟨h.type.symm, h.left.symm, h.mode.symm, h.imm.symm, fun himm => (h.count (h.imm.trans himm)).symm⟩

/-- A shift of a data register that is a memory operand, and one that is none. -/
theorem SameShift.shiftZero_memory (h : SameShift f g) (hf : f.Regular) (hg : g.Regular)
    (hmemory : f.isMemory = true)
    (hmemory' : g.isMemory = false) : f.addrMode = .directData ∧ g.addrMode = .directData ∧ ∃ v,
      shiftZero f.instructionType f.directionLeft f.fixedCount false v f.dataSize = false ∧
      shiftZero g.instructionType g.directionLeft g.fixedCount false v g.dataSize = true := by
  have hmode := hg.register hmemory'
  obtain ⟨htype, himm⟩ := hf.direct hmemory (h.mode.trans hmode)
  have hcount : f.fixedCount = some 1 := by
    rw [BitShiftOperand.fixedCount, hmemory, hf.noImm himm, hmemory]
    rfl
  have hcount' : g.fixedCount = none := by
    rw [BitShiftOperand.fixedCount, hmemory', ← h.imm, himm]
    rfl
  rw [hcount, hcount', ← h.type, ← h.left, htype, hf.memory hmemory]
  exact ⟨h.mode.trans hmode, hmode, _, M68kEmu.shiftZero_memory f.directionLeft g.dataSize⟩

theorem unshown_of_memory (hf : f.Regular) (hmemory : f.isMemory = true) :
    (Derived.bitShift f).unshown = ⟨some .word, true⟩ := by
  have hsizeless : ¬f.Sizeless := fun h => by cases hmemory.symm.trans h.2.2.1
  rw [Derived.unshown, if_neg (fun h => by cases h), Derived.canonical, if_neg hsizeless,
    Derived.unprinted, hf.memory hmemory, hmemory]

theorem unshown_of_register (hmemory : f.isMemory = false) :
    (Derived.bitShift f).unshown = ⟨some (if f.Sizeless then .long else f.dataSize), false⟩ := by
  rw [Derived.unshown, if_neg (fun h => by cases h), Derived.canonical, Derived.unprinted]
  split_ifs <;> simp [hmemory]

/-- A value that tells two sizes apart. -/
theorem exists_shiftZero {type : BitShiftType} {left : Bool} {count : Option ℕ}
    {size size' : DataSize} (hcount : ∀ n, count = some n →
      (1 ≤ n ∧ n ≤ 8) ∧ ¬(type = .rox ∧ left = false)) (hsize : size ≠ size') :
      ∃ carry v, shiftZero type left count carry v size ≠ shiftZero type left count
        carry v size' := by
  have hlt {size size' : DataSize} (hlt : size.bytes < size'.bytes) : ∃ carry v,
      shiftZero type left count carry v size = true ∧
      shiftZero type left count carry v size' = false := by
    rcases hc : count with _ | n
    · exact ⟨_, _, shiftZero_register type left hlt⟩
    · obtain ⟨⟨h1, h8⟩, hused⟩ := hcount n hc
      exact ⟨_, _, shiftZero_immediate h1 h8 hused hlt⟩
  have hbytes : size.bytes < size'.bytes ∨ size'.bytes < size.bytes := by
    revert hsize
    cases size <;> cases size' <;> decide
  obtain h | h := hbytes
  · obtain ⟨carry, v, hzero, hzero'⟩ := hlt h
    exact ⟨carry, v, by rw [hzero, hzero']; decide⟩
  · obtain ⟨carry, v, hzero, hzero'⟩ := hlt h
    exact ⟨carry, v, by rw [hzero, hzero']; decide⟩

/-- Forms of shifts that differ in what is not shown. -/
theorem Form.Alike.separable_of_bitShift (h : Form.Alike a b) (hf : a.object = .bitShift f)
    (hg : b.object = .bitShift g)
    (hunshown : a.object.unshown ≠ b.object.unshown) : a.Separable b := by
  have hsame := h.sameShift hf hg
  have hregular : f.Regular := by
    have hregular := a.regular
    rwa [hf] at hregular
  have hregular' : g.Regular := by
    have hregular := b.regular
    rwa [hg] at hregular
  rw [hf, hg] at hunshown
  rcases hmemory : f.isMemory with _ | _ <;> rcases hmemory' : g.isMemory with _ | _
  · have hmode := hregular.register hmemory
    have hsizeless : ¬(f.Sizeless ∧ g.Sizeless) := fun hboth => hunshown (by
      rw [unshown_of_register hmemory, unshown_of_register hmemory', if_pos hboth.1,
        if_pos hboth.2])
    have hiff : f.Sizeless ↔ g.Sizeless := by
      rw [BitShiftOperand.Sizeless, BitShiftOperand.Sizeless, BitShiftOperand.IgnoresOperand,
        BitShiftOperand.IgnoresOperand, hsame.type, hsame.left, hsame.imm, hmemory,
        hmemory', hsame.mode]
    have hneither : ¬f.Sizeless := fun hf => hsizeless ⟨hf, hiff.1 hf⟩
    rw [unshown_of_register hmemory, unshown_of_register hmemory', if_neg hneither, if_neg fun hg =>
      hneither (hiff.2 hg)] at hunshown
    have hsize : f.dataSize ≠ g.dataSize := fun hsize => hunshown (by rw [hsize])
    have hcount : f.fixedCount = g.fixedCount := by
      rw [BitShiftOperand.fixedCount, BitShiftOperand.fixedCount, hmemory, hmemory', ← hsame.imm]
      cases himm : f.isImm
      · rfl
      · exact congrArg some (hsame.count himm)
    have hused (n : ℕ) (hn : f.fixedCount = some n) :
        (1 ≤ n ∧ n ≤ 8) ∧ ¬(f.instructionType = .rox ∧ f.directionLeft = false) := by
      rw [BitShiftOperand.fixedCount, hmemory] at hn
      cases himm : f.isImm <;> rw [himm] at hn
      · cases hn
      · obtain rfl := Option.some.inj hn
        exact ⟨(hregular.imm himm).2, fun hignores => hneither ⟨hignores, himm, hmemory, hmode⟩⟩
    obtain ⟨carry, v, hne⟩ := exists_shiftZero hused hsize
    refine h.separable_of_shiftZero hf hg hmode (hsame.mode ▸ hmode) carry v ?_
    rwa [← hsame.type, ← hsame.left, ← hcount]
  · obtain ⟨hmode, hmode', v, hzero, hzero'⟩ :=
      hsame.symm.shiftZero_memory hregular' hregular hmemory' hmemory
    exact h.separable_of_shiftZero hf hg hmode' hmode false v (by rw [hzero, hzero']; decide)
  · obtain ⟨hmode, hmode', v, hzero, hzero'⟩ :=
      hsame.shiftZero_memory hregular hregular' hmemory hmemory'
    exact h.separable_of_shiftZero hf hg hmode hmode' false v (by rw [hzero, hzero']; decide)
  · exact absurd
      ((unshown_of_memory hregular hmemory).trans (unshown_of_memory hregular' hmemory').symm)
      hunshown

end Forms

end M68kEmu
