import M68kEmu.Semantics.ShortForms

/-!
# The bit operations

`BTST`, `BCHG`, `BCLR` and `BSET` change at most one bit of their destination, whose number is taken
modulo the width of the destination.  With the number in a register they do so on every destination.
With an immediate number they are meant to read one extension word, but fetch it at the size of the
destination: for a data register that is two words.
-/

namespace M68kEmu

open Outcome

/-! ### Bits -/

/-- The bit after the operation. -/
def BitManipType.bitAfter : BitManipType → Bool → Bool
  | .btst, bit => bit
  | .bchg, bit => !bit
  | .bclr, _ => false
  | .bset, _ => true

section Bits

variable {x shift : BitVec 32} {i n : ℕ}

theorem testBitValue_eq (x shift : BitVec 32) :
    BitManip.testBitValue x shift = x.getLsbD shift.toNat := by
  have hone : (0x1 : BitVec 32) = BitVec.twoPow 32 0 := by decide
  have hne : BitVec.twoPow 32 0 ≠ 0#32 := twoPow_ne_zero (by decide)
  rw [BitManip.testBitValue, hone, BitVec.and_twoPow, BitVec.getLsbD_ushiftRight, Nat.add_zero]
  rcases x.getLsbD shift.toNat with _ | _ <;> simp [hne]

theorem getLsbD_setBit (hi : i < 32) :
    ((x.setWidth 64 ||| BitVec.twoPow 64 n).setWidth 32).getLsbD i =
    (decide (i = n) || x.getLsbD i) := by
  have hi' : i < 64 := Nat.lt_trans hi (by decide)
  rw [BitVec.getLsbD_setWidth, BitVec.getLsbD_or, BitVec.getLsbD_setWidth, BitVec.getLsbD_twoPow]
  rcases eq_or_ne i n with rfl | hne
  · simp [hi, hi']
  · simp [hi, hi', hne, hne.symm]

theorem getLsbD_clearBit (hi : i < 32) :
    ((x.setWidth 64 &&& ~~~BitVec.twoPow 64 n).setWidth 32).getLsbD i =
    (!decide (i = n) && x.getLsbD i) := by
  have hi' : i < 64 := Nat.lt_trans hi (by decide)
  rw [BitVec.getLsbD_setWidth, BitVec.getLsbD_and, BitVec.getLsbD_setWidth, BitVec.getLsbD_not,
    BitVec.getLsbD_twoPow]
  rcases eq_or_ne i n with rfl | hne
  · simp [hi, hi']
  · simp [hi, hi', hne, hne.symm]

/-- The 64-bit masks change one bit of the value. -/
theorem getLsbD_manipulated (type : BitManipType) (x : BitVec 32) (h : shift.toNat < 32) (i : ℕ) :
    (BitManip.manipulated type x shift).getLsbD i =
      if i = shift.toNat then type.bitAfter (x.getLsbD shift.toNat) else x.getLsbD i := by
  by_cases hi : i < 32
  · have hset := getLsbD_setBit (x := x) (n := shift.toNat) hi
    have hclear := getLsbD_clearBit (x := x) (n := shift.toNat) hi
    cases type with
    | btst =>
      have hsame : (x.setWidth 64).setWidth 32 = x := by
        rw [BitVec.setWidth_setWidth_of_le _ (by decide), BitVec.setWidth_eq]
      show ((x.setWidth 64).setWidth 32).getLsbD i = _
      rw [hsame]
      split_ifs with heq
      · rw [heq]; rfl
      · rfl
    | bchg =>
      show (BitVec.setWidth 32 (if BitManip.testBitValue x shift then x.setWidth 64 &&&
        ~~~BitVec.twoPow 64 shift.toNat
        else x.setWidth 64 ||| BitVec.twoPow 64 shift.toNat)).getLsbD i = _
      rw [testBitValue_eq]
      rcases hbit : x.getLsbD shift.toNat with _ | _
      · rw [if_neg (by decide), hset]
        by_cases heq : i = shift.toNat <;> simp [heq, BitManipType.bitAfter]
      · rw [if_pos rfl, hclear]
        by_cases heq : i = shift.toNat <;> simp [heq, BitManipType.bitAfter]
    | bclr =>
      refine hclear.trans ?_
      by_cases heq : i = shift.toNat <;> simp [heq, BitManipType.bitAfter]
    | bset =>
      refine hset.trans ?_
      by_cases heq : i = shift.toNat <;> simp [heq, BitManipType.bitAfter]
  · rw [if_neg (by omega), BitVec.getLsbD_of_ge _ _ (by omega), BitVec.getLsbD_of_ge _ _ (by omega)]

end Bits

/-! ### The fields -/

/-- The size of the destination operand. -/
def bitSize (destMode : AddressingMode) : DataSize :=
  if destMode = .directData then .long else .byte

/-- The fields of `BitManip`, as its constructor leaves them. -/
structure BitManipOperand.Fields (f : BitManipOperand) : Prop where
  valid : f.toTwoOperand.Valid
  alterable : isDataAlterable f.destMode
  src : f.srcMode = .directData ∨ f.srcMode = .immediate
  srcReg : f.srcReg < 8
  dataSize : f.dataSize = some (bitSize f.destMode)
  modulo : f.dataBitsModulo.toNat = (bitSize f.destMode).bits

theorem fields_of_bitManip {opcode : BitVec 16} {f : BitManipOperand}
    (h : (decode opcode).derived = .bitManip f) :
    f.Fields := by
  have hvalid := valid_decode opcode
  rw [h] at hvalid
  obtain ⟨haccepted, hcreate⟩ := created_of_decode h nofun
  obtain rfl := Derived.bitManip.inj hcreate
  refine ⟨hvalid, haccepted, ?_, ?_, ?_, ?_⟩
  · dsimp only [BitManip.create]
    split_ifs
    · exact .inl rfl
    · exact .inr rfl
  · show getRegisterType 0 _ < 8
    rw [getRegisterType, if_pos rfl]
    exact Nat.lt_of_le_of_lt Nat.and_le_right (by decide)
  · rfl
  · dsimp only [BitManip.create, bitSize]
    split_ifs <;> rfl

/-! ### One run -/

section Runs

variable {s s₁ t : CPUState BaseMemory} {f : BitManipOperand} {size : DataSize}
    {v : BitVec 32} {u : Unit}

theorem Location.value_lt (loc : Location) (s : CPUState BaseMemory) (size : DataSize) :
    (loc.value s size).toNat < 2 ^ size.bits := by
  cases loc with
  | register r => exact sized_lt _ _
  | memory addr => exact readRealMem_lt

theorem getLsbD_of_mod {n : ℕ} {y w : BitVec 32} (h : y.toNat = w.toNat % 2 ^ n) (i : ℕ) :
    y.getLsbD i = (decide (i < n) && w.getLsbD i) := by
  rw [BitVec.getLsbD, BitVec.getLsbD, h, Nat.testBit_mod_two_pow]

/-- The stored operand, which is cut off at its size, differs from the old one in that bit. -/
theorem getLsbD_of_manipulated {type : BitManipType} {x y shift : BitVec 32}
    (hlt : shift.toNat < size.bits) (hx : x.toNat < 2 ^ size.bits)
    (hy : y.toNat = (BitManip.manipulated type x shift).toNat % 2 ^ size.bits) (i : ℕ) :
    y.getLsbD i = if i = shift.toNat then type.bitAfter (x.getLsbD shift.toNat)
      else x.getLsbD i := by
  rw [getLsbD_of_mod hy, getLsbD_manipulated type x (Nat.lt_of_lt_of_le hlt (bits_le size))]
  by_cases hi : i < size.bits
  · rw [decide_eq_true hi, Bool.true_and]
  · have hne : i ≠ shift.toNat := fun heq => hi (by rw [heq]; exact hlt)
    have hhigh : x.getLsbD i = false :=
      Nat.testBit_lt_two_pow
        (Nat.lt_of_lt_of_le hx (Nat.pow_le_pow_right (by decide) (Nat.not_lt.1 hi)))
    rw [decide_eq_false hi, Bool.false_and, if_neg hne, hhigh]

/-- The bit number is taken modulo the width of the destination. -/
theorem BitManipOperand.Fields.toNat_shift (hf : f.Fields) (hsize : size = bitSize f.destMode)
    {shift : BitVec 32}
    (hshift : shift = v % f.dataBitsModulo.setWidth 32) : shift.toNat = v.toNat % size.bits := by
  have hmodulo := hf.modulo
  have hlt : f.dataBitsModulo.toNat < 2 ^ 32 := Nat.lt_trans f.dataBitsModulo.isLt (by decide)
  rw [hshift, BitVec.toNat_umod, BitVec.toNat_setWidth, Nat.mod_eq_of_lt hlt, hmodulo, hsize]

/-- A bit operation whose bit number has been read returns when its destination can be
fetched and accessed. -/
theorem bitManip_eq_ok (hf : f.Fields) (hsize : size = bitSize f.destMode)
    (hsrc : CPUState.getData f.srcMode f.srcReg size (s.withReg regPC (s.reg regPC + 2)) = .ok v s₁)
    {loc : Location} (hloc : loc = s₁.locate f.destMode f.destReg size) {shift : BitVec 32}
    (hshift : shift = v % f.dataBitsModulo.setWidth 32) :
    BitManip.execute .cpuState f s = .ok u t ↔
      (Part.operand f.destMode f.destReg size).Fetchable s₁.memory (s₁.reg regPC) ∧
      loc.Accessible s₁ size ∧
      ((loc.written s₁ size (BitManip.manipulated f.instructionType (loc.value s₁ size)
        shift)).advanced f.destMode f.destReg size).withFlag .zero
          (!BitManip.testBitValue (loc.value s₁ size) shift) = t := by
  have hreg := hf.valid.dest.lt
  have hmode := hf.valid.alterable
  have hsized : f.dataSize = some size := by rw [hf.dataSize, hsize]
  subst hloc hshift
  rw [BitManip.execute, bind_of_ok (skipOpcode_apply s), hsized, readSize, pure_bind]
  constructor
  · intro h
    obtain ⟨v', s', hv', h⟩ := bind_eq_ok.1 h
    obtain ⟨rfl, rfl⟩ := EStateM.Result.ok.inj (hsrc.symm.trans hv')
    obtain ⟨x, s', hx, h⟩ := bind_eq_ok.1 h
    obtain ⟨hfetch, hacc, rfl, rfl⟩ := (getDataSilent_eq_ok hreg hmode).1 hx
    obtain ⟨_, s', hset, h⟩ := bind_eq_ok.1 h
    obtain ⟨-, -, rfl⟩ := (setData_eq_ok hreg hmode).1 hset
    obtain ⟨-, rfl⟩ := EStateM.Result.ok.inj h
    exact ⟨hfetch, hacc, rfl⟩
  · rintro ⟨hfetch, hacc, rfl⟩
    refine (bind_of_ok hsrc).trans ?_
    refine (bind_of_ok ((getDataSilent_eq_ok hreg hmode).2 ⟨hfetch, hacc, rfl, rfl⟩)).trans ?_
    exact bind_of_ok ((setData_eq_ok (u := ()) hreg hmode).2 ⟨hfetch, hacc, rfl⟩)

/-- The operation has changed bit `b` of the operand at the location, and no other
bit of it, nothing around it, and no bit of the status register but `Z`, which is set
when the bit was clear. -/
structure BitChanged (type : BitManipType) (size : DataSize) (b : ℕ) (loc : Location)
    (s t : CPUState BaseMemory) : Prop where
  bit : (loc.value t size).getLsbD b = type.bitAfter ((loc.value s size).getLsbD b)
  others : ∀ i, i ≠ b → (loc.value t size).getLsbD i = (loc.value s size).getLsbD i
  around : loc.Around size s t
  zero : t.registers.getFlag .zero = !(loc.value s size).getLsbD b
  status : t.registers.regBuffer regSR &&& ~~~StatusRegisterFlag.zero.mask =
    s.registers.regBuffer regSR &&& ~~~StatusRegisterFlag.zero.mask

/-- The change, counted from an earlier state with the same memory, operand and status register. -/
theorem BitChanged.of_earlier {type : BitManipType} {b : ℕ} {loc : Location}
    (h : BitChanged type size b loc s₁ t)
    (hmem : s₁.memory = s.memory) (hreg : ∀ r, loc = .register r → s₁.reg r = s.reg r)
    (hstatus : s₁.registers.regBuffer regSR = s.registers.regBuffer regSR) :
    BitChanged type size b loc s t := by
  obtain ⟨hvalue, haround⟩ : loc.value s₁ size = loc.value s size ∧ loc.Around size s t := by
    have haround := h.around
    cases loc with
    | register r =>
      rw [Location.Around, hmem, hreg r rfl] at haround
      exact ⟨by rw [Location.value, Location.value, hreg r rfl], haround⟩
    | memory addr =>
      rw [Location.Around, hmem] at haround
      exact ⟨by rw [Location.value, Location.value, hmem], haround⟩
  exact ⟨by rw [h.bit, hvalue], fun i hi => by rw [h.others i hi, hvalue], haround,
    by rw [h.zero, hvalue], by rw [h.status, hstatus]⟩

theorem bitChanged_of_eq_ok (hf : f.Fields) (hsize : size = bitSize f.destMode)
    (hsrc : CPUState.getData f.srcMode f.srcReg size (s.withReg regPC (s.reg regPC + 2)) = .ok v s₁)
    (h : BitManip.execute .cpuState f s = .ok u t) :
    BitChanged f.instructionType size (v.toNat % size.bits)
      (s₁.locate f.destMode f.destReg size) s₁ t := by
  have hreg := hf.valid.dest.lt
  have hmode := hf.valid.alterable
  obtain ⟨hfetch, hacc, rfl⟩ := (bitManip_eq_ok hf hsize hsrc rfl rfl).1 h
  obtain ⟨shift, hshift⟩ : ∃ shift, shift = v % f.dataBitsModulo.setWidth 32 := ⟨_, rfl⟩
  obtain ⟨loc, hloc⟩ : ∃ loc, loc = s₁.locate f.destMode f.destReg size := ⟨_, rfl⟩
  obtain ⟨w, hw⟩ : ∃ w, w = BitManip.manipulated f.instructionType (loc.value s₁ size) shift :=
    ⟨_, rfl⟩
  obtain ⟨s₂, hs₂⟩ : ∃ s₂, s₂ = (loc.written s₁ size w).advanced f.destMode f.destReg size :=
    ⟨_, rfl⟩
  rw [← hshift, ← hloc, ← hw, ← hs₂]
  have hnumber : shift.toNat = v.toNat % size.bits := hf.toNat_shift hsize hshift
  have hlt : shift.toNat < size.bits := by
    rw [hnumber]
    exact Nat.mod_lt _ (by cases size <;> decide)
  rw [← hnumber, testBitValue_eq]
  -- the store, and then the flag
  have hset : CPUState.setData f.destMode f.destReg size w s₁ = .ok () s₂ := by
    subst hloc
    exact (setData_eq_ok hreg hmode).2 ⟨hfetch, hacc, hs₂.symm⟩
  have hrewritten := rewritten_of_setData hreg hmode hset
  rw [← hloc] at hrewritten
  have hnamed (r : ℕ) (hr : loc = .register r) : Named r :=
    named_of_locate hreg r (hloc.symm.trans hr)
  have hzero (b : Bool) (r : ℕ) (hr : Named r) : (s₂.withFlag .zero b).reg r = s₂.reg r :=
    CPUState.reg_withFlag (by decide) hr
  have hvalue (b : Bool) : loc.value (s₂.withFlag .zero b) size = loc.value s₂ size :=
    Location.value_congr hnamed CPUState.memory_withFlag (hzero b)
  have hbits :=
    getLsbD_of_manipulated hlt (loc.value_lt s₁ size) (hrewritten.value.trans (by rw [hw]))
  refine ⟨?_, fun i hi => ?_, ?_, ?_, ?_⟩
  · rw [hvalue, hbits, if_pos rfl]
  · rw [hvalue, hbits, if_neg hi]
  · exact hrewritten.around.congr hnamed CPUState.memory_withFlag (hzero _)
  · simp [CPUState.withFlag, getFlag_setFlag]
  · rw [← status_of_setData hreg hmode hset]
    exact assign_and (by decide) _

end Runs

/-- A bit operation with its bit number in a register, when it returns, changes that bit of its
destination, modulo 32 or 8, and nothing else: also when the register is the destination, or the
index of the destination. -/
theorem bit_operation_changes_bit (opcode : BitVec 16) (f : BitManipOperand)
    (hd : (decode opcode).derived = .bitManip f)
    (hsrc : f.srcMode = .directData) (s t : CPUState BaseMemory) (u : Unit)
    (h : (decode opcode).derived.execute .cpuState s = .ok u t) :
    BitChanged f.instructionType (bitSize f.destMode)
      ((s.reg f.srcReg).toNat % if f.destMode = .directData then 32 else 8)
      ((s.withReg regPC (s.reg regPC + 2)).locate f.destMode f.destReg (bitSize f.destMode))
      s t := by
  have hf := fields_of_bitManip hd
  rw [hd] at h
  have hn : Named f.srcReg := named_of_lt (Nat.lt_trans hf.srcReg (by decide))
  have hne : f.srcReg ≠ regPC := ne_regPC_of_lt (Nat.lt_trans hf.srcReg (by decide))
  have hfetch :
      CPUState.getData f.srcMode f.srcReg (bitSize f.destMode) (s.withReg regPC (s.reg regPC + 2)) =
      .ok (Registers.sized (s.reg f.srcReg) (bitSize f.destMode))
      (s.withReg regPC (s.reg regPC + 2)) := by
    rw [hsrc, ← CPUState.reg_withReg_of_ne named_regPC hn hne]
    exact getReg_apply hn _
  have hchanged := bitChanged_of_eq_ok hf rfl hfetch h
  have hnumber :
      (Registers.sized (s.reg f.srcReg) (bitSize f.destMode)).toNat % (bitSize f.destMode).bits =
      (s.reg f.srcReg).toNat % if f.destMode = .directData then 32 else 8 := by
    rw [toNat_sized, bitSize]
    split_ifs
    · exact Nat.mod_mod_of_dvd _ (by decide)
    · exact Nat.mod_mod_of_dvd _ (by decide)
  rw [hnumber] at hchanged
  refine hchanged.of_earlier rfl (fun r hr => ?_) ?_
  · obtain rfl := eq_of_locate hr
    have hlt := hf.valid.dest.lt
    exact CPUState.reg_withReg_of_ne named_regPC (named_of_lt hlt) (ne_regPC_of_lt hlt)
  · exact CPUState.status_withReg named_regPC

/-- The object of `bchg D1, D0`. -/
theorem decode_bchg : (decode 0x0340).derived =
    .bitManip
      { destMode := .directData, destReg := 0, dataSize := some .long,
        srcMode := .directData, srcReg := 1
        instructionType := .bchg, instructionStr := "bchg", dataBitsModulo := 32 } := by
  rw [decode_eq_opcodeEntry]
  rfl

/-- `bchg D1, D0` with 33 in `D1` inverts bit 1 of `D0`. -/
theorem bchg_changes_bit :
    ∃ t, (decode 0x0340).derived.execute .cpuState
        (CPUState.simple [0x03, 0x40] fun i => if i = 1 then 33 else 0) = .ok () t ∧ t.reg 0 = 2 ∧
      BitChanged .bchg .long 1 (.register 0) (CPUState.simple [0x03, 0x40] fun i =>
        if i = 1 then 33 else 0) t := by
  obtain ⟨t, ht, hreg⟩ : ∃ t, (decode 0x0340).derived.execute .cpuState
      (CPUState.simple [0x03, 0x40] fun i => if i = 1 then 33 else 0) = .ok () t ∧ t.reg 0 = 2 := by
    rw [decode_bchg]
    exact ⟨_, rfl, by decide⟩
  exact ⟨t, ht, hreg, bit_operation_changes_bit 0x0340 _ decode_bchg rfl _ t () ht⟩

/-! ### Immediate bit numbers -/

/-- The state from which the form with `n` in `Dk` runs: where the other form finds its extension
word, it starts. -/
def CPUState.withBitNumber (s : CPUState BaseMemory) (k : ℕ) (n : BitVec 32) :
    CPUState BaseMemory :=
  (s.withReg k n).withReg regPC (s.reg regPC + 2)

/-- With `n` in `Dk`, the destination is at the same location.  Its extension words are behind the
opcode and one more word. -/
def SameDestination (mode : AddressingMode) (reg k : ℕ) (n : BitVec 32) (s : CPUState BaseMemory) :
    Prop :=
  ((s.withReg k n).withReg regPC (s.reg regPC + 4)).locate mode reg (bitSize mode) =
    (s.withReg regPC (s.reg regPC + 4)).locate mode reg (bitSize mode)

/-- Both runs throw, or both leave the same memory, the same location, and the same
registers other than `Dk`. -/
def SameEffect (k : ℕ) (loc : Location) (size : DataSize) :
    EStateM.Result Fault (CPUState BaseMemory) Unit →
    EStateM.Result Fault (CPUState BaseMemory) Unit → Prop
  | .ok _ t, .ok _ t' => t'.memory = t.memory ∧ loc.value t' size = loc.value t size ∧
      AgreesOff k t t'
  | .error _ _, .error _ _ => True
  | _, _ => False

section Immediates

variable {s s₁ s' s₁' t t' : CPUState BaseMemory} {f g : BitManipOperand}
    {mode : AddressingMode} {reg k : ℕ} {size : DataSize} {v n : BitVec 32}

theorem bank_ne_of_lt (hk : k < 8) {r : ℕ} (hr : 8 ≤ r) (regs : Registers) : regs.bank r ≠ k := by
  obtain h | ⟨-, h⟩ := regs.bank_cases r <;> rw [h]
  · omega
  · simp only [regSSP]
    omega

theorem AgreesOff.advanced (h : AgreesOff k s t) (hk : k < 8) (hop : ValidOperand mode reg) :
    AgreesOff k (s.advanced mode reg size) (t.advanced mode reg size) := by
  have hsr : k ≠ regSR := by simp only [regSR]; omega
  unfold CPUState.advanced
  rcases extSize mode size with _ | e
  · dsimp only
    split_ifs with hbase
    · rw [h.reg hsr (bank_ne_of_lt hk (hop.base hbase) _)]
      exact h.withReg hsr _ _
    · exact h
  · dsimp only
    rw [h.reg hsr (bank_ne_of_lt hk (by decide) _)]
    exact h.withReg hsr _ _

/-- The runs of two bit operations that have read the same number, on the same
destination in memory. -/
theorem sameEffect_of_memory (hf : f.Fields) (hg : g.Fields) (hmode : g.destMode = f.destMode)
    (hreg : g.destReg = f.destReg) (htype : g.instructionType = f.instructionType)
    (hsize : size = bitSize f.destMode)
    (hsrc : CPUState.getData f.srcMode f.srcReg size (s.withReg regPC (s.reg regPC + 2)) = .ok v s₁)
    (hsrc' : CPUState.getData g.srcMode g.srcReg size (s'.withReg regPC (s'.reg regPC + 2)) =
      .ok v s₁')
    (hk : k < 8) (hagree : AgreesOff k s₁ s₁') (hmem : s₁'.memory = s₁.memory) {addr : BitVec 32}
    (hloc : s₁.locate f.destMode f.destReg size = .memory addr)
    (hloc' : s₁'.locate g.destMode g.destReg size = .memory addr) :
    SameEffect k (.memory addr) size (BitManip.execute .cpuState f s)
      (BitManip.execute .cpuState g s') := by
  have hmodulo : g.dataBitsModulo = f.dataBitsModulo := by
    rw [← BitVec.toNat_inj, hg.modulo, hf.modulo, hmode]
  have hpc : s₁'.reg regPC = s₁.reg regPC :=
    hagree.reg (by simp only [regSR]; omega) (bank_ne_of_lt hk (by decide) _)
  have hrun (u : Unit) (t : CPUState BaseMemory) :=
    bitManip_eq_ok (u := u) (t := t) hf hsize hsrc hloc.symm rfl
  have hrun' (u : Unit) (t : CPUState BaseMemory) :=
    bitManip_eq_ok (u := u) (t := t) hg (hsize.trans (by rw [hmode])) hsrc' hloc'.symm rfl
  rw [Location.Accessible, Location.value] at hrun hrun'
  rw [hmode, hreg, htype, hmodulo, hmem, hpc] at hrun'
  by_cases hfits : (Part.operand f.destMode f.destReg size).Fetchable s₁.memory (s₁.reg regPC) ∧
      s₁.memory.Accessible addr size
  · rw [(hrun () _).2 ⟨hfits.1, hfits.2, rfl⟩, (hrun' () _).2 ⟨hfits.1, hfits.2, rfl⟩]
    obtain ⟨w, hw⟩ : ∃ w, w = BitManip.manipulated f.instructionType (s₁.memory.read addr size)
      (v % f.dataBitsModulo.setWidth 32) := ⟨_, rfl⟩
    rw [← hw]
    have hwritten : ((Location.memory addr).written s₁' size w).memory =
        ((Location.memory addr).written s₁ size w).memory := by
      simp only [Location.written, CPUState.stored, hmem]
    have hmemory :
        (((Location.memory addr).written s₁' size w).advanced f.destMode f.destReg size).memory =
        (((Location.memory addr).written s₁ size w).advanced f.destMode f.destReg size).memory := by
      rw [memory_advanced, memory_advanced, hwritten]
    have hstored :
        AgreesOff k ((Location.memory addr).written s₁ size w)
        ((Location.memory addr).written s₁' size w) :=
      hagree
    refine ⟨hmemory, congrArg (BaseMemory.read · addr size) hmemory, ?_⟩
    exact (hstored.advanced hk hf.valid.dest).withFlag (by simp only [regSR]; omega) _ _
  · obtain ⟨e, t, h⟩ : ∃ e t, BitManip.execute .cpuState f s = .error e t := by
      refine exists_error_iff.2 ?_
      rintro ⟨u, t, h⟩
      obtain ⟨hfetch, hacc, -⟩ := (hrun u t).1 h
      exact hfits ⟨hfetch, hacc⟩
    obtain ⟨e', t', h'⟩ : ∃ e t, BitManip.execute .cpuState g s' = .error e t := by
      refine exists_error_iff.2 ?_
      rintro ⟨u, t, h⟩
      obtain ⟨hfetch, hacc, -⟩ := (hrun' u t).1 h
      exact hfits ⟨hfetch, hacc⟩
    rw [h, h']
    trivial

/-- The program counter after a bit operation. -/
theorem pc_of_bitManip (hf : f.Fields) {u : Unit} (h : BitManip.execute .cpuState f s = .ok u t) :
    t.reg regPC = s.reg regPC +
    delta regPC [.opcode, .operand f.srcMode f.srcReg (bitSize f.destMode),
      .operand f.destMode f.destReg (bitSize f.destMode)] := by
  have hstep : Step (· = f.destReg) [.opcode, f.srcPart, f.destPart] (BitManip.execute .cpuState f)
      (BitManip.execute .cpuState f : CpuM BaseMemory Unit) := step_bitManip hf.valid fun _ => rfl
  have hpc : ¬regPC = f.destReg := Ne.symm (ne_regPC_of_lt hf.valid.dest.lt)
  have hmoved := (hstep.consumes s u t h).moved regPC named_regPC hpc
  rwa [TwoOperand.srcPart_eq hf.dataSize, OneOperand.destPart_eq hf.dataSize] at hmoved

theorem withBitNumber_skip :
    (s.withBitNumber k n).withReg regPC ((s.withBitNumber k n).reg regPC + 2) =
    (s.withReg k n).withReg regPC (s.reg regPC + 4) := by
  rw [CPUState.withBitNumber, CPUState.reg_withReg_self named_regPC,
    CPUState.withReg_withReg named_regPC, BitVec.add_assoc]
  rfl

/-- The register form reads `n` from `Dk`. -/
theorem getData_withBitNumber (hg : g.srcMode = .directData) (hk : g.srcReg < 8) (n : BitVec 32)
    (size : DataSize) : CPUState.getData g.srcMode g.srcReg size
        ((s.withBitNumber g.srcReg n).withReg regPC ((s.withBitNumber g.srcReg n).reg regPC + 2)) =
      .ok (Registers.sized n size) ((s.withReg g.srcReg n).withReg regPC (s.reg regPC + 4)) := by
  have hnamed : Named g.srcReg := named_of_lt (Nat.lt_trans hk (by decide))
  have hne : g.srcReg ≠ regPC := by simp only [regPC]; omega
  rw [withBitNumber_skip, hg]
  refine (getReg_apply hnamed size).trans ?_
  rw [CPUState.reg_withReg_of_ne named_regPC hnamed hne, CPUState.reg_withReg_self hnamed]

/-- The immediate form reads it from the extension word, if it reads a byte. -/
theorem getData_bitNumber (hf : f.srcMode = .immediate)
    (hacc : s.memory.Accessible (s.reg regPC + 2) .word) :
    CPUState.getData f.srcMode f.srcReg .byte (s.withReg regPC (s.reg regPC + 2)) =
      .ok (s.memory.immediate (s.reg regPC + 2) .byte) (s.withReg regPC (s.reg regPC + 4)) := by
  have hself := CPUState.reg_withReg_self (s := s) (v := s.reg regPC + 2) named_regPC
  have hacc' :
      (s.withReg regPC (s.reg regPC + 2)).memory.Accessible
      ((s.withReg regPC (s.reg regPC + 2)).reg regPC) (immediateSize .byte) := by
    rw [hself]
    exact hacc
  rw [hf, getData_immediate f.srcReg hacc', hself, CPUState.withReg_withReg named_regPC,
    BitVec.add_assoc]
  rfl

/-- The register form on a data register returns. -/
theorem exists_ok_of_directData (hg : g.Fields) (hdirect : g.srcMode = .directData)
    (hregister : g.destMode = .directData) (n : BitVec 32) (s : CPUState BaseMemory) :
    ∃ t, BitManip.execute .cpuState g (s.withBitNumber g.srcReg n) = .ok () t := by
  refine ⟨_, (bitManip_eq_ok hg rfl (getData_withBitNumber hdirect hg.srcReg n _) rfl rfl).2
    ⟨?_, ?_, rfl⟩⟩
  · rw [hregister]
    intro e he
    cases he
  · rw [hregister]
    exact named_of_lt hg.valid.dest.lt

/-- On a data register the immediate form fetches two words, and the register form
ends after the first. -/
theorem pc_ne_of_directData (hf : f.Fields) (hg : g.Fields) (himm : f.srcMode = .immediate)
    (hdirect : g.srcMode = .directData) (hdata : f.destMode = .directData)
    (hregister : g.destMode = .directData)
    {n : BitVec 32} {u u' : Unit} (hrun : BitManip.execute .cpuState f s = .ok u t)
    (hrun' : BitManip.execute .cpuState g (s.withBitNumber g.srcReg n) = .ok u' t') :
    t.reg regPC ≠ t'.reg regPC := by
  intro hpc
  have hstart : (s.withBitNumber g.srcReg n).reg regPC = s.reg regPC + 2 :=
    CPUState.reg_withReg_self named_regPC
  have hbits : bitSize .directData = .long := rfl
  have hlong :
      delta regPC [.opcode, .operand .immediate f.srcReg .long,
        .operand .directData f.destReg .long] = 6 := rfl
  have hnone :
      delta regPC [.opcode, .operand .directData g.srcReg .long,
        .operand .directData g.destReg .long] = 2 := rfl
  rw [pc_of_bitManip hf hrun, pc_of_bitManip hg hrun', himm, hdirect, hregister, hdata,
    hstart] at hpc
  rw [hbits, hlong, hnone] at hpc
  bv_omega

end Immediates

/-- A bit operation with an immediate number in one extension word, and the operation with that
number in `Dk`, have the same effect on the same destination, and end at the same program counter,
exactly when the destination is in memory. -/
theorem immediate_bit_number_iff (opcode opcode' : BitVec 16) (f g : BitManipOperand)
    (hd : (decode opcode).derived = .bitManip f) (hd' : (decode opcode').derived = .bitManip g)
    (himm : f.srcMode = .immediate) (hdirect : g.srcMode = .directData)
    (hmode : g.destMode = f.destMode) (hreg : g.destReg = f.destReg)
    (htype : g.instructionType = f.instructionType) (s : CPUState BaseMemory)
    (hacc : s.memory.Accessible (s.reg regPC + 2) .word) (n : BitVec 32)
    (hn : n = s.memory.immediate (s.reg regPC + 2) .byte)
    (hdest : SameDestination f.destMode f.destReg g.srcReg n s) :
    SameEffect g.srcReg
        ((s.withReg regPC (s.reg regPC + 4)).locate f.destMode f.destReg (bitSize f.destMode))
          (bitSize f.destMode) ((decode opcode).derived.execute .cpuState s)
        ((decode opcode').derived.execute .cpuState (s.withBitNumber g.srcReg n)) ↔
      f.destMode ≠ .directData := by
  have hf := fields_of_bitManip hd
  have hg := fields_of_bitManip hd'
  have hk := hg.srcReg
  rw [hd, hd']
  constructor
  · intro heffect hdata
    have hregister : g.destMode = .directData := hmode.trans hdata
    obtain ⟨t', hrun'⟩ := exists_ok_of_directData hg hdirect hregister n s
    have heffect' : SameEffect g.srcReg _ _ (BitManip.execute .cpuState f s)
      (BitManip.execute .cpuState g (s.withBitNumber g.srcReg n)) := heffect
    rw [hrun'] at heffect'
    rcases hrun : BitManip.execute .cpuState f s with ⟨u, t⟩ | ⟨e, t⟩
    · rw [hrun] at heffect'
      have hpc :=
        heffect'.2.2.reg (by simp only [regSR]; omega) (bank_ne_of_lt hk (by decide : 8 ≤ regPC) _)
      exact pc_ne_of_directData hf hg himm hdirect hdata hregister hrun hrun' hpc.symm
    · rw [hrun] at heffect'
      exact heffect'
  · intro hmemory
    have hsize : bitSize f.destMode = .byte := if_neg hmemory
    have hmask : Registers.sized n .byte = n := by
      rw [hn, BaseMemory.immediate, if_pos rfl, Registers.sized, mask8, mask8, BitVec.and_assoc,
        BitVec.and_self]
    have hbank : s.registers.bank g.srcReg = g.srcReg :=
      Registers.bank_of_ne (by simp only [regA7]; omega)
    have hsrc := getData_bitNumber himm hacc
    have hsrc' := getData_withBitNumber (s := s) hdirect hk n .byte
    rw [← hn] at hsrc
    rw [hmask] at hsrc'
    obtain ⟨hdirectly, -⟩ | ⟨addr, hloc⟩ :=
      (s.withReg regPC (s.reg regPC + 4)).locate_cases f.destMode f.destReg .byte
    · have halterable := hf.alterable
      obtain h | h := hdirectly
      · exact absurd h hmemory
      · rw [h] at halterable
        cases halterable
    · have hloc' := hdest
      rw [SameDestination, hsize, hloc] at hloc'
      rw [hsize, hloc]
      refine sameEffect_of_memory hf hg hmode hreg htype hsize.symm hsrc hsrc' hk ?_ rfl hloc ?_
      · have hrefl := (AgreesOff.refl g.srcReg s).withReg_right (v := n) hbank
        exact hrefl.withReg (by simp only [regSR]; omega) regPC (s.reg regPC + 4)
      · rw [hmode, hreg, hloc']

/-- The object of `btst #.., D0`. -/
theorem decode_btst_immediate : (decode 0x0800).derived =
    .bitManip
      { destMode := .directData, destReg := 0, dataSize := some .long,
        srcMode := .immediate, srcReg := 4
        instructionType := .btst, instructionStr := "btst", dataBitsModulo := 32 } := by
  rw [decode_eq_opcodeEntry]
  rfl

/-- The object of `btst D1, D0`. -/
theorem decode_btst : (decode 0x0300).derived =
    .bitManip
      { destMode := .directData, destReg := 0, dataSize := some .long,
        srcMode := .directData, srcReg := 1
        instructionType := .btst, instructionStr := "btst", dataBitsModulo := 32 } := by
  rw [decode_eq_opcodeEntry]
  rfl

/-- `btst #1, D0` in front of a `NOP` tests bit 17, the low bits of the `NOP`, and skips it;
`btst D1, D0` tests bit 1. -/
theorem immediate_bit_number_reads_two_words :
    let s := CPUState.simple [0x08, 0x00, 0x00, 0x01, 0x4E, 0x71] fun i => if i = 0 then 2 else 0
    ∃ t t', (decode 0x0800).derived.execute .cpuState s = .ok () t ∧
      (decode 0x0300).derived.execute .cpuState (s.withBitNumber 1 1) = .ok () t' ∧
      (t.registers.getFlag .zero = true ∧ t.reg regPC = 6) ∧
      (t'.registers.getFlag .zero = false ∧ t'.reg regPC = 4) ∧
      ¬SameEffect 1 (.register 0) .long ((decode 0x0800).derived.execute .cpuState s)
        ((decode 0x0300).derived.execute .cpuState (s.withBitNumber 1 1)) := by
  obtain ⟨t, hrun, hzero, hpc⟩ : ∃ t, (decode 0x0800).derived.execute .cpuState
      (CPUState.simple [0x08, 0x00, 0x00, 0x01, 0x4E, 0x71] fun i => if i = 0 then 2 else 0) =
      .ok () t ∧ t.registers.getFlag .zero = true ∧ t.reg regPC = 6 := by
    rw [decode_btst_immediate]
    exact ⟨_, rfl, by decide, by decide⟩
  obtain ⟨t', hrun', hzero', hpc'⟩ : ∃ t', (decode 0x0300).derived.execute .cpuState
      ((CPUState.simple [0x08, 0x00, 0x00, 0x01, 0x4E, 0x71] fun i =>
        if i = 0 then 2 else 0).withBitNumber 1 1) =
        .ok () t' ∧ t'.registers.getFlag .zero = false ∧ t'.reg regPC = 4 := by
    rw [decode_btst]
    exact ⟨_, rfl, by decide, by decide⟩
  intro s
  refine ⟨t, t', hrun, hrun', ⟨hzero, hpc⟩, ⟨hzero', hpc'⟩, fun heffect => ?_⟩
  rw [hrun, hrun'] at heffect
  have hsame : t'.reg regPC = t.reg regPC :=
    heffect.2.2.reg (by decide) (by rw [Registers.bank_regPC]; decide)
  rw [hpc, hpc'] at hsame
  revert hsame
  decide

/-- The object of `bset #.., (A0)`. -/
theorem decode_bset_immediate : (decode 0x08D0).derived =
    .bitManip
      { destMode := .indirect, destReg := 8, dataSize := some .byte,
        srcMode := .immediate, srcReg := 4
        instructionType := .bset, instructionStr := "bset", dataBitsModulo := 8 } := by
  rw [decode_eq_opcodeEntry]
  rfl

/-- The object of `bset D1, (A0)`. -/
theorem decode_bset : (decode 0x03D0).derived =
    .bitManip
      { destMode := .indirect, destReg := 8, dataSize := some .byte,
        srcMode := .directData, srcReg := 1
        instructionType := .bset, instructionStr := "bset", dataBitsModulo := 8 } := by
  rw [decode_eq_opcodeEntry]
  rfl

/-- `bset #1, (A0)`, and `bset D1, (A0)` with 1 in `D1`. -/
theorem bset_immediate_agrees :
    SameEffect 1 (.memory 4) .byte
      ((decode 0x08D0).derived.execute .cpuState
        (CPUState.simple [0x08, 0xD0, 0x00, 0x01, 0x00] fun i => if i = 8 then 4 else 0))
      ((decode 0x03D0).derived.execute .cpuState
        ((CPUState.simple [0x08, 0xD0, 0x00, 0x01, 0x00] fun i =>
          if i = 8 then 4 else 0).withBitNumber 1 1)) :=
  (immediate_bit_number_iff 0x08D0 0x03D0 _ _ decode_bset_immediate decode_bset rfl rfl rfl rfl rfl
    (CPUState.simple [0x08, 0xD0, 0x00, 0x01, 0x00] fun i => if i = 8 then 4 else 0) (by decide) 1
    rfl rfl).2 (by decide)

end M68kEmu
