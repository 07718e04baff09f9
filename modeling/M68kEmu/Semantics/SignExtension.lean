import M68kEmu.Semantics.Logic

/-!
# Sign extensions

`EXT.W` extends the low byte of a data register to a word.  `EXT.L` is meant to extend the low word
to a long word, but casts it to `int8_t`: it extends the low byte as well, which is the same only
for words that are themselves extensions of their low bytes.
-/

namespace M68kEmu

open Outcome

/-! ### Extensions of extensions -/

/-- The register value `y` is the sign extension of `x` at the size: of the low byte to a word below
the high half of `x`, or of the low word to a long word. -/
def SignExtended (size : DataSize) (x y : BitVec 32) : Prop :=
  if size = .word then y.setWidth 16 = (x.setWidth 8).signExtend 16 ∧ y >>> 16 = x >>> 16
  else y = (x.setWidth 16).signExtend 32

/-- An extension, cut off. -/
theorem setWidth_signExtend {w v n : ℕ} (x : BitVec w) (h : n ≤ v) :
    (x.signExtend v).setWidth n = x.signExtend n := by
  ext i hi
  rw [BitVec.getElem_setWidth, BitVec.getLsbD_signExtend, BitVec.getElem_signExtend,
    decide_eq_true (Nat.lt_of_lt_of_le hi h), Bool.true_and]
  split_ifs with hw
  · exact BitVec.getLsbD_eq_getElem hw
  · rfl

/-- An extension in two steps. -/
theorem signExtend_signExtend {w v n : ℕ} (x : BitVec w) (hwv : w ≤ v) (hvn : v ≤ n) :
    (x.signExtend v).signExtend n = x.signExtend n := by
  rw [← BitVec.toInt_inj, BitVec.toInt_signExtend_of_le hvn, BitVec.toInt_signExtend_of_le hwv,
    BitVec.toInt_signExtend_of_le (Nat.le_trans hwv hvn)]

theorem castInt8_congr {x y : BitVec 32} (h : x.setWidth 8 = y.setWidth 8) :
    castInt8 x = castInt8 y :=
  congrArg (BitVec.signExtend 32) h

theorem castInt8_castInt8 (x : BitVec 32) : castInt8 (castInt8 x) = castInt8 x := by
  refine castInt8_congr ?_
  rw [castInt8, setWidth_signExtend _ (by decide), BitVec.signExtend_eq]

/-- The low byte of a word extends as the word does, exactly when the word is an
extension of the byte. -/
theorem castInt8_eq_castInt16_iff (x : BitVec 32) :
    castInt8 x = castInt16 x ↔ x.setWidth 16 = (x.setWidth 8).signExtend 16 := by
  unfold castInt8 castInt16
  constructor
  · intro h
    have hlow := congrArg (BitVec.setWidth 16) h
    rw [setWidth_signExtend _ (by decide), setWidth_signExtend _ (by decide),
      BitVec.signExtend_eq] at hlow
    exact hlow.symm
  · intro h
    rw [h, signExtend_signExtend _ (by decide) (by decide)]

/-! ### `EXT` -/

/-- The size of the operand that `EXT` reads. -/
def extendedFrom (size : DataSize) : DataSize := if size = .word then .byte else .word

section Extension

variable {s : CPUState BaseMemory} {f : OneOperand} {size : DataSize}

theorem fields_of_ext {opcode : BitVec 16} (h : (decode opcode).derived = .ext f) :
    f.destMode = .directData ∧ f.destReg < 16 ∧
    (f.dataSize = some .word ∨ f.dataSize = some .long) := by
  have hvalid := valid_decode opcode
  rw [h] at hvalid
  have hsize (part : BitVec 16) : some (if part ≠ 0 then DataSize.long else .word) = some .word ∨
      some (if part ≠ 0 then DataSize.long else .word) = some .long := by
    split_ifs
    · exact .inr rfl
    · exact .inl rfl
  obtain ⟨-, hcreate⟩ := created_of_decode h nofun
  obtain rfl := Derived.ext.inj hcreate
  exact ⟨rfl, hvalid.1.dest.lt, hsize _⟩

theorem ext_apply (hmode : f.destMode = .directData) (hreg : f.destReg < 16)
    (hsize : f.dataSize = some size) {v : BitVec 32}
    (hv : v = Ext.extended size (Registers.sized (s.reg f.destReg) (extendedFrom size))) :
    Ext.execute .cpuState f s = .ok () ((s.withReg regPC (s.reg regPC + 2)).moved f.destReg
      (Registers.merge (s.reg f.destReg) v size) (isNegative v size) (isZero v size)) := by
  have hn : Named f.destReg := named_of_lt hreg
  have hself : (s.withReg regPC (s.reg regPC + 2)).reg f.destReg = s.reg f.destReg :=
    CPUState.reg_withReg_of_ne named_regPC hn (ne_regPC_of_lt hreg)
  have hread :
      CPUState.getData f.destMode f.destReg (extendedFrom size)
      (s.withReg regPC (s.reg regPC + 2)) =
      .ok (Registers.sized (s.reg f.destReg) (extendedFrom size))
      (s.withReg regPC (s.reg regPC + 2)) := by
    rw [hmode, ← hself]
    exact getReg_apply hn _
  have hstore : CPUState.setData f.destMode f.destReg size v (s.withReg regPC (s.reg regPC + 2)) =
      .ok () ((s.withReg regPC (s.reg regPC + 2)).withReg f.destReg
        (Registers.merge (s.reg f.destReg) v size)) := by
    rw [hmode, ← hself]
    exact setReg_apply hn size
  rw [Ext.execute, bind_of_ok (skipOpcode_apply s), hsize, readSize, pure_bind]
  refine (bind_of_ok hread).trans ?_
  rw [← hv]
  exact (bind_of_ok hstore).trans (setLogicFlags_apply _ _ _)

theorem setWidth_merge (x v : BitVec 32) (size : DataSize) :
    (Registers.merge x v size).setWidth size.bits = v.setWidth size.bits := by
  rw [← BitVec.toNat_inj, BitVec.toNat_setWidth, BitVec.toNat_setWidth, ← toNat_sized,
    sized_merge, toNat_sized]

/-- After `EXT.W` the register holds the extension of its low byte, below its high half. -/
theorem extended_word (x : BitVec 32) {y : BitVec 32}
    (hy : y = Registers.merge x (Ext.extended .word (Registers.sized x .byte)) .word) :
    y.setWidth 16 = (x.setWidth 8).signExtend 16 ∧ y >>> 16 = x >>> 16 := by
  have hlow : (mask8 x).setWidth 8 = x.setWidth 8 := setWidth_mask8 x
  rw [hy]
  refine ⟨(setWidth_merge _ _ .word).trans ?_, merge_ushiftRight _ _ .word⟩
  show (mask16 (castInt8 (mask8 x))).setWidth 16 = _
  rw [setWidth_mask16, castInt8_congr hlow, castInt8, setWidth_signExtend _ (by decide)]

/-- After `EXT.L` it holds that extension to a long word. -/
theorem extended_long (x : BitVec 32) :
    Registers.merge x (Ext.extended .long (Registers.sized x .word)) .long = castInt8 x := by
  have hlow : (mask16 x).setWidth 8 = x.setWidth 8 := by
    have h := congrArg (BitVec.setWidth 8) (setWidth_mask16 x)
    rwa [BitVec.setWidth_setWidth_of_le _ (by decide), BitVec.setWidth_setWidth_of_le _ (by decide)]
      at h
  rw [Registers.merge_long]
  exact castInt8_congr hlow

/-- `EXT` returns, with the extended value in the low bits of the register and its flags. -/
theorem ext_leaves {opcode : BitVec 16} (hd : (decode opcode).derived = .ext f)
    (hsize : f.dataSize = some size) (s : CPUState BaseMemory) :
    ∃ t, (decode opcode).derived.execute .cpuState s = .ok () t ∧
      t.reg f.destReg = Registers.merge (s.reg f.destReg)
        (Ext.extended size (Registers.sized (s.reg f.destReg) (extendedFrom size))) size ∧
      ResultFlags ((t.reg f.destReg).setWidth size.bits) s t := by
  obtain ⟨hmode, hreg, -⟩ := fields_of_ext hd
  have hn : Named f.destReg := named_of_lt hreg
  rw [hd]
  refine ⟨_, ext_apply hmode hreg hsize rfl, reg_moved_self hn _, ?_⟩
  rw [reg_moved_self hn, setWidth_merge]
  exact resultFlags_moved (CPUState.status_withReg named_regPC) hn _ (isNegative_eq_msb _ size)
    (isZero_eq_decide _ size)

/-- `EXT.L` leaves the extension of the low byte. -/
theorem ext_long_leaves {opcode : BitVec 16} (hd : (decode opcode).derived = .ext f)
    (hsize : f.dataSize = some .long) (s : CPUState BaseMemory) :
    ∃ t, (decode opcode).derived.execute .cpuState s = .ok () t ∧
    t.reg f.destReg = castInt8 (s.reg f.destReg) ∧
      ResultFlags ((t.reg f.destReg).setWidth DataSize.long.bits) s t := by
  obtain ⟨t, hrun, hvalue, hflags⟩ := ext_leaves hd hsize s
  exact ⟨t, hrun, hvalue.trans (extended_long _), hflags⟩

end Extension

/-- `EXT` extends: the register holds the sign extension at the size, with its flags, and an `EXT.L`
that follows leaves the extension of the byte that `EXT.W` has read, or what `EXT.L` has left. -/
structure SignExtends (size : DataSize) (r : ℕ) (s t : CPUState BaseMemory) : Prop where
  value : SignExtended size (s.reg r) (t.reg r)
  flags : ResultFlags ((t.reg r).setWidth size.bits) s t
  again : ∀ (opcode : BitVec 16) (f : OneOperand), (decode opcode).derived = .ext f →
    f.dataSize = some .long →
    f.destReg = r → ∃ t', (decode opcode).derived.execute .cpuState t = .ok () t' ∧
      t'.reg r = if size = .word then ((s.reg r).setWidth 8).signExtend 32 else t.reg r

/-- `EXT` extends exactly when its size is word, or the low word is already the sign
extension of the low byte. -/
theorem sign_extension_iff (opcode : BitVec 16) (f : OneOperand)
    (hd : (decode opcode).derived = .ext f) (s : CPUState BaseMemory) :
    ∃ size t, f.dataSize = some size ∧ (decode opcode).derived.execute .cpuState s = .ok () t ∧
      (SignExtends size f.destReg s t ↔
        size = .word ∨ (s.reg f.destReg).setWidth 16 =
        ((s.reg f.destReg).setWidth 8).signExtend 16) := by
  obtain ⟨-, -, hsize | hsize⟩ := fields_of_ext hd
  · obtain ⟨t, hrun, hvalue, hflags⟩ := ext_leaves hd hsize s
    have hext := extended_word _ hvalue
    refine ⟨.word, t, hsize, hrun,
      iff_of_true ⟨hext, hflags, fun opcode' f' hd' hsize' hreg => ?_⟩ (.inl rfl)⟩
    obtain ⟨t', hrun', hvalue', -⟩ := ext_long_leaves hd' hsize' t
    -- the byte survives `EXT.W`
    have hlow := congrArg (BitVec.setWidth 8) hext.1
    rw [BitVec.setWidth_setWidth_of_le _ (by decide), setWidth_signExtend _ (by decide),
      BitVec.signExtend_eq] at hlow
    rw [hreg] at hvalue'
    exact ⟨t', hrun', hvalue'.trans (castInt8_congr hlow)⟩
  · obtain ⟨t, hrun, hvalue, hflags⟩ := ext_long_leaves hd hsize s
    refine ⟨.long, t, hsize, hrun, ?_⟩
    rw [← castInt8_eq_castInt16_iff, ← hvalue]
    constructor
    · intro h
      exact .inr h.value
    · rintro (h | h)
      · cases h
      · refine ⟨h, hflags, fun opcode' f' hd' hsize' hreg => ?_⟩
        obtain ⟨t', hrun', hvalue', -⟩ := ext_long_leaves hd' hsize' t
        rw [hreg, hvalue, castInt8_castInt8] at hvalue'
        exact ⟨t', hrun', hvalue'.trans hvalue.symm⟩

/-- The object of `ext.w D0`. -/
theorem decode_ext_word : (decode 0x4880).derived =
    .ext { destMode := .directData, destReg := 0, dataSize := some .word } := by
  rw [decode_eq_opcodeEntry]
  rfl

/-- The object of `ext.l D0`. -/
theorem decode_ext_long : (decode 0x48C0).derived =
    .ext { destMode := .directData, destReg := 0, dataSize := some .long } := by
  rw [decode_eq_opcodeEntry]
  rfl

/-- `ext.l D0` of `0x1234` leaves `0x34`. -/
theorem sign_extension_loses_high_byte :
    let s := CPUState.simple [0x48, 0xC0] fun i => if i = 0 then 0x1234 else 0
    ∃ t, (decode 0x48C0).derived.execute .cpuState s = .ok () t ∧ t.reg 0 = 0x34 ∧
      ¬SignExtends .long 0 s t := by
  intro s
  obtain ⟨t, hrun, hreg⟩ : ∃ t, (decode 0x48C0).derived.execute .cpuState s = .ok () t ∧
      t.reg 0 = 0x34 := by
    rw [decode_ext_long]
    exact ⟨_, rfl, by decide⟩
  refine ⟨t, hrun, hreg, fun h => ?_⟩
  have hvalue : t.reg 0 = 0x1234 := h.value
  rw [hreg] at hvalue
  revert hvalue
  decide

/-- `ext.w D0` of `0x12345680` leaves `0x1234FF80`. -/
theorem ext_word_sign_extends :
    ∃ t, (decode 0x4880).derived.execute .cpuState
        (CPUState.simple [0x48, 0x80] fun i => if i = 0 then 0x12345680 else 0) = .ok () t ∧
      SignExtends .word 0 (CPUState.simple [0x48, 0x80] fun i => if i = 0 then 0x12345680
        else 0) t := by
  obtain ⟨size, t, hsize, hrun, hext⟩ := sign_extension_iff 0x4880 _ decode_ext_word
    (CPUState.simple [0x48, 0x80] fun i => if i = 0 then 0x12345680 else 0)
  obtain rfl := Option.some.inj hsize
  exact ⟨t, hrun, hext.2 (.inl rfl)⟩

end M68kEmu
