import M68kEmu.Frame.Faults
import M68kEmu.Lib.Division
import M68kEmu.Semantics.Logic

/-!
# Products and quotients

`MULU` and `MULS` leave the exact product of two words, but form it in `int`, which the
unsigned product of large words leaves.  `DIVU` and `DIVS` are meant to divide a long word by a
word; they divide its low word, never report an overflow of the quotient, and divide by zero
when the source is zero.
-/

namespace M68kEmu

open ConditionCodes Division Outcome

/-! ### Operands -/

/-- The source word of `Mul` and `Div`. -/
def SignedOperand.sourceWord (f : SignedOperand) : CpuM BaseMemory (BitVec 16) := do
  skipOpcode
  let srcData ← CPUState.getData f.srcMode f.srcReg .word
  return srcData.setWidth 16

section Operands

variable {s s₁ : CPUState BaseMemory} {f : SignedOperand} {v : BitVec 16}

theorem fields_of_signed {opcode : BitVec 16}
    (h : (decode opcode).derived = .mul f ∨ (decode opcode).derived = .div f) :
    f.toTwoOperand.Valid ∧ f.destMode = .directData ∧ f.dataSize = some .word := by
  have hvalid := valid_decode opcode
  obtain h | h := h
  · rw [h] at hvalid
    obtain ⟨-, hcreate⟩ := created_of_decode h nofun
    obtain rfl := Derived.mul.inj hcreate
    exact ⟨hvalid.1, hvalid.2, rfl⟩
  · rw [h] at hvalid
    obtain ⟨-, hcreate⟩ := created_of_decode h nofun
    obtain rfl := Derived.div.inj hcreate
    exact ⟨hvalid.1, hvalid.2, rfl⟩

theorem sourceWord_eq_ok : f.sourceWord s = .ok v s₁ ↔
    ∃ src : BitVec 32, CPUState.getData f.srcMode f.srcReg .word
      (s.withReg regPC (s.reg regPC + 2)) = .ok src s₁ ∧ src.setWidth 16 = v := by
  rw [SignedOperand.sourceWord, bind_of_ok (skipOpcode_apply s), bind_eq_ok]
  constructor
  · rintro ⟨src, s₂, hsrc, h⟩
    obtain ⟨rfl, rfl⟩ := EStateM.Result.ok.inj h
    exact ⟨src, hsrc, rfl⟩
  · rintro ⟨src, hsrc, rfl⟩
    exact ⟨src, s₁, hsrc, rfl⟩

theorem sourceWord_eq_error {e : Fault} : f.sourceWord s = .error e s₁ ↔
    CPUState.getData f.srcMode f.srcReg .word (s.withReg regPC (s.reg regPC + 2)) =
    .error e s₁ := by
  rw [SignedOperand.sourceWord, bind_of_ok (skipOpcode_apply s), bind_eq_error]
  constructor
  · rintro (h | ⟨_, _, -, h⟩)
    · exact h
    · cases h
  · exact .inl

theorem dataKept_of_sourceWord (hf : f.toTwoOperand.Valid) (h : f.sourceWord s = .ok v s₁) :
    DataKept s s₁ := by
  obtain ⟨src, hsrc, -⟩ := sourceWord_eq_ok.1 h
  exact dataKept_of_fetch (operandFetch_getData hf.src) hsrc

/-- The silent read of a data register at a word. -/
theorem getDataSilent_word {mode : AddressingMode} (hmode : mode = .directData) {r : ℕ}
    (hr : Named r) : CPUState.getDataSilent mode r .word s = .ok (mask16 (s.reg r)) s := by
  rw [hmode]
  exact getReg_apply hr .word

theorem setData_directData {mode : AddressingMode} (hmode : mode = .directData) {r : ℕ}
    (hr : Named r) (v : BitVec 32) :
    CPUState.setData mode r .long v s = .ok () (s.withReg r v) := by
  rw [hmode]
  exact setReg_long hr

end Operands

/-! ### Multiplication -/

section Multiplication

variable {s s₁ : CPUState BaseMemory} {f : SignedOperand} {v : BitVec 16}

theorem mul_apply (hf : f.toTwoOperand.Valid) (hmode : f.destMode = .directData)
    (hsize : f.dataSize = some .word) (h : f.sourceWord s = .ok v s₁) {p : BitVec 32}
    (hp : p = Mul.product f.isSigned v ((s₁.reg f.destReg).setWidth 16)) :
    Mul.execute .cpuState f s =
    .ok () (s₁.moved f.destReg p (isNegative p .long) (isZero p .long)) := by
  have hn : Named f.destReg := named_of_lt hf.dest.lt
  obtain ⟨src, hsrc, rfl⟩ := sourceWord_eq_ok.1 h
  rw [Mul.execute, bind_of_ok (skipOpcode_apply s), hsize, readSize, pure_bind]
  refine (bind_of_ok hsrc).trans ?_
  refine (bind_of_ok (getDataSilent_word hmode hn)).trans ?_
  rw [setWidth_mask16, ← hp]
  exact (bind_of_ok (setData_directData hmode hn _)).trans (setLogicFlags_apply _ _ _)

theorem mul_lt_two_pow (a b : BitVec 16) : a.toNat * b.toNat < 2 ^ 32 :=
  calc a.toNat * b.toNat < 2 ^ 16 * 2 ^ 16 := Nat.mul_lt_mul'' a.isLt b.isLt
    _ = 2 ^ 32 := by decide

/-- The product is the product of the numbers. -/
theorem number_product (isSigned : Bool) (a b : BitVec 16) :
    number isSigned (Mul.product isSigned a b) = number isSigned a * number isSigned b := by
  cases isSigned with
  | true =>
    show (a.signExtend 32 * b.signExtend 32).toInt = a.toInt * b.toInt
    have hle : a.toInt * b.toInt ≤ 2 ^ 30 := BitVec.toInt_mul_toInt_le
    have hge : -2 ^ 30 ≤ a.toInt * b.toInt := BitVec.le_toInt_mul_toInt
    rw [BitVec.toInt_mul, BitVec.toInt_signExtend_of_le (by decide),
      BitVec.toInt_signExtend_of_le (by decide)]
    exact Int.bmod_eq_of_le (by omega) (by omega)
  | false =>
    show ((a.setWidth 32 * b.setWidth 32).toNat : ℤ) = (a.toNat : ℤ) * b.toNat
    have ha : a.toNat < 2 ^ 32 := Nat.lt_trans a.isLt (by decide)
    have hb : b.toNat < 2 ^ 32 := Nat.lt_trans b.isLt (by decide)
    rw [BitVec.toNat_mul, BitVec.toNat_setWidth, BitVec.toNat_setWidth, Nat.mod_eq_of_lt ha,
      Nat.mod_eq_of_lt hb, Nat.mod_eq_of_lt (mul_lt_two_pow a b), Int.natCast_mul]

/-- The product is in the range of `int`, unless it is the unsigned product of large words. -/
theorem product_inSignedRange_iff (isSigned : Bool) (a b : BitVec 16) :
    InSignedRange 32 (number isSigned a * number isSigned b) ↔
    isSigned = true ∨ a.toNat * b.toNat < 2 ^ 31 := by
  cases isSigned with
  | true =>
    have hle : a.toInt * b.toInt ≤ 2 ^ 30 := BitVec.toInt_mul_toInt_le
    have hge : -2 ^ 30 ≤ a.toInt * b.toInt := BitVec.le_toInt_mul_toInt
    refine iff_of_true ?_ (.inl rfl)
    show -2 ^ 31 ≤ a.toInt * b.toInt ∧ a.toInt * b.toInt < 2 ^ 31
    omega
  | false =>
    show -2 ^ 31 ≤ (a.toNat : ℤ) * b.toNat ∧ (a.toNat : ℤ) * b.toNat < 2 ^ 31 ↔ _
    rw [← Int.natCast_mul]
    simp only [Bool.false_eq_true, false_or]
    omega

/-- The instruction multiplies: the product is formed in the range of `int`, the register holds it
exactly, and the flags are those of the product. -/
structure Multiplies (isSigned : Bool) (a b : BitVec 16) (r : ℕ) (s t : CPUState BaseMemory) :
    Prop where
  range : InSignedRange 32 (number isSigned a * number isSigned b)
  value : number isSigned (t.reg r) = number isSigned a * number isSigned b
  flags : ResultFlags (t.reg r) s t

end Multiplication

/-- `MULU` and `MULS` leave the exact product and its flags; they form it in the range of `int`
exactly when it is signed or below `2 ^ 31`. -/
theorem multiplication_multiplies_iff (opcode : BitVec 16) (f : SignedOperand)
    (hd : (decode opcode).derived = .mul f) (s t : CPUState BaseMemory) (u : Unit)
    (h : (decode opcode).derived.execute .cpuState s = .ok u t) :
    ∃ a s₁, f.sourceWord s = .ok a s₁ ∧ DataKept s s₁ ∧
      (Multiplies f.isSigned a ((s₁.reg f.destReg).setWidth 16) f.destReg s t ↔
        f.isSigned = true ∨ a.toNat * ((s₁.reg f.destReg).setWidth 16).toNat < 2 ^ 31) := by
  obtain ⟨hf, hmode, hsize⟩ := fields_of_signed (.inl hd)
  rw [hd] at h
  have hn : Named f.destReg := named_of_lt hf.dest.lt
  obtain ⟨a, s₁, ha⟩ : ∃ a s₁, f.sourceWord s = .ok a s₁ := by
    have h' : Mul.execute .cpuState f s = .ok u t := h
    rw [Mul.execute, bind_of_ok (skipOpcode_apply s), hsize, readSize, pure_bind] at h'
    obtain ⟨src, s₁, hsrc, -⟩ := bind_eq_ok.1 h'
    exact ⟨_, s₁, sourceWord_eq_ok.2 ⟨src, hsrc, rfl⟩⟩
  have hkept := dataKept_of_sourceWord hf ha
  obtain ⟨-, rfl⟩ := EStateM.Result.ok.inj ((mul_apply hf hmode hsize ha rfl).symm.trans h)
  refine ⟨a, s₁, ha, hkept, ?_⟩
  rw [← product_inSignedRange_iff]
  constructor
  · intro hmul
    exact hmul.range
  · intro hrange
    refine ⟨hrange, ?_, ?_⟩
    · rw [reg_moved_self hn, number_product]
    · rw [reg_moved_self hn]
      exact resultFlags_moved hkept.status hn _ (isNegative_long _) (isZero_long _)

/-- The object of `mulu.w D1, D0`. -/
theorem decode_mulu : (decode 0xC0C1).derived =
    .mul { destMode := .directData, destReg := 0, dataSize := some .word, srcMode := .directData,
           srcReg := 1 } := by
  rw [decode_eq_opcodeEntry]
  rfl

/-- `mulu.w D1, D0` with `0xFFFF` in both registers leaves `0xFFFE0001`, a product that
`int` does not hold. -/
theorem multiplication_leaves_int :
    let s := CPUState.simple [0xC0, 0xC1] fun i => if i < 2 then 0xFFFF else 0
    ∃ t, (decode 0xC0C1).derived.execute .cpuState s = .ok () t ∧ t.reg 0 = 0xFFFE0001 ∧
      ¬InSignedRange 32 (number false (0xFFFF : BitVec 16) * number false (0xFFFF : BitVec 16)) ∧
      ¬Multiplies false 0xFFFF 0xFFFF 0 s t := by
  rw [decode_mulu]
  have hrange :
      ¬InSignedRange 32
      (number false (0xFFFF : BitVec 16) * number false (0xFFFF : BitVec 16)) := by decide
  exact ⟨_, rfl, by decide, hrange, fun h => hrange h.range⟩

/-- `mulu.w D1, D0` with 3 and 5 in the registers multiplies. -/
theorem multiplication_small_multiplies :
    ∃ t, (decode 0xC0C1).derived.execute .cpuState
        (CPUState.simple [0xC0, 0xC1] fun i => if i = 0 then 5 else if i = 1 then 3 else 0) =
        .ok () t ∧
      Multiplies false 3 5 0 (CPUState.simple [0xC0, 0xC1] fun i =>
        if i = 0 then 5 else if i = 1 then 3 else 0) t := by
  obtain ⟨t, ht⟩ : ∃ t, (decode 0xC0C1).derived.execute .cpuState
      (CPUState.simple [0xC0, 0xC1] fun i => if i = 0 then 5 else if i = 1 then 3 else 0) =
      .ok () t := by
    rw [decode_mulu]
    exact ⟨_, rfl⟩
  obtain ⟨a, s₁, ha, -, hmul⟩ := multiplication_multiplies_iff 0xC0C1 _ decode_mulu _ t () ht
  obtain ⟨rfl, rfl⟩ := EStateM.Result.ok.inj ha
  exact ⟨t, ht, hmul.2 (.inr (by decide))⟩

/-! ### Division -/

section Division

variable {s s₁ : CPUState BaseMemory} {f : SignedOperand} {v : BitVec 16}

/-- The packed word: the quotient in the low half, the remainder in the high half. -/
theorem packed_low (isSigned : Bool) (v d : BitVec 16) :
    (Div.packed isSigned v d).setWidth 16 = quotient isSigned d v := by
  have hpack (q r : BitVec 16) : (q.setWidth 32 ||| r.setWidth 32 <<< 16).setWidth 16 = q := by
    ext i hi
    simp
  unfold Div.packed quotient
  cases isSigned with
  | true => exact hpack _ _
  | false => exact hpack _ _

theorem packed_high (isSigned : Bool) (v d : BitVec 16) :
    (Div.packed isSigned v d >>> 16).setWidth 16 = remainder isSigned d v := by
  have hpack (q r : BitVec 16) :
      ((q.setWidth 32 ||| r.setWidth 32 <<< 16) >>> 16).setWidth 16 = r := by
    ext i hi
    simp [hi, (by omega : 16 + i < 32), (by omega : i < 32)]
  unfold Div.packed remainder
  cases isSigned with
  | true => exact hpack _ _
  | false => exact hpack _ _

/-- A division by zero is the only one that does not return. -/
theorem div_apply (hf : f.toTwoOperand.Valid) (hmode : f.destMode = .directData)
    (hsize : f.dataSize = some .word) (h : f.sourceWord s = .ok v s₁) {p : BitVec 32}
    (hp : p = Div.packed f.isSigned v ((s₁.reg f.destReg).setWidth 16)) :
    Div.execute .cpuState f s = if v = 0 then .error .divideByZero s₁
      else .ok ()
        (s₁.moved f.destReg p (isNegative (mask16 p) .word) (isZero (mask16 p) .word)) := by
  have hn : Named f.destReg := named_of_lt hf.dest.lt
  obtain ⟨src, hsrc, rfl⟩ := sourceWord_eq_ok.1 h
  rw [Div.execute, bind_of_ok (skipOpcode_apply s), hsize, readSize, pure_bind]
  refine (bind_of_ok hsrc).trans ?_
  refine (bind_of_ok (getDataSilent_word hmode hn)).trans ?_
  rw [setWidth_mask16]
  by_cases hzero : src.setWidth 16 = 0
  · rw [if_pos hzero, if_pos hzero]
    rfl
  · rw [if_neg hzero, if_neg hzero, ← hp]
    exact (bind_of_ok (setData_directData hmode hn _)).trans (setLogicFlags_apply _ _ _)

/-- The instruction divides the register by the word `v`: if the quotient is a word, the register
holds it in its low half and the remainder in its high half, with the flags of the quotient;
otherwise the register is as before, and `V` is set. -/
def Divides (isSigned : Bool) (v : BitVec 16) (r : ℕ) (s s₁ t : CPUState BaseMemory) : Prop :=
  (InRange isSigned 16 ((number isSigned (s₁.reg r)).tdiv (number isSigned v)) →
    Divided (number isSigned (s₁.reg r)) (number isSigned v)
      (number isSigned ((t.reg r).setWidth 16)) (number isSigned ((t.reg r >>> 16).setWidth 16)) ∧
      ResultFlags ((t.reg r).setWidth 16) s t) ∧
  (¬InRange isSigned 16 ((number isSigned (s₁.reg r)).tdiv (number isSigned v)) →
    t.reg r = s₁.reg r ∧ t.registers.getFlag .overflow = true)

end Division

/-- `DIVU` and `DIVS` by a source word that is not zero return.  They divide the long word in the
register exactly when its low word is all of it, or the wrapped quotient makes up for it. -/
theorem division_divides_iff (opcode : BitVec 16) (f : SignedOperand)
    (hd : (decode opcode).derived = .div f)
    (s s₁ : CPUState BaseMemory) (v : BitVec 16) (hv : f.sourceWord s = .ok v s₁) (hne : v ≠ 0) :
    DataKept s s₁ ∧ ∃ t, (decode opcode).derived.execute .cpuState s = .ok () t ∧
      (Divides f.isSigned v f.destReg s s₁ t ↔
        LowFaithful f.isSigned 16 (number f.isSigned (s₁.reg f.destReg))
          (number f.isSigned v)) := by
  obtain ⟨hf, hmode, hsize⟩ := fields_of_signed (.inr hd)
  have hn : Named f.destReg := named_of_lt hf.dest.lt
  have hkept := dataKept_of_sourceWord hf hv
  obtain ⟨p, hp⟩ : ∃ p, p = Div.packed f.isSigned v ((s₁.reg f.destReg).setWidth 16) := ⟨_, rfl⟩
  have hrun := div_apply hf hmode hsize hv hp
  rw [if_neg hne] at hrun
  rw [hd]
  refine ⟨hkept, _, hrun, ?_⟩
  have hlow :=
    divided_low_iff (by decide : 0 < 16) (by decide : 16 ≤ 32) f.isSigned (s₁.reg f.destReg) hne
  rw [← packed_low, ← packed_high, ← hp] at hlow
  have hmask : (mask16 p).setWidth DataSize.word.bits = p.setWidth 16 := setWidth_mask16 p
  have hnegative := isNegative_eq_msb (mask16 p) .word
  have hzero := isZero_eq_decide (mask16 p) .word
  rw [hmask] at hnegative hzero
  have hflags := resultFlags_moved hkept.status hn p hnegative hzero
  unfold Divides
  rw [← hlow, reg_moved_self hn]
  constructor
  · intro h
    by_cases hfits :
      InRange f.isSigned 16 ((number f.isSigned (s₁.reg f.destReg)).tdiv (number f.isSigned v))
    · exact ⟨hfits, (h.1 hfits).1⟩
    · have hover := (h.2 hfits).2
      rw [hflags.overflow] at hover
      cases hover
  · rintro ⟨hfits, hdivided⟩
    exact ⟨fun _ => ⟨hdivided, hflags⟩, fun hnot => absurd hfits hnot⟩

/-- The object of `divu.w D1, D0`. -/
theorem decode_divu : (decode 0x80C1).derived =
    .div { destMode := .directData, destReg := 0, dataSize := some .word, srcMode := .directData,
           srcReg := 1 } := by
  rw [decode_eq_opcodeEntry]
  rfl

/-- `divu.w D1, D0` with 2 and `0x10000` in the registers leaves 0, and not `0x8000`. -/
theorem division_loses_high_word :
    let s := CPUState.simple [0x80, 0xC1] fun i => if i = 0 then 0x10000 else if i = 1 then 2 else 0
    ∃ t s₁, (decode 0x80C1).derived.execute .cpuState s = .ok () t ∧
      SignedOperand.sourceWord ⟨⟨⟨.directData, 0, some .word⟩, .directData, 1⟩, false⟩ s =
      .ok 2 s₁ ∧ t.reg 0 = 0 ∧ ¬Divides false 2 0 s s₁ t := by
  rw [decode_divu]
  refine ⟨_, _, rfl, rfl, by decide, fun h => ?_⟩
  have hdivided := (h.1 (by decide)).1.division
  revert hdivided
  decide

/-- `divu.w D1, D0` with 5 and 17 in the registers divides. -/
theorem division_small_divides :
    ∃ t s₁, (decode 0x80C1).derived.execute .cpuState
        (CPUState.simple [0x80, 0xC1] fun i => if i = 0 then 17 else if i = 1 then 5 else 0) =
        .ok () t ∧
      Divides false 5 0 (CPUState.simple [0x80, 0xC1] fun i => if i = 0 then 17 else if i = 1 then 5
        else 0) s₁ t := by
  obtain ⟨s₁, hs₁, hvalue⟩ :
      ∃ s₁, SignedOperand.sourceWord ⟨⟨⟨.directData, 0, some .word⟩, .directData, 1⟩, false⟩
      (CPUState.simple [0x80, 0xC1] fun i => if i = 0 then 17 else if i = 1 then 5 else 0) =
      .ok 5 s₁ ∧ s₁.reg 0 = 17 := ⟨_, rfl, rfl⟩
  obtain ⟨-, t, ht, hdivides⟩ := division_divides_iff 0x80C1 _ decode_divu _ s₁ 5 hs₁ (by decide)
  refine ⟨t, s₁, ht, hdivides.2 ?_⟩
  show LowFaithful false 16 (number false (s₁.reg 0)) (number false (5 : BitVec 16))
  rw [hvalue]
  decide

/-! ### Division by zero -/

/-- `DIVU` and `DIVS` do not divide by zero exactly when their source, if it can be
read, is not zero. -/
theorem division_by_zero_iff (opcode : BitVec 16) (f : SignedOperand)
    (hd : (decode opcode).derived = .div f) (s : CPUState BaseMemory) :
    (∀ t, (decode opcode).derived.execute .cpuState s ≠ .error .divideByZero t) ↔
      ∀ v s₁, f.sourceWord s = .ok v s₁ → v ≠ 0 := by
  obtain ⟨hf, hmode, hsize⟩ := fields_of_signed (.inr hd)
  rw [hd]
  constructor
  · intro h v s₁ hv hzero
    have hrun := div_apply hf hmode hsize hv rfl
    rw [if_pos hzero] at hrun
    exact h s₁ hrun
  · intro h t herr
    rcases hv : f.sourceWord s with ⟨v, s₁⟩ | ⟨e, s₁⟩
    · have hrun := div_apply hf hmode hsize hv rfl
      rw [if_neg (h v s₁ hv)] at hrun
      cases hrun.symm.trans herr
    · -- the source cannot be read, and its fault is the fault of the instruction
      have hsrc := sourceWord_eq_error.1 hv
      have hrun : Div.execute .cpuState f s = .error e s₁ := by
        rw [Div.execute, bind_of_ok (skipOpcode_apply s), hsize, readSize, pure_bind]
        exact bind_of_error hsrc
      obtain ⟨rfl, -⟩ := EStateM.Result.error.inj (hrun.symm.trans herr)
      exact accessOnly_getData f.srcMode f.srcReg .word _ _ _ hsrc

/-- `divu.w D1, D0` with 0 in `D1` divides by zero. -/
theorem division_by_zero_faults :
    ∃ t, (decode 0x80C1).derived.execute .cpuState (CPUState.simple [0x80, 0xC1] fun i =>
      if i = 0 then 7 else 0) = .error .divideByZero t := by
  rw [decode_divu]
  exact ⟨_, rfl⟩

/-- `divu.w D1, D0` with 5 in `D1` does not. -/
theorem division_by_five_does_not_fault :
    (∃ t, (decode 0x80C1).derived.execute .cpuState
        (CPUState.simple [0x80, 0xC1] fun i => if i = 1 then 5 else 0) = .ok () t) ∧
      ∀ t, (decode 0x80C1).derived.execute .cpuState
        (CPUState.simple [0x80, 0xC1] fun i => if i = 1 then 5 else 0) ≠
        .error .divideByZero t := by
  refine ⟨?_, (division_by_zero_iff 0x80C1 _ decode_divu _).2 fun v s₁ hv => ?_⟩
  · rw [decode_divu]
    exact ⟨_, rfl⟩
  · obtain ⟨rfl, -⟩ := EStateM.Result.ok.inj hv
    decide

end M68kEmu
