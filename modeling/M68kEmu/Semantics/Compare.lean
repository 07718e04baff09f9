import M68kEmu.Decode.Valid
import M68kEmu.Semantics.Flags

/-!
# Compare and branch

`Derived.operands` reads the two numbers that `CMP`, `CMPI` and `CMPA` are there to compare.  The
code sets `V` by the rule of the addition, never sets `C` for long operands, and compares only the
low word of the address register in `CMPA.W`; `compare_answers_iff` says for which operands the ten
conditions nevertheless answer the integer comparison.
-/

namespace M68kEmu

open ConditionCodes Outcome

/-! ### The comparison that is meant -/

/-- Two numbers of a width. -/
structure CompareOperands where
  width : ℕ
  dest : BitVec width
  src : BitVec width

/-- The operands of `CMP` and `CMPI`, at the operand size. -/
def sizedOperands (fetch : DataSize → CpuM BaseMemory (BitVec 32)) (f : OneOperand) :
    CpuM BaseMemory CompareOperands := do
  skipOpcode
  let size ← readSize f.dataSize
  let src ← fetch size
  let dest ← CPUState.getData f.destMode f.destReg size
  return ⟨size.bits, dest.setWidth size.bits, src.setWidth size.bits⟩

/-- The operands of `CMPA`: the whole address register and the sign-extended source. -/
def addressOperands (f : TwoOperand) : CpuM BaseMemory CompareOperands := do
  skipOpcode
  let size ← readSize f.dataSize
  let src ← CPUState.getData f.srcMode f.srcReg size
  let dest ← CPUState.getData f.destMode f.destReg .long
  return ⟨32, dest, if size = .word then castInt16 src else src⟩

namespace Derived

/-- `CMP`, `CMPI` and `CMPA`. -/
def IsCompare : Derived → Prop
  | .cmp _ | .cmpi _ | .cmpa _ => True
  | _ => False

/-- The numbers that the instruction compares. -/
def operands : Derived → CpuM BaseMemory CompareOperands
  | .cmp f => sizedOperands (fetchSource .cpuState f) f.toOneOperand
  | .cmpi f => sizedOperands (fetchImmediate .cpuState) f
  | .cmpa f => addressOperands f
  | _ => throw .invalidOpcode

end Derived

/-- Every condition that names an integer comparison answers it. -/
def AnswersComparisons (t : CPUState BaseMemory) (c : CompareOperands) : Prop :=
  ∀ cond cmp, Condition.comparison cond = some cmp →
    CPUState.checkCondition cond t = .ok (cmp.holds c.dest c.src) t

theorem answersComparisons_iff {t : CPUState BaseMemory} {c : CompareOperands} :
    AnswersComparisons t c ↔ ∀ cmp : Comparison, cmp.answer t.codes = cmp.holds c.dest c.src := by
  constructor
  · intro h cmp
    obtain ⟨cond, hcond⟩ : ∃ cond, Condition.comparison cond = some cmp := by
      cases cmp
      case eq => exact ⟨.equal, rfl⟩
      case ne => exact ⟨.notEqual, rfl⟩
      case ult => exact ⟨.carrySet, rfl⟩
      case uge => exact ⟨.carryClear, rfl⟩
      case ugt => exact ⟨.higher, rfl⟩
      case ule => exact ⟨.lowerSame, rfl⟩
      case slt => exact ⟨.lessThan, rfl⟩
      case sge => exact ⟨.greaterEqual, rfl⟩
      case sgt => exact ⟨.greaterThan, rfl⟩
      case sle => exact ⟨.lessEqual, rfl⟩
    have hanswer := h cond cmp hcond
    rw [checkCondition_apply hcond] at hanswer
    exact (EStateM.Result.ok.inj hanswer).1
  · intro h cond cmp hcond
    rw [checkCondition_apply hcond, h cmp]

/-! ### Operands of one size -/

/-- Neither the difference nor the sum leaves the signed range, and a long comparison
has no borrow. -/
structure SizedFaithful (c : CompareOperands) : Prop where
  difference : c.dest.ssubOverflow c.src = false
  sum : c.src.saddOverflow c.dest = false
  borrow : c.width = 32 → c.src.toNat ≤ c.dest.toNat

theorem sub_eq_zero_iff {w : ℕ} {x y : BitVec w} : x - y = 0 ↔ x = y := by
  rw [BitVec.sub_eq_iff_eq_add]
  simp

theorem answers_of_sized {size : DataSize} {src dest : BitVec 32}
    {s t : CPUState BaseMemory} {u : Unit}
    (hsrc : src.toNat < 2 ^ size.bits) (hdest : dest.toNat < 2 ^ size.bits)
    (h : setCompareFlags size src dest (dest - src) s = .ok u t) :
    AnswersComparisons t ⟨size.bits, dest.setWidth size.bits, src.setWidth size.bits⟩ ↔
      SizedFaithful ⟨size.bits, dest.setWidth size.bits, src.setWidth size.bits⟩ := by
  have hbits : size.bits ≤ 32 := bits_le size
  have hlong : size = .long ↔ size.bits = 32 := by cases size <;> decide
  have hd : (dest.setWidth size.bits).toNat = dest.toNat := toNat_setWidth_of_lt hdest
  have hs : (src.setWidth size.bits).toNat = src.toNat := toNat_setWidth_of_lt hsrc
  have hzero :
      decide ((dest - src).setWidth size.bits = 0) =
      decide (dest.setWidth size.bits = src.setWidth size.bits) := by
    rw [setWidth_sub hbits, decide_eq_decide, sub_eq_zero_iff]
  have hcarry : decide (2 ^ size.bits ≤ (dest - src).toNat) =
      decide ((dest.setWidth size.bits).toNat < (src.setWidth size.bits).toNat) ↔
        (size.bits = 32 → (src.setWidth size.bits).toNat ≤ (dest.setWidth size.bits).toNat) := by
    rw [decide_eq_decide, borrow_iff hdest hsrc, hd, hs, ← hlong]
    by_cases hsize : size = .long <;> simp [hsize]
  have hless : (((dest - src).setWidth size.bits).msb ^^
      (src.setWidth size.bits).saddOverflow (dest.setWidth size.bits)) =
        decide ((dest.setWidth size.bits).toInt < (src.setWidth size.bits).toInt) ↔
      (src.setWidth size.bits).saddOverflow (dest.setWidth size.bits) = false ∧
        (dest.setWidth size.bits).ssubOverflow (src.setWidth size.bits) = false := by
    rw [setWidth_sub hbits, ← msb_sub_xor_ssubOverflow, Bool.xor_right_inj,
      saddOverflow_eq_ssubOverflow_iff]
  rw [answersComparisons_iff, codes_of_setCompareFlags h, answers_iff]
  constructor
  · rintro ⟨-, hc, hlt⟩
    exact ⟨(hless.1 hlt).2, (hless.1 hlt).1, hcarry.1 hc⟩
  · rintro ⟨hdiff, hsum, hborrow⟩
    exact ⟨hzero, hcarry.2 hborrow, hless.2 ⟨hsum, hdiff⟩⟩

/-! ### Word operands of `CMPA` -/

/-- The condition under which the comparison of the low word of `dest` with the word `src` answers
for the comparison of `dest` with the sign extension of `src`. -/
def WordAnswersForLong (dest src : ℕ) : Prop :=
  if src < 0x8000 then
    (dest / 0x10000 = 0 ∨ src < dest % 0x10000) ∧
      (dest < 0x80000000 ↔
        if dest % 0x10000 < 0x8000 then dest % 0x10000 + src < 0x8000
        else dest % 0x10000 < src + 0x8000)
  else
    dest / 0x10000 ≠ 0xFFFF ∧ src < dest % 0x10000 ∧
      (dest < 0x80000000 ↔ 0x18000 ≤ dest % 0x10000 + src)

/-- The exclusive or of a sign and of an overflow test, on propositions. -/
theorem sign_xor_overflow_iff {p a b c : Prop} [Decidable p] [Decidable a] [Decidable b]
    [Decidable c] : (decide p ^^ (decide a == decide b && !decide c == decide a)) = true ↔
    ¬(p ↔ (a ↔ b) ∧ ¬(c ↔ a)) := by
  by_cases hp : p <;> by_cases ha : a <;> by_cases hb : b <;> by_cases hc : c <;>
    simp [hp, ha, hb, hc]

/-- `N xor V` as `CMPA.W` sets them. -/
theorem sign_xor_sum_overflow (x y : BitVec 16) :
    (((x - y).msb ^^ y.saddOverflow x) = true) ↔
      (if y.toNat < 0x8000 then
        if x.toNat < 0x8000 then ¬(x.toNat < y.toNat ↔ 0x8000 ≤ x.toNat + y.toNat) else y.toNat +
          0x8000 ≤ x.toNat else if x.toNat < 0x8000 then y.toNat ≤ x.toNat + 0x8000
      else ¬(x.toNat < y.toNat ↔ x.toNat + y.toNat < 0x18000)) := by
  have hx := x.isLt
  have hy := y.isLt
  rw [BitVec.saddOverflow_eq, BitVec.msb_eq_decide, BitVec.msb_eq_decide, BitVec.msb_eq_decide,
    BitVec.msb_eq_decide, BitVec.toNat_sub, BitVec.toNat_add, sign_xor_overflow_iff]
  split_ifs <;> omega

/-- The comparisons that `CMPA.W` answers. -/
theorem answers_of_word {src dest : BitVec 32} {s t : CPUState BaseMemory} {u : Unit}
    (hsrc : src.toNat < 0x10000)
    (h : setCompareFlags .word (castInt16 src) (mask16 dest) (mask16 dest - castInt16 src)
      s = .ok u t) :
    AnswersComparisons t ⟨32, dest, castInt16 src⟩ ↔ WordAnswersForLong dest.toNat src.toNat := by
  have hdest := dest.isLt
  have hlow : (mask16 dest).toNat = dest.toNat % 0x10000 :=
    Nat.and_two_pow_sub_one_eq_mod dest.toNat 16
  have hx : ((mask16 dest).setWidth 16).toNat = dest.toNat % 0x10000 := by
    rw [BitVec.toNat_setWidth, hlow]
    omega
  have hcast : (castInt16 src).toNat = if src.toNat < 0x8000 then src.toNat
      else src.toNat + 0xFFFF0000 :=
    toNat_castInt16 hsrc
  have hy : ((castInt16 src).setWidth 16).toNat = src.toNat := by
    rw [BitVec.toNat_setWidth, hcast]
    split_ifs <;> omega
  have hcodes := codes_of_setCompareFlags h
  have hbits : DataSize.word.bits = 16 := rfl
  rw [hbits] at hcodes
  rw [answersComparisons_iff, hcodes, answers_iff]
  simp only [setWidth_sub (by decide : 16 ≤ 32)]
  rw [BitVec.toNat_sub, hlow, decide_eq_decide, decide_eq_decide, Bool.eq_iff_iff,
    sign_xor_sum_overflow, hx, hy,
    decide_eq_true_eq, sub_eq_zero_iff, ← BitVec.toNat_inj, ← BitVec.toNat_inj,
      BitVec.toInt_eq_toNat_cond,
    BitVec.toInt_eq_toNat_cond, WordAnswersForLong, hcast]
  by_cases hsneg : src.toNat < 0x8000 <;> by_cases hdneg : dest.toNat % 0x10000 < 0x8000 <;>
    simp only [hsneg, hdneg, if_true, if_false, hx, hy] <;> split_ifs <;> omega

/-! ### The instructions -/

theorem compareWith_eq_ok {fetch : DataSize → CpuM BaseMemory (BitVec 32)} {f : OneOperand}
    {s t : CPUState BaseMemory} {a : Unit} (h : compareWith .cpuState fetch f s = .ok a t) :
    ∃ size u₁ src u₂ dest u₃, f.dataSize = some size ∧ skipOpcode s = .ok () u₁ ∧
    fetch size u₁ = .ok src u₂ ∧ CPUState.getData f.destMode f.destReg size u₂ = .ok dest u₃ ∧
      setCompareFlags size src dest (dest - src) u₃ = .ok a t := by
  obtain ⟨_, u₁, hskip, h⟩ := bind_eq_ok.1 h
  obtain ⟨size, u, hread, h⟩ := bind_eq_ok.1 h
  obtain ⟨src, u₂, hsrc, h⟩ := bind_eq_ok.1 h
  obtain ⟨dest, u₃, hdest, hflags⟩ := bind_eq_ok.1 h
  rcases hsize : f.dataSize with _ | size' <;> rw [hsize] at hread <;> cases hread
  exact ⟨size, u₁, src, u₂, dest, u₃, rfl, hskip, hsrc, hdest, hflags⟩

/-- `CMP` and `CMPI`. -/
theorem answers_of_compareWith {fetch : DataSize → CpuM BaseMemory (BitVec 32)} {f : OneOperand}
    (hfetch : ∀ size s v t, fetch size s = .ok v t → v.toNat < 2 ^ size.bits)
    {s t : CPUState BaseMemory} {a : Unit} (h : compareWith .cpuState fetch f s = .ok a t) :
    ∃ c u, sizedOperands fetch f s = .ok c u ∧ (AnswersComparisons t c ↔ SizedFaithful c) := by
  obtain ⟨size, u₁, src, u₂, dest, u₃, hsize, hskip, hsrc, hdest, hflags⟩ := compareWith_eq_ok h
  refine ⟨_, u₃, ?_, answers_of_sized (hfetch _ _ _ _ hsrc) (getData_lt hdest) hflags⟩
  rw [sizedOperands, bind_of_ok hskip, hsize, readSize, pure_bind, bind_of_ok hsrc,
    bind_of_ok hdest]
  rfl

/-- The fields of a `CMPA`. -/
theorem cmpa_of_decode {opcode : BitVec 16} {f : TwoOperand}
    (h : (decode opcode).derived = .cmpa f) :
    f.destMode = .directAddr ∧ (f.dataSize = some .word ∨ f.dataSize = some .long) := by
  obtain ⟨-, hcreate⟩ := created_of_decode h nofun
  obtain rfl := Derived.cmpa.inj hcreate
  refine ⟨rfl, ?_⟩
  dsimp only
  split_ifs
  · exact .inl rfl
  · exact .inr rfl

/-- `CMPA`. -/
theorem answers_of_cmpa {f : TwoOperand} (hf : f.Valid) (hdest : f.destMode = .directAddr)
    (hsize : f.dataSize = some .word ∨ f.dataSize = some .long)
    {s t : CPUState BaseMemory} {a : Unit} (h : Cmpa.execute .cpuState f s = .ok a t) :
    ∃ c u, addressOperands f s = .ok c u ∧
      (AnswersComparisons t c ↔
        if f.dataSize = some .word then WordAnswersForLong c.dest.toNat (c.src.toNat % 0x10000)
          else SizedFaithful c) := by
  obtain ⟨size, u₁, src, u₂, dest, u₃, hsize', hskip, hsrc, hread, hflags⟩ := compareWith_eq_ok h
  obtain ⟨raw, u, hraw, hext⟩ : ∃ raw u, CPUState.getData f.srcMode f.srcReg size u₁ = .ok raw u ∧
      (pure (if size = .word then castInt16 raw else raw) : CpuM BaseMemory _) u = .ok src u₂ :=
      bind_eq_ok.1 hsrc
  obtain ⟨rfl, rfl⟩ := EStateM.Result.ok.inj hext
  have hnamed : Named f.destReg := named_of_lt hf.dest.lt
  have hreg (size : DataSize) : CPUState.getData f.destMode f.destReg size u =
      .ok (Registers.sized (u.reg f.destReg) size) u := by
    rw [hdest]
    exact getReg_apply hnamed size
  have hrun :
      addressOperands f s = .ok ⟨32, u.reg f.destReg, if size = .word then castInt16 raw
        else raw⟩ u := by
    rw [addressOperands, bind_of_ok hskip, hsize', readSize, pure_bind, bind_of_ok hraw,
      bind_of_ok (hreg .long)]
    rfl
  refine ⟨_, u, hrun, ?_⟩
  rw [hreg] at hread
  obtain ⟨rfl, rfl⟩ := EStateM.Result.ok.inj hread
  obtain hword | hlong := hsize
  · obtain rfl : size = .word := Option.some.inj (hsize'.symm.trans hword)
    have hraw' : raw.toNat < 0x10000 := getData_lt hraw
    have hsrc' : (castInt16 raw).toNat % 0x10000 = raw.toNat := by
      rw [toNat_castInt16 hraw']
      split_ifs <;> omega
    rw [if_pos hword, if_pos rfl, hsrc']
    exact answers_of_word hraw' hflags
  · obtain rfl : size = .long := Option.some.inj (hsize'.symm.trans hlong)
    have hnot : ¬f.dataSize = some .word := by rw [hlong]; decide
    have hraw' : raw.toNat < 2 ^ DataSize.long.bits := raw.isLt
    have hanswers : AnswersComparisons t ⟨32, (u.reg f.destReg).setWidth 32, raw.setWidth 32⟩ ↔
        SizedFaithful ⟨32, (u.reg f.destReg).setWidth 32, raw.setWidth 32⟩ :=
      answers_of_sized hraw' (u.reg f.destReg).isLt hflags
    rw [BitVec.setWidth_eq, BitVec.setWidth_eq] at hanswers
    rw [if_neg hnot]
    exact hanswers

namespace Derived

/-- The operands on which the code answers all ten comparisons. -/
def CompareFaithful (d : Derived) (c : CompareOperands) : Prop :=
  match d with
  | .cmpa f =>
    if f.dataSize = some .word then WordAnswersForLong c.dest.toNat (c.src.toNat % 0x10000)
      else SizedFaithful c
  | _ => SizedFaithful c

end Derived

/-- Compare and branch: after a compare instruction the conditions answer the comparison of its
operands exactly when the operands are such that the flags of the code are right. -/
theorem compare_answers_iff (opcode : BitVec 16) (hcompare : (decode opcode).derived.IsCompare)
    (s t : CPUState BaseMemory) (a : Unit)
    (h : (decode opcode).derived.execute .cpuState s = .ok a t) :
    ∃ c u, (decode opcode).derived.operands s = .ok c u ∧
      (AnswersComparisons t c ↔ (decode opcode).derived.CompareFaithful c) := by
  have hvalid := valid_decode opcode
  have hsource (f : TwoOperand) (size : DataSize) (s t : CPUState BaseMemory) (v : BitVec 32)
      (h : fetchSource .cpuState f size s = .ok v t) : v.toNat < 2 ^ size.bits := getData_lt h
  have himmediate (size : DataSize) (s t : CPUState BaseMemory) (v : BitVec 32)
      (h : fetchImmediate .cpuState size s = .ok v t) : v.toNat < 2 ^ size.bits := by
    have hread : CPUState.getData .immediate regD0 size s = .ok v t := h
    exact getData_lt hread
  rcases hd : (decode opcode).derived <;> rw [hd] at hcompare h hvalid
  case cmp f => exact answers_of_compareWith (fun size s v t => hsource f size s t v) h
  case cmpi f => exact answers_of_compareWith (fun size s v t => himmediate size s t v) h
  case cmpa f =>
    obtain ⟨hdest, hsize⟩ := cmpa_of_decode hd
    exact answers_of_cmpa hvalid hdest hsize h
  all_goals exact hcompare.elim

/-- The object of `cmp.b D1, D0`. -/
theorem decode_cmp_byte : (decode 0xB001).derived =
    .cmp { destMode := .directData, destReg := 0, dataSize := some .byte, srcMode := .directData,
           srcReg := 1 } := by
  rw [decode_eq_opcodeEntry]
  rfl

/-- After `cmp.b D1, D0` with `0x40` in both registers, `LT` holds. -/
theorem compare_equal_bytes_less :
    let s := CPUState.simple [0xB0, 0x01] fun i => if i < 2 then 0x40 else 0
    ∃ t u, (decode 0xB001).derived.execute .cpuState s = .ok () t ∧
      (decode 0xB001).derived.operands s = .ok ⟨8, 0x40, 0x40⟩ u ∧
      CPUState.checkCondition .lessThan t = .ok true t ∧ ¬AnswersComparisons t ⟨8, 0x40, 0x40⟩ := by
  rw [decode_cmp_byte]
  refine ⟨_, _, rfl, rfl, rfl, fun h => ?_⟩
  have hless := h .lessThan .slt rfl
  cases hless

/-- After `cmp.b D1, D0` with 2 and 1 in the registers, every condition answers. -/
theorem compare_small_bytes_answers :
    ∃ t, (decode 0xB001).derived.execute .cpuState
        (CPUState.simple [0xB0, 0x01] fun i => if i = 0 then 2 else if i = 1 then 1 else 0) =
        .ok () t ∧
      AnswersComparisons t ⟨8, 2, 1⟩ := by
  obtain ⟨t, ht⟩ : ∃ t, (decode 0xB001).derived.execute .cpuState
      (CPUState.simple [0xB0, 0x01] fun i => if i = 0 then 2 else if i = 1 then 1 else 0) =
      .ok () t := by
    rw [decode_cmp_byte]
    exact ⟨_, rfl⟩
  obtain ⟨c, u, hc, hanswers⟩ :=
    compare_answers_iff 0xB001 (by rw [decode_cmp_byte]; trivial) _ t () ht
  rw [decode_cmp_byte] at hc hanswers
  obtain ⟨rfl, -⟩ := EStateM.Result.ok.inj hc
  exact ⟨t, ht, hanswers.2 ⟨by decide, by decide, fun h => by cases h⟩⟩

end M68kEmu
