import M68kEmu.Semantics.Arithmetic

/-!
# Address arithmetic

`ADDA` and `SUBA`, and `ADDQ` and `SUBQ` to an address register, are meant to work on all 32 bits of
the register, with a word source extended by its sign.  They go through the accessors of the data
registers, and so write the low word of the register only when the size is word.  The upper word is
right when the carry of the low words stands in for the sign of the source.
-/

namespace M68kEmu

open Outcome

namespace Derived

/-- `ADDA` and `SUBA`, and `ADDQ` and `SUBQ` of a word or a long word to an address register. -/
def IsAddressArithmetic : Derived → Prop
  | .adda _ | .suba _ => True
  | .addq f | .subq f => f.destMode = .directAddr ∧ f.dataSize ≠ some .byte
  | _ => False

/-- The operands at the size of the instruction. -/
def addressOperands : Derived → CpuM BaseMemory ArithmeticOperands
  | .adda f | .suba f => arithmeticOperands (fetchSource .cpuState f) f.toOneOperand
  | .addq f | .subq f => arithmeticOperands (fun _ => pure (f.immData.setWidth 32)) f.toOneOperand
  | _ => throw .invalidOpcode

/-- The address that the instruction is meant to leave. -/
def addressResult (d : Derived) (o : ArithmeticOperands) (base : BitVec 32) : BitVec 32 :=
  match d with
  | .suba _ | .subq _ => base - o.src.signExtend 32
  | _ => base + o.src.signExtend 32

/-- The operands for which the low word is enough: what the low words carry or borrow is
the sign of the source. -/
def AddressFaithful (d : Derived) (o : ArithmeticOperands) : Prop :=
  match d with
  | .suba _ | .subq _ => o.size = .word → (o.dest.toNat < o.src.toNat ↔ o.src.msb = true)
  | _ => o.size = .word → (2 ^ 16 ≤ o.src.toNat + o.dest.toNat ↔ o.src.msb = true)

end Derived

/-! ### The low word -/

/-- The sign extension of a word as a number. -/
theorem toNat_signExtend_word (v : BitVec 16) :
    (v.signExtend 32).toNat = v.toNat + if v.msb then 0xFFFF0000 else 0 := by
  rw [BitVec.toNat_signExtend, BitVec.toNat_setWidth,
    Nat.mod_eq_of_lt (Nat.lt_trans v.isLt (by decide))]

section Words

variable {base new src dest : BitVec 32}

theorem toNat_div_of_ushiftRight_eq (h : new >>> 16 = base >>> 16) :
    new.toNat / 2 ^ 16 = base.toNat / 2 ^ 16 := by
  have := congrArg BitVec.toNat h
  rwa [BitVec.toNat_ushiftRight, BitVec.toNat_ushiftRight, Nat.shiftRight_eq_div_pow,
    Nat.shiftRight_eq_div_pow] at this

/-- A register whose low word is replaced by a sum of words. -/
theorem word_sum_iff (hsrc : src.toNat < 2 ^ 16) (hdest : dest.toNat = base.toNat % 2 ^ 16)
    (hlow : new.toNat % 2 ^ 16 = (src + dest).toNat % 2 ^ 16) (hhigh : new >>> 16 = base >>> 16) :
    new = base + (src.setWidth 16).signExtend 32 ↔
      (2 ^ 16 ≤ src.toNat + dest.toNat ↔ (src.setWidth 16).msb = true) := by
  have hbase := base.isLt
  have hdiv := toNat_div_of_ushiftRight_eq hhigh
  have hword : (src.setWidth 16).toNat = src.toNat := by
    rw [BitVec.toNat_setWidth, Nat.mod_eq_of_lt hsrc]
  rw [BitVec.toNat_add] at hlow
  rw [← BitVec.toNat_inj, BitVec.toNat_add, toNat_signExtend_word, hword,
    BitVec.msb_eq_decide, hword]
  simp only [decide_eq_true_eq]
  split_ifs <;> omega

/-- A register whose low word is replaced by a difference of words. -/
theorem word_difference_iff (hsrc : src.toNat < 2 ^ 16) (hdest : dest.toNat = base.toNat % 2 ^ 16)
    (hlow : new.toNat % 2 ^ 16 = (dest - src).toNat % 2 ^ 16) (hhigh : new >>> 16 = base >>> 16) :
    new = base - (src.setWidth 16).signExtend 32 ↔
      (dest.toNat < src.toNat ↔ (src.setWidth 16).msb = true) := by
  have hbase := base.isLt
  have hdiv := toNat_div_of_ushiftRight_eq hhigh
  have hword : (src.setWidth 16).toNat = src.toNat := by
    rw [BitVec.toNat_setWidth, Nat.mod_eq_of_lt hsrc]
  rw [BitVec.toNat_sub] at hlow
  rw [← BitVec.toNat_inj, BitVec.toNat_sub, toNat_signExtend_word, hword,
    BitVec.msb_eq_decide, hword]
  simp only [decide_eq_true_eq]
  split_ifs <;> omega

end Words

/-! ### The instructions -/

section Instructions

variable {s t : CPUState BaseMemory} {u : Unit} {f : OneOperand}
    {fetch : DataSize → CpuM BaseMemory (BitVec 32)} {op : BitVec 32 → BitVec 32 → BitVec 32}

/-- What a completed instruction to an address register has done: the register at the size is the
result, its bits above the size and the status register are as before. -/
theorem address_eq_ok (hf : f.Valid) (hfetch : OperandFetch fetch)
    (hmode : f.destMode = .directAddr)
    {flags : DataSize → BitVec 32 → BitVec 32 → BitVec 32 → CpuM BaseMemory Unit}
    (hflags : ∀ size a b c s, flags size a b c s = .ok () s)
    (h : readModifyWrite .cpuState fetch f op flags s = .ok u t) :
    ∃ size src dest s₁, arithmeticOperands fetch f s =
        .ok ⟨size, src.setWidth size.bits, dest.setWidth size.bits, f.destMode, f.destReg⟩ s₁ ∧
        DataKept s s₁ ∧
      f.dataSize = some size ∧ src.toNat < 2 ^ size.bits ∧ dest.toNat = (s₁.reg f.destReg).toNat %
        2 ^ size.bits ∧
      (t.reg f.destReg).toNat % 2 ^ size.bits = (op src dest).toNat % 2 ^ size.bits ∧
      t.reg f.destReg >>> size.bits = s₁.reg f.destReg >>> size.bits ∧
      t.registers.regBuffer regSR = s.registers.regBuffer regSR := by
  obtain ⟨size, src, dest, s₁, s₂, hrun, hstatus, hset⟩ := readModifyWrite_eq_ok hf hfetch h
  rw [hflags] at hset
  obtain ⟨-, rfl⟩ := EStateM.Result.ok.inj hset
  have hloc : s₁.locate f.destMode f.destReg size = .register f.destReg := by rw [hmode]; rfl
  have hread := hrun.read
  rw [(getDataSilent_eq_ok hf.dest.lt hf.alterable), hloc] at hread
  obtain ⟨-, -, rfl, -⟩ := hread
  have hvalue := hrun.rewritten.value
  have haround := hrun.rewritten.around
  rw [hloc] at hvalue haround
  rw [Location.value, toNat_sized] at hvalue
  exact ⟨size, src, _, s₁, hrun.operands, hrun.kept, hrun.sized, hrun.source_lt, toNat_sized _ _,
    hvalue, haround.2, hstatus⟩

/-- An instruction to an address register, whose operation on words is right when they carry exactly
if the source is negative. -/
theorem address_iff (carries : ℕ → ℕ → Prop) (hf : f.Valid) (hfetch : OperandFetch fetch)
    (hmode : f.destMode = .directAddr) (hsize : f.dataSize ≠ some .byte)
    {flags : DataSize → BitVec 32 → BitVec 32 → BitVec 32 → CpuM BaseMemory Unit}
    (hflags : ∀ size a b c s, flags size a b c s = .ok () s)
    {result : BitVec 32 → BitVec 32 → BitVec 32} (hlong : ∀ src dest, op src dest = result dest src)
    (hword : ∀ {base new src dest : BitVec 32}, src.toNat < 2 ^ 16 →
      dest.toNat = base.toNat % 2 ^ 16 →
      new.toNat % 2 ^ 16 = (op src dest).toNat % 2 ^ 16 → new >>> 16 = base >>> 16 →
      (new = result base ((src.setWidth 16).signExtend 32) ↔
        (carries src.toNat dest.toNat ↔ (src.setWidth 16).msb = true)))
    (h : readModifyWrite .cpuState fetch f op flags s = .ok u t) :
    ∃ o s₁, arithmeticOperands fetch f s = .ok o s₁ ∧ DataKept s s₁ ∧
      ((t.reg o.reg = result (s₁.reg o.reg) (o.src.signExtend 32) ∧
          t.registers.regBuffer regSR = s.registers.regBuffer regSR) ↔
        (o.size = .word → (carries o.src.toNat o.dest.toNat ↔ o.src.msb = true))) := by
  obtain ⟨size, src, dest, s₁, hoperands, hkept, hsized, hsrc, hdest, hlow, hhigh, hstatus⟩ :=
    address_eq_ok hf hfetch hmode hflags h
  refine ⟨_, s₁, hoperands, hkept, ?_⟩
  rw [and_iff_left hstatus]
  cases size with
  | byte => exact absurd hsized hsize
  | word =>
    have hlt : dest.toNat < 2 ^ DataSize.word.bits := by
      rw [hdest]
      exact Nat.mod_lt _ (by decide)
    have hsrc' : (src.setWidth 16).toNat = src.toNat := toNat_setWidth_of_lt hsrc
    have hdest' : (dest.setWidth 16).toNat = dest.toNat := toNat_setWidth_of_lt hlt
    show _ = result _ ((src.setWidth 16).signExtend 32) ↔
      (_ → (carries (src.setWidth 16).toNat (dest.setWidth 16).toNat ↔
        (src.setWidth 16).msb = true))
    rw [hsrc', hdest', hword hsrc hdest hlow hhigh]
    exact ⟨fun h _ => h, fun h => h rfl⟩
  | long =>
    change (t.reg f.destReg).toNat % 2 ^ 32 = (op src dest).toNat % 2 ^ 32 at hlow
    change dest.toNat = (s₁.reg f.destReg).toNat % 2 ^ 32 at hdest
    have hnew : t.reg f.destReg = op src dest := by
      apply BitVec.eq_of_toNat_eq
      rwa [Nat.mod_eq_of_lt (t.reg f.destReg).isLt, Nat.mod_eq_of_lt (op src dest).isLt] at hlow
    have hbase : dest = s₁.reg f.destReg := by
      apply BitVec.eq_of_toNat_eq
      rwa [Nat.mod_eq_of_lt (s₁.reg f.destReg).isLt] at hdest
    have hext : ((src.setWidth 32).signExtend 32) = src := by
      rw [BitVec.signExtend_eq, BitVec.setWidth_eq]
    refine iff_of_true ?_ fun hne => by cases hne
    show t.reg f.destReg = result (s₁.reg f.destReg) ((src.setWidth 32).signExtend 32)
    rw [hnew, hlong, hext, hbase]

theorem setQuickFlags_directAddr {mode : AddressingMode} (hmode : mode = .directAddr)
    (size : DataSize)
    (a b c : BitVec 32) (s : CPUState BaseMemory) : setQuickFlags mode size a b c s = .ok () s := by
  rw [setQuickFlags, if_neg (not_not.2 hmode)]
  rfl

end Instructions

theorem fields_of_adda {opcode : BitVec 16} {f : TwoOperand}
    (h : (decode opcode).derived = .adda f ∨ (decode opcode).derived = .suba f) :
    f.destMode = .directAddr ∧ f.dataSize ≠ some .byte := by
  have hsize (part : BitVec 16) :
      some (if part = 0 then DataSize.word else .long) ≠ some .byte := by
    split_ifs <;> decide
  obtain h | h := h
  · obtain ⟨-, hcreate⟩ := created_of_decode h nofun
    obtain rfl := Derived.adda.inj hcreate
    exact ⟨rfl, hsize _⟩
  · obtain ⟨-, hcreate⟩ := created_of_decode h nofun
    obtain rfl := Derived.suba.inj hcreate
    exact ⟨rfl, hsize _⟩

/-- `ADDA`, `SUBA`, and `ADDQ` and `SUBQ` of a word or a long word to an address register, leave the
32-bit sum or difference with the sign-extended source, and the status register as it was, exactly
when the size is long or the carry of the low words is the sign of the source. -/
theorem address_arithmetic_iff (opcode : BitVec 16)
    (haddr : (decode opcode).derived.IsAddressArithmetic) (s t : CPUState BaseMemory) (u : Unit)
    (h : (decode opcode).derived.execute .cpuState s = .ok u t) :
    ∃ o s₁, (decode opcode).derived.addressOperands s = .ok o s₁ ∧ DataKept s s₁ ∧
      ((t.reg o.reg = (decode opcode).derived.addressResult o (s₁.reg o.reg) ∧
          t.registers.regBuffer regSR = s.registers.regBuffer regSR) ↔
        (decode opcode).derived.AddressFaithful o) := by
  have hvalid := valid_decode opcode
  rcases hd : (decode opcode).derived <;> rw [hd] at haddr h hvalid
  case adda f =>
    have hf : f.Valid := hvalid
    obtain ⟨hmode, hsize⟩ := fields_of_adda (.inl hd)
    exact address_iff (fun src dest => 2 ^ 16 ≤ src + dest) hf.toValid
      (operandFetch_getData hf.src) hmode hsize
      (fun _ _ _ _ _ => rfl) BitVec.add_comm word_sum_iff h
  case suba f =>
    have hf : f.Valid := hvalid
    obtain ⟨hmode, hsize⟩ := fields_of_adda (.inr hd)
    exact address_iff (fun src dest => dest < src) hf.toValid
      (operandFetch_getData hf.src) hmode hsize
      (fun _ _ _ _ _ => rfl) (fun _ _ => rfl) word_difference_iff h
  case addq f =>
    exact address_iff (fun src dest => 2 ^ 16 ≤ src + dest) hvalid
      (operandFetch_pure (immData_lt f)) haddr.1 haddr.2
      (setQuickFlags_directAddr haddr.1) BitVec.add_comm word_sum_iff h
  case subq f =>
    exact address_iff (fun src dest => dest < src) hvalid (operandFetch_pure (immData_lt f))
      haddr.1 haddr.2 (setQuickFlags_directAddr haddr.1) (fun _ _ => rfl) word_difference_iff h
  all_goals exact haddr.elim

/-- The object of `addq.w #1, A0`. -/
theorem decode_addq_address : (decode 0x5248).derived =
    .addq { destMode := .directAddr, destReg := 8, dataSize := some .word, immData := 1 } := by
  rw [decode_eq_opcodeEntry]
  rfl

/-- `addq.w #1, A0` with `0xFFFF` in `A0` leaves 0, and not `0x10000`. -/
theorem address_word_loses_carry :
    let s := CPUState.simple [0x52, 0x48] fun i => if i = 8 then 0xFFFF else 0
    ∃ t s₁, (decode 0x5248).derived.execute .cpuState s = .ok () t ∧
      (decode 0x5248).derived.addressOperands s = .ok ⟨.word, 1, 0xFFFF, .directAddr, 8⟩
      s₁ ∧ t.reg 8 = 0 ∧ t.reg 8 ≠ (decode 0x5248).derived.addressResult ⟨.word, 1, 0xFFFF,
        .directAddr, 8⟩ (s₁.reg 8) := by
  rw [decode_addq_address]
  exact ⟨_, _, rfl, rfl, rfl, by decide⟩

/-- `addq.w #1, A0` with `0x10000` in `A0` leaves `0x10001`. -/
theorem address_word_adds :
    ∃ t, (decode 0x5248).derived.execute .cpuState
        (CPUState.simple [0x52, 0x48] fun i => if i = 8 then 0x10000 else 0) = .ok () t ∧
        t.reg 8 = 0x10001 := by
  obtain ⟨t, ht⟩ : ∃ t, (decode 0x5248).derived.execute .cpuState
      (CPUState.simple [0x52, 0x48] fun i => if i = 8 then 0x10000 else 0) = .ok () t := by
    rw [decode_addq_address]
    exact ⟨_, rfl⟩
  obtain ⟨o, s₁, ho, -, hsum⟩ :=
    address_arithmetic_iff 0x5248 (by rw [decode_addq_address]; exact ⟨rfl, by decide⟩) _ t () ht
  rw [decode_addq_address] at ho hsum
  obtain ⟨rfl, rfl⟩ := EStateM.Result.ok.inj ho
  exact ⟨t, ht, (hsum.2 fun _ => by decide).1⟩

end M68kEmu
