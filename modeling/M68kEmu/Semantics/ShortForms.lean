import M68kEmu.Semantics.Logic

/-!
# Short and general forms

`ADDQ`, `SUBQ`, `CLR` and `TST` do what `ADDI`, `SUBI`, `MOVE` and `CMPI` do with an immediate
operand, which the general form reads from the instruction stream: `short_form_agrees` runs both,
the general form from a program counter that lies earlier by the immediate.  `MOVEQ` is meant as a
short form of `MOVE.L`, but extends its byte with zeros; `moveq_agrees_iff` says for which bytes
that makes no difference.
-/

namespace M68kEmu

open Outcome

/-! ### Immediates -/

/-- The size of the access that fetches an immediate. -/
def immediateSize (size : DataSize) : DataSize := if size = .long then .long else .word

/-- The immediate at an address. -/
def BaseMemory.immediate (mem : BaseMemory) (addr : BitVec 32) (size : DataSize) : BitVec 32 :=
  if size = .byte then mask8 (mem.read addr (immediateSize size))
    else mem.read addr (immediateSize size)

/-- The memory holds an immediate, readable, just before the address. -/
structure ImmediateBefore (mem : BaseMemory) (addr : BitVec 32) (size : DataSize) (v : BitVec 32) :
    Prop where
  readable : mem.Accessible (addr - (immediateSize size).toWord) (immediateSize size)
  value : mem.immediate (addr - (immediateSize size).toWord) size = v

section Immediates

variable {s : CPUState BaseMemory} {size : DataSize} {v : BitVec 32}

theorem getData_immediate (reg : ℕ) (h : s.memory.Accessible (s.reg regPC) (immediateSize size)) :
    CPUState.getData .immediate reg size s =
      .ok (s.memory.immediate (s.reg regPC) size)
        (s.withReg regPC (s.reg regPC + (immediateSize size).toWord)) := by
  unfold immediateSize at h ⊢
  refine (fetchExt_apply h _).trans ?_
  rw [bind_of_ok (setReg_long named_regPC)]
  rfl

/-- The state from which the general form of an instruction starts. -/
def CPUState.earlier (s : CPUState BaseMemory) (size : DataSize) : CPUState BaseMemory :=
  s.withReg regPC (s.reg regPC - (immediateSize size).toWord)

/-- After its opcode and its immediate, the general form is where the short form is
after its opcode. -/
theorem getData_immediate_earlier (reg : ℕ)
    (h : ImmediateBefore s.memory (s.reg regPC + 2) size v) :
    CPUState.getData .immediate reg size
      ((s.earlier size).withReg regPC ((s.earlier size).reg regPC + 2)) =
      .ok v (s.withReg regPC (s.reg regPC + 2)) := by
  have hpc : (s.earlier size).reg regPC + 2 = s.reg regPC + 2 - (immediateSize size).toWord := by
    unfold CPUState.earlier
    rw [CPUState.reg_withReg_self named_regPC, BitVec.sub_eq_add_neg, BitVec.sub_eq_add_neg,
      BitVec.add_assoc, BitVec.add_assoc, BitVec.add_comm 2]
  rw [hpc, CPUState.earlier, CPUState.withReg_withReg named_regPC]
  have hself :=
    CPUState.reg_withReg_self (s := s)
      (v := s.reg regPC + 2 - (immediateSize size).toWord) named_regPC
  rw [getData_immediate reg (by rw [hself]; exact h.readable), hself,
    CPUState.withReg_withReg named_regPC, BitVec.sub_add_cancel]
  exact congrArg (EStateM.Result.ok · _) h.value

end Immediates

/-! ### Two runs -/

/-- A short form and a general form, with the destination that both have and the immediate
of the general form. -/
inductive ShortForm : Derived → Derived → OneOperand → BitVec 32 → Prop
  | add (f : QuickOperand) :
      ShortForm (.addq f) (.addi f.toOneOperand) f.toOneOperand (f.immData.setWidth 32)
  | sub (f : QuickOperand) :
      ShortForm (.subq f) (.subi f.toOneOperand) f.toOneOperand (f.immData.setWidth 32)
  | clear (f : MoveOperand) (h : f.srcMode = .immediate) :
      ShortForm (.clr f.toOneOperand) (.move f) f.toOneOperand 0
  | test (f : OneOperand) : ShortForm (.tst f) (.cmpi f) f 0

section Forms

variable {s : CPUState BaseMemory} {size : DataSize} {v : BitVec 32} {f : OneOperand}

/-- A read-modify-write instruction takes its source from the instruction stream or
from its opcode. -/
theorem readModifyWrite_earlier (hsize : f.dataSize = some size)
    (h : ImmediateBefore s.memory (s.reg regPC + 2) size v) (op : BitVec 32 → BitVec 32 → BitVec 32)
    (flags : DataSize → BitVec 32 → BitVec 32 → BitVec 32 → CpuM BaseMemory Unit) :
    readModifyWrite .cpuState (fun _ => pure v) f op flags s =
      readModifyWrite .cpuState (fetchImmediate .cpuState) f op flags (s.earlier size) := by
  have hfetch : fetchImmediate .cpuState size
      ((s.earlier size).withReg regPC ((s.earlier size).reg regPC + 2)) =
      .ok v (s.withReg regPC (s.reg regPC + 2)) :=
    getData_immediate_earlier regD0 h
  unfold readModifyWrite
  rw [bind_of_ok (skipOpcode_apply s), bind_of_ok (skipOpcode_apply (s.earlier size)), hsize,
    readSize, pure_bind, pure_bind, pure_bind, bind_of_ok hfetch]

theorem clr_earlier {f : MoveOperand} (hsize : f.dataSize = some size)
    (hsrc : f.srcMode = .immediate)
    (hmove : f.isMovea = false) (h : ImmediateBefore s.memory (s.reg regPC + 2) size 0) :
    Clr.execute .cpuState f.toOneOperand s = Move.execute .cpuState f (s.earlier size) := by
  have hfetch := getData_immediate_earlier f.srcReg h
  have hnegative : isNegative (0 : BitVec 32) size = false := by cases size <;> rfl
  rw [← hsrc] at hfetch
  unfold Clr.execute Move.execute
  rw [bind_of_ok (skipOpcode_apply s), bind_of_ok (skipOpcode_apply (s.earlier size)), hsize,
    readSize, pure_bind, pure_bind]
  refine Eq.trans ?_ (bind_of_ok hfetch).symm
  rw [if_neg (by rw [hmove]; decide), hnegative]
  rfl

/-- The flags of a comparison with zero are those of a test. -/
theorem setCompareFlags_zero (hv : v.toNat < 2 ^ size.bits) (s : CPUState BaseMemory) :
    setCompareFlags size 0 v (v - 0) s = setLogicFlags size v s := by
  have hsub : v - 0 = v := BitVec.sub_zero v
  have hzero : (0 : BitVec 32).setWidth size.bits = BitVec.ofNat size.bits 0 :=
    BitVec.setWidth_zero _ _
  have hover : isOverflow 0 v size = false := by
    rw [isOverflow_eq, hzero, BitVec.saddOverflow_eq, BitVec.zero_add, BitVec.msb_zero]
    cases (v.setWidth size.bits).msb <;> rfl
  have hcarry : isCarry (v.setWidth 64) size = false := by
    rw [isCarry_eq]
    exact decide_eq_false (Nat.not_le.2 hv)
  rw [hsub, setCompareFlags, setLogicFlags, hover, hcarry, isNegative_eq, isZero_eq,
    isNegative_eq_msb, isZero_eq_decide]

theorem tst_earlier (hsize : f.dataSize = some size)
    (h : ImmediateBefore s.memory (s.reg regPC + 2) size 0) :
    Tst.execute .cpuState f s = Cmpi.execute .cpuState f (s.earlier size) := by
  have hfetch : fetchImmediate .cpuState size
      ((s.earlier size).withReg regPC ((s.earlier size).reg regPC + 2)) =
      .ok 0 (s.withReg regPC (s.reg regPC + 2)) :=
    getData_immediate_earlier regD0 h
  unfold Tst.execute Cmpi.execute compareWith
  rw [bind_of_ok (skipOpcode_apply s), bind_of_ok (skipOpcode_apply (s.earlier size)), hsize,
    readSize, pure_bind, pure_bind, bind_of_ok hfetch]
  rcases hdata : CPUState.getData f.destMode f.destReg size (s.withReg regPC (s.reg regPC + 2))
    with ⟨v, t⟩ | ⟨e, t⟩
  · refine (bind_of_ok hdata).trans (Eq.trans ?_ (bind_of_ok hdata).symm)
    exact (setCompareFlags_zero (getData_lt hdata) t).symm
  · exact (bind_of_error hdata).trans (bind_of_error hdata).symm

end Forms

/-- A short form and the general form with the immediate that it stands for have the same outcome:
the same final state, or the same error.  The general form starts earlier by the length of its
immediate, so that both find the extension words of the destination at the same place. -/
theorem short_form_agrees (short general : BitVec 16) (f : OneOperand) (v : BitVec 32)
    (hform : ShortForm (decode short).derived (decode general).derived f v)
    (hdest : f.destMode ≠ .directAddr)
    (size : DataSize) (hsize : f.dataSize = some size) (s : CPUState BaseMemory)
    (himm : ImmediateBefore s.memory (s.reg regPC + 2) size v) :
    (decode short).derived.execute .cpuState s = (decode general).derived.execute .cpuState
      (s.earlier size) := by
  have hvalid := valid_decode general
  generalize (decode short).derived = d at hform ⊢
  generalize (decode general).derived = d' at hform hvalid ⊢
  have hquick :
      setQuickFlags f.destMode = (setArithmeticFlags : DataSize → _ → _ → _ →
        CpuM BaseMemory Unit) := by
    funext size src dest result
    exact if_pos hdest
  cases hform with
  | add f =>
    refine Eq.trans ?_ (readModifyWrite_earlier hsize himm _ _)
    rw [← hquick]
    rfl
  | sub f =>
    refine Eq.trans ?_ (readModifyWrite_earlier hsize himm _ _)
    rw [← hquick]
    rfl
  | clear f hsrc =>
    have hmove : f.isMovea = false := Bool.eq_false_iff.2 fun hmovea => hdest (hvalid.2.1 hmovea)
    exact clr_earlier hsize hsrc hmove himm
  | test f => exact tst_earlier hsize himm

/-- The object of `addq.w #1, D0`. -/
theorem decode_addq_word : (decode 0x5240).derived =
    .addq { destMode := .directData, destReg := 0, dataSize := some .word, immData := 1 } := by
  rw [decode_eq_opcodeEntry]
  rfl

/-- The object of `addi.w #.., D0`. -/
theorem decode_addi_word : (decode 0x0640).derived =
    .addi { destMode := .directData, destReg := 0, dataSize := some .word } := by
  rw [decode_eq_opcodeEntry]
  rfl

/-- `addq.w #1, D0`, and `addi.w #1, D0` with its immediate at address 0. -/
theorem addq_agrees_with_addi :
    (decode 0x5240).derived.execute .cpuState (CPUState.simple [0x00, 0x01] fun _ => 0) =
      (decode 0x0640).derived.execute .cpuState
        ((CPUState.simple [0x00, 0x01] fun _ => 0).earlier .word) := by
  refine short_form_agrees 0x5240 0x0640 ⟨.directData, 0, some .word⟩ 1 ?_ (by decide) .word rfl
    _ ⟨by decide, rfl⟩
  rw [decode_addq_word, decode_addi_word]
  exact .add ⟨⟨.directData, 0, some .word⟩, 1⟩

/-! ### `MOVEQ` -/

section Moveq

variable {s s' : CPUState BaseMemory}

theorem moveq_apply {f : QuickOperand} (hreg : f.destReg < 16) (hmode : f.destMode = .directData)
    (hsize : f.dataSize = some .long) : Moveq.execute .cpuState f s =
      .ok () ((s.withReg regPC (s.reg regPC + 2)).moved f.destReg (f.immData.setWidth 32) false
        (f.immData == 0)) := by
  have hset :
      CPUState.setData f.destMode f.destReg .long (f.immData.setWidth 32)
      (s.withReg regPC (s.reg regPC + 2)) =
      .ok () ((s.withReg regPC (s.reg regPC + 2)).withReg f.destReg (f.immData.setWidth 32)) := by
    rw [hmode]
    exact setReg_long (named_of_lt hreg)
  -- the sign is looked for in bit 31 of a byte
  have hnegative : isNegative f.immData .long = false := by
    have hmask : msb32 f.immData = 0 := BitVec.and_zero
    rw [isNegative, hmask]
    rfl
  unfold Moveq.execute
  rw [bind_of_ok (skipOpcode_apply s), hsize, readSize, pure_bind]
  refine (bind_of_ok hset).trans ?_
  rw [hnegative]
  rfl

theorem move_long_apply {f : MoveOperand} (hreg : f.destReg < 16) (hmode : f.destMode = .directData)
    (hmove : f.isMovea = false) (hsrc : f.srcMode = .immediate) (hsize : f.dataSize = some .long)
    (hacc : s.memory.Accessible (s.reg regPC + 2) .long) {v : BitVec 32}
    (hv : s.memory.read (s.reg regPC + 2) .long = v) : Move.execute .cpuState f s =
      .ok () ((s.withReg regPC (s.reg regPC + 6)).moved f.destReg v v.msb (v == 0)) := by
  have hself := CPUState.reg_withReg_self (s := s) (v := s.reg regPC + 2) named_regPC
  have hfetch : CPUState.getData f.srcMode f.srcReg .long (s.withReg regPC (s.reg regPC + 2)) =
      .ok v (s.withReg regPC (s.reg regPC + 6)) := by
    have hacc' :
        (s.withReg regPC (s.reg regPC + 2)).memory.Accessible
        ((s.withReg regPC (s.reg regPC + 2)).reg regPC) (immediateSize .long) := by
      rw [hself]
      exact hacc
    rw [hsrc, getData_immediate f.srcReg hacc', hself, CPUState.withReg_withReg named_regPC,
      BitVec.add_assoc]
    exact congrArg (EStateM.Result.ok · _) hv
  have hset : CPUState.setData f.destMode f.destReg .long v (s.withReg regPC (s.reg regPC + 6)) =
      .ok () ((s.withReg regPC (s.reg regPC + 6)).withReg f.destReg v) := by
    rw [hmode]
    exact setReg_long (named_of_lt hreg)
  unfold Move.execute
  rw [bind_of_ok (skipOpcode_apply s), hsize, readSize, pure_bind]
  refine (bind_of_ok hfetch).trans ?_
  rw [if_neg (by rw [hmove]; decide)]
  refine (bind_of_ok hset).trans ?_
  rw [isNegative_long]
  rfl

theorem AgreesOff.moved {k : ℕ} (h : AgreesOff k s s') (hk : k ≠ regSR) (r : ℕ) (v : BitVec 32)
    (negative zero : Bool) : AgreesOff k (s.moved r v negative zero) (s'.moved r v negative zero) :=
  ((((h.withReg hk r v).withFlag hk _ _).withFlag hk _ _).withFlag hk _ _).withFlag hk _ _

/-- The registers agree after two moves only if the same number was moved. -/
theorem eq_of_agreesOff_moved {r : ℕ} (hr : r < 16) {v v' : BitVec 32} {n z n' z' : Bool}
    (h : AgreesOff regPC (s.moved r v n z) (s'.moved r v' n' z')) : v' = v := by
  have hn : Named r := named_of_lt hr
  have hne : ((s.moved r v n z).registers.bank r) ≠ regPC := by
    obtain hb | ⟨-, hb⟩ := (s.moved r v n z).registers.bank_cases r <;> rw [hb] <;>
      simp only [regPC, regSSP] <;> omega
  have hreg := h.reg (by decide) hne
  rwa [reg_moved_self hn, reg_moved_self hn] at hreg

/-- A byte is its own sign extension when its top bit is clear. -/
theorem signExtend_eq_setWidth_iff (i : BitVec 8) : i.signExtend 32 = i.setWidth 32 ↔
    i.toNat < 0x80 := by
  have hlt := i.isLt
  have hmsb : i.msb = decide (0x80 ≤ i.toNat) := BitVec.msb_eq_decide i
  rw [← BitVec.toNat_inj, BitVec.toNat_signExtend, hmsb]
  by_cases h : 0x80 ≤ i.toNat
  · simp [h]
  · simp [h]
    omega

end Moveq

theorem fields_of_moveq {opcode : BitVec 16} {f : QuickOperand}
    (h : (decode opcode).derived = .moveq f) :
    f.destMode = .directData ∧ f.dataSize = some .long := by
  obtain ⟨-, hcreate⟩ := created_of_decode h nofun
  obtain rfl := Derived.moveq.inj hcreate
  exact ⟨rfl, rfl⟩

/-- `MOVEQ`, and `MOVE.L` of the sign extension of its byte from any program counter, both return
and leave memory.  They leave the same registers, the program counter apart, exactly when the byte
is not negative. -/
theorem moveq_agrees_iff (short general : BitVec 16) (f : QuickOperand) (g : MoveOperand)
    (hshort : (decode short).derived = .moveq f) (hgeneral : (decode general).derived = .move g)
    (hmode : g.destMode = .directData) (hreg : g.destReg = f.destReg)
    (hsrc : g.srcMode = .immediate)
    (hsize : g.dataSize = some .long) (s s' : CPUState BaseMemory) (hagree : AgreesOff regPC s s')
    (hacc : s'.memory.Accessible (s'.reg regPC + 2) .long)
    (himm : s'.memory.read (s'.reg regPC + 2) .long = f.immData.signExtend 32) :
    ∃ t t', (decode short).derived.execute .cpuState s = .ok () t ∧
      (decode general).derived.execute .cpuState s' = .ok () t' ∧ t.memory = s.memory ∧
      t'.memory = s'.memory ∧ t.reg regPC = s.reg regPC + 2 ∧ t'.reg regPC = s'.reg regPC + 6 ∧
      (AgreesOff regPC t t' ↔ f.immData.toNat < 0x80) := by
  obtain ⟨hmode', hsize'⟩ := fields_of_moveq hshort
  have hvalid := valid_decode short
  have hvalid' := valid_decode general
  rw [hshort] at hvalid ⊢
  rw [hgeneral] at hvalid' ⊢
  have hlt : f.destReg < 16 := hvalid.dest.lt
  have hne : f.destReg ≠ regPC := ne_regPC_of_lt hlt
  have hmove : g.isMovea = false := Bool.eq_false_iff.2 fun hmovea => by
    rw [hvalid'.2.1 hmovea] at hmode
    cases hmode
  have hrun := moveq_apply (s := s) hlt hmode' hsize'
  have hrun' := move_long_apply (by rw [hreg]; exact hlt) hmode hmove hsrc hsize hacc himm
  rw [hreg] at hrun'
  have hpc (v : CPUState BaseMemory) (n x : BitVec 32) (b c : Bool) :
      ((v.withReg regPC n).moved f.destReg x b c).reg regPC = n := by
    rw [CPUState.moved, reg_withResultFlags named_regPC,
      CPUState.reg_withReg_of_ne (named_of_lt hlt) named_regPC hne.symm,
      CPUState.reg_withReg_self named_regPC]
  refine ⟨_, _, hrun, hrun', rfl, rfl, hpc _ _ _ _ _, hpc _ _ _ _ _, ?_⟩
  constructor
  · intro h
    exact (signExtend_eq_setWidth_iff f.immData).1 (eq_of_agreesOff_moved hlt h)
  · intro h
    have hext := (signExtend_eq_setWidth_iff f.immData).2 h
    have hmsb : (f.immData.setWidth 32).msb = false := by
      rw [BitVec.msb_setWidth]
      simp
    have hzero : (f.immData.setWidth 32 == 0) = (f.immData == 0) := by
      rw [Bool.eq_iff_iff, beq_iff_eq, beq_iff_eq, ← BitVec.toNat_inj, ← BitVec.toNat_inj,
        BitVec.toNat_setWidth, Nat.mod_eq_of_lt (Nat.lt_trans f.immData.isLt (by decide))]
      rfl
    rw [hext, hmsb, hzero]
    have hstart :
        AgreesOff regPC (s.withReg regPC (s.reg regPC + 2)) (s'.withReg regPC (s'.reg regPC + 6)) :=
      (hagree.withReg_right Registers.bank_regPC).withReg_left Registers.bank_regPC
    exact hstart.moved (by decide) _ _ _ _

/-- The object of `moveq #$80, D0`. -/
theorem decode_moveq_negative : (decode 0x7080).derived =
    .moveq { destMode := .directData, destReg := 0, dataSize := some .long, immData := 0x80 } := by
  rw [decode_eq_opcodeEntry]
  rfl

/-- The object of `moveq #1, D0`. -/
theorem decode_moveq_one : (decode 0x7001).derived =
    .moveq { destMode := .directData, destReg := 0, dataSize := some .long, immData := 1 } := by
  rw [decode_eq_opcodeEntry]
  rfl

/-- The object of `moveq #7, D0`. -/
theorem decode_moveq_seven : (decode 0x7007).derived =
    .moveq { destMode := .directData, destReg := 0, dataSize := some .long, immData := 7 } := by
  rw [decode_eq_opcodeEntry]
  rfl

theorem step_moveq_seven {s : CPUState BaseMemory} (hfetch : fetchOpcode s = .ok 0x7007 s) :
    step s = .ok () ((s.withReg regPC (s.reg regPC + 2)).moved 0 7 false false) := by
  rw [step, stepWith, bind_of_ok hfetch, decode_moveq_seven]
  exact moveq_apply (by decide) rfl rfl

/-- The object of `move.l #.., D0`. -/
theorem decode_move_long : (decode 0x203C).derived =
    .move { destMode := .directData, destReg := 0, srcMode := .immediate, srcReg := 12,
            dataSize := some .long } := by
  rw [decode_eq_opcodeEntry]
  rfl

/-- `moveq #$80, D0` leaves `0x80` in `D0` and clears `N`; `move.l #$FFFFFF80, D0`
leaves a negative number. -/
theorem moveq_misses_sign :
    let s := CPUState.simple [0x20, 0x3C, 0xFF, 0xFF, 0xFF, 0x80] fun _ => 0
    ∃ t t', (decode 0x7080).derived.execute .cpuState s = .ok () t ∧
      (decode 0x203C).derived.execute .cpuState s = .ok () t' ∧
      t.reg 0 = 0x80 ∧ t'.reg 0 = 0xFFFFFF80 ∧ t.registers.getFlag .negative = false ∧
      t'.registers.getFlag .negative = true ∧ ¬AgreesOff regPC t t' := by
  rw [decode_moveq_negative, decode_move_long]
  refine ⟨_, _, rfl, rfl, rfl, rfl, rfl, rfl, fun h => ?_⟩
  have hdata := h 0 (by decide)
  revert hdata
  decide

/-- `moveq #1, D0` agrees with `move.l #1, D0`. -/
theorem moveq_one_agrees :
    ∃ t t', (decode 0x7001).derived.execute .cpuState
      (CPUState.simple [0x20, 0x3C, 0, 0, 0, 1] fun _ => 0) = .ok () t ∧
      (decode 0x203C).derived.execute .cpuState
        (CPUState.simple [0x20, 0x3C, 0, 0, 0, 1] fun _ => 0) =
        .ok () t' ∧ AgreesOff regPC t t' := by
  obtain ⟨t, t', ht, ht', -, -, -, -, hagrees⟩ :=
    moveq_agrees_iff 0x7001 0x203C _ _ decode_moveq_one decode_move_long rfl rfl rfl rfl
      (CPUState.simple [0x20, 0x3C, 0, 0, 0, 1] fun _ => 0)
      (CPUState.simple [0x20, 0x3C, 0, 0, 0, 1] fun _ => 0) (.refl _ _) (by decide) rfl
  exact ⟨t, t', ht, ht', hagrees.2 (by decide)⟩

end M68kEmu
