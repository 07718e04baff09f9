import M68kEmu.Listing.Separate
import M68kEmu.Semantics.Logic
import M68kEmu.Semantics.SignedArithmetic

/-!
# Operands of different sizes

`TST` and `NEG` do not show their size.  Forms that are listed alike and differ in it
have samples with different effects:  the flag `Z` is set where the smaller operand is
zero and the larger is not.
-/

namespace M68kEmu

open Outcome

/-! ### The flag `Z` -/

/-- The data of an operand in a register or in memory. -/
def Operand.value (o : Operand) (s : CPUState BaseMemory) : BitVec 32 :=
  match o.target s with
  | some a => s.memory.read a o.size
  | none => Registers.sized (s.reg o.reg) o.size

section Zero

variable {s : CPUState BaseMemory} {f : OneOperand} {size : DataSize}

/-- The flag `Z` after `TST`. -/
theorem tst_zero (hv : (Derived.tst f).Valid)
    (hmode : f.destMode ≠ .immediate ∧ f.destMode ≠ .unknown)
    (h : (f.dest .get).Usable s.pastExtWord) :
    ∃ u, Tst.execute .cpuState f s = .ok () u ∧ u.registers.getFlag .zero =
      decide (((f.dest .get).value s.pastExtWord).setWidth (f.dest .get).size.bits = 0) := by
  obtain ⟨size, hsize⟩ := Option.isSome_iff_exists.1 hv.2
  have hdata := h.getData hv.1.lt rfl
  have hvalue : (f.dest .get).value s.pastExtWord =
      s.pastExtWord.datum (f.dest .get).mode (f.dest .get).reg (f.dest .get).size := by
    obtain ⟨mode, reg, dataSize⟩ := f
    cases mode with
    | immediate => exact absurd rfl hmode.1
    | unknown => exact absurd rfl hmode.2
    | _ => rfl
  rw [hvalue]
  rw [OneOperand.dest_eq hsize] at hdata ⊢
  generalize s.pastExtWord.datum _ _ _ = data at hdata ⊢
  refine ⟨_, ?_,
    (resultFlags_of_tests size data (s.pastExtWord.advanced f.destMode f.destReg size)).zero⟩
  rw [Tst.execute, bind_of_ok (skipOpcode_apply s), hsize, readSize, pure_bind]
  exact (bind_of_ok hdata).trans (setLogicFlags_apply _ _ _)

theorem setWidth_zero_sub (v : BitVec 32) (size : DataSize) :
    (0 - v).setWidth size.bits = 0 ↔ v.setWidth size.bits = 0 := by
  have hlt := v.isLt
  rw [← BitVec.toNat_inj, ← BitVec.toNat_inj, BitVec.toNat_setWidth, BitVec.toNat_setWidth,
    BitVec.toNat_sub]
  cases size <;> simp [DataSize.bits, DataSize.bytes] <;> omega

/-- The flag `Z` after `NEG`. -/
theorem neg_zero (hv : f.Valid) (h : (f.dest .getSilent).Usable s.pastExtWord) :
    ∃ u, Neg.execute .cpuState f s = .ok () u ∧ u.registers.getFlag .zero =
      decide (((f.dest .getSilent).value s.pastExtWord).setWidth
        (f.dest .getSilent).size.bits = 0) := by
  obtain ⟨u, hu⟩ :=
    execute_returns (d := .neg f) hv (List.cons_ne_nil _ _) (fun h => h) nofun ⟨h, nofun⟩
  obtain ⟨size, src, dest, s₁, s₂, hrun, -, hflags⟩ :=
    readModifyWrite_eq_ok hv (operandFetch_pure (by decide)) hu
  obtain ⟨rfl, rfl⟩ := EStateM.Result.ok.inj hrun.source
  refine ⟨u, hu, (arithmeticFlags_of_eq_ok hflags).zero.trans ?_⟩
  have hvalue : (f.dest .getSilent).value s.pastExtWord =
      (s.pastExtWord.locate f.destMode f.destReg size).value s.pastExtWord size := by
    have hsize := hrun.sized
    have halterable := hv.alterable
    obtain ⟨mode, reg, dataSize⟩ := f
    obtain rfl : dataSize = some size := hsize
    cases mode with
    | immediate | unknown | pcDisplacement | pcIndex => cases halterable
    | _ => rfl
  have hread : (s.pastExtWord.locate f.destMode f.destReg size).value s.pastExtWord size = dest :=
    ((getDataSilent_eq_ok hv.dest.lt hv.alterable).1 hrun.read).2.2.1
  rw [hvalue, hread, OneOperand.dest_eq hrun.sized, decide_eq_decide]
  exact setWidth_zero_sub dest size

end Zero

/-! ### Operands in memory -/

section Memory

variable {bytes : ℕ → BitVec 8} {addr i : ℕ} {size : DataSize} {a b : Form} {o o' : Operand}
    {fill : ℕ → BitVec 8}

theorem readRealMem_eq_zero (h : ∀ i, addr ≤ i → i < addr + size.bytes → bytes i = 0) :
    readRealMem bytes addr size = 0 := by
  refine (readRealMem_congr h).trans
    (BitVec.eq_of_toNat_eq ?_ : readRealMem (fun _ => 0) addr size = 0)
  rw [toNat_readRealMem]
  cases size <;> rfl

theorem byte_eq_zero (h : readRealMem bytes addr size = 0) (hlow : addr ≤ i)
    (hhigh : i < addr + size.bytes) : bytes i = 0 := by
  have hzero : (readRealMem bytes addr size).toNat = 0 := by
    rw [h]
    rfl
  obtain ⟨k, rfl⟩ := Nat.exists_eq_add_of_le hlow
  refine BitVec.eq_of_toNat_eq ?_
  rw [toNat_readRealMem] at hzero
  have hk : k = 0 ∨ k = 1 ∨ k = 2 ∨ k = 3 := by
    have hbytes : size.bytes ≤ 4 := by cases size <;> decide
    omega
  cases size <;> simp only [DataSize.bytes] at hhigh hzero <;>
    obtain rfl | rfl | rfl | rfl := hk <;>
    simp only [Nat.add_zero, BitVec.ofNat_eq_ofNat, BitVec.toNat_ofNat, Nat.zero_mod] <;> omega

/-- An operand that `getData` finds in a register or in memory. -/
def InMemory (mode : AddressingMode) : Prop :=
  mode ≠ .directData ∧ mode ≠ .directAddr ∧ mode ≠ .immediate ∧ mode ≠ .unknown

theorem exists_target {u : CPUState BaseMemory} (h : InMemory o.mode) :
    ∃ addr, o.target u = some addr := by
  obtain ⟨use, mode, reg, size⟩ := o
  obtain ⟨h1, h2, h3, h4⟩ := h
  cases mode with
  | directData => exact absurd rfl h1
  | directAddr => exact absurd rfl h2
  | immediate => exact absurd rfl h3
  | unknown => exact absurd rfl h4
  | _ => cases use <;> exact ⟨_, rfl⟩

/-- The operand of a sample, where `D1` is the index register. -/
theorem target_sample (h : a.Sampled) (ho : a.object.operandList = [o]) :
    o.reg < 16 ∧ ∃ p ps, p ≠ (true, some .long) ∧ ∀ fill,
    InReach [o] (p :: ps) 0 (sampleBase + 2) o.size
      (a.sample [false] reachRegs fill).pastExtWord := by
  obtain ⟨size, hsound⟩ := Derived.exists_sound a.valid a.regular
  have hhead := hsound o (ho ▸ List.mem_cons_self)
  have hfits := h.fits
  rw [ho] at hfits
  obtain ⟨z, hz⟩ : ∃ z, a.indexSizes = [z] := List.length_eq_one_iff.1 hfits.length_eq.symm
  refine ⟨hhead.lt, (false, z), [], nofun, fun fill => ?_⟩
  have hreach := inReach_sample a [false] fill o.size
  rwa [ho, hz] at hreach

/-- The data of the operand is that of the filling. -/
theorem value_sample (h : a.Sampled) (ho : a.object.operandList = [o]) (hmode : InMemory o.mode) :
    ∃ addr, ∀ fill, o.Usable (a.sample [false] reachRegs fill).pastExtWord ∧
      o.value (a.sample [false] reachRegs fill).pastExtWord = readRealMem fill addr o.size := by
  obtain ⟨hreg, p, ps, hp, hreach⟩ := target_sample h ho
  obtain ⟨size, hsound⟩ := Derived.exists_sound a.valid a.regular
  have hhead : o.Sound o.size := ⟨hreg, (hsound o (ho ▸ List.mem_cons_self)).base, rfl⟩
  obtain ⟨addr, haddr⟩ :=
    exists_target (o := o) (u := (a.sample [false] reachRegs fun _ => 0).pastExtWord) hmode
  refine ⟨addr.toNat, fun fill => ⟨(hreach fill).usable hhead (by decide) hp, ?_⟩⟩
  have hregs (r : ℕ) (hr : r < 16) : (a.sample [false] reachRegs fun _ => 0).pastExtWord.reg r =
      (a.sample [false] reachRegs fill).pastExtWord.reg r := by
    rw [Form.sample, Form.sample, reg_sample_reach hr, reg_sample_reach hr]
  have htarget := ((hreach _).target_eq (hreach fill) hreg (by decide) hregs).symm.trans haddr
  have hsafe := (hreach fill).target_safe hhead (by decide) hp addr htarget
  rw [Operand.value, htarget]
  exact read_sampleMemory hsafe (length_words_le _ _ _)

/-- A memory in which the smaller operand is zero and the larger one is not. -/
theorem exists_fill (h : a.Sampled) (h' : b.Sampled) (ho : a.object.operandList = [o])
    (ho' : b.object.operandList = [o']) (hmode : InMemory o.mode) (hmode' : InMemory o'.mode)
    (hsize : o.size.bytes < o'.size.bytes) : ∃ fill : ℕ → BitVec 8,
      o.Usable (a.sample [false] reachRegs fill).pastExtWord ∧
      o'.Usable (b.sample [false] reachRegs fill).pastExtWord ∧
      (o.value (a.sample [false] reachRegs fill).pastExtWord).setWidth o.size.bits = 0 ∧
      (o'.value (b.sample [false] reachRegs fill).pastExtWord).setWidth o'.size.bits ≠ 0 := by
  obtain ⟨addr, hsmall⟩ := value_sample h ho hmode
  obtain ⟨addr', hlarge⟩ := value_sample h' ho' hmode'
  let fill (i : ℕ) : BitVec 8 := if addr ≤ i ∧ i < addr + o.size.bytes then 0 else 1
  refine ⟨fill, (hsmall fill).1, (hlarge fill).1, ?_, fun hzero => ?_⟩
  · rw [(hsmall fill).2, readRealMem_eq_zero fun i hlow hhigh => if_pos ⟨hlow, hhigh⟩]
    exact BitVec.setWidth_zero _ _
  · rw [(hlarge fill).2] at hzero
    have hread : readRealMem fill addr' o'.size = 0 := by
      refine BitVec.eq_of_toNat_eq ?_
      rw [← toNat_setWidth_of_lt readRealMem_lt, hzero]
      rfl
    -- one end of the larger operand is not in the smaller one
    have hone {i : ℕ} (hlow : addr' ≤ i) (hhigh : i < addr' + o'.size.bytes) :
        addr ≤ i ∧ i < addr + o.size.bytes := by
      by_contra hout
      have hbyte := byte_eq_zero hread hlow hhigh
      rw [show fill i = 1 from if_neg hout] at hbyte
      cases hbyte
    have hfirst := hone (i := addr') (by omega) (by omega)
    have hlast := hone (i := addr' + o'.size.bytes - 1) (by omega) (by omega)
    omega

end Memory

/-! ### `TST` and `NEG` -/

section Classes

variable {a b : Form} {o o' : Operand} {size size' : DataSize}

/-- A register whose low part is zero. -/
theorem sized_two_pow (h : size.bytes < size'.bytes) :
    (Registers.sized (BitVec.ofNat 32 (2 ^ size.bits)) size).setWidth size.bits = 0 ∧
      (Registers.sized (BitVec.ofNat 32 (2 ^ size.bits)) size').setWidth size'.bits ≠ 0 := by
  cases size <;> cases size' <;> first | (exact absurd h (by decide)) | decide

/-- An operand in a register. -/
theorem direct_sample {firsts : List Bool} {v : BitVec 32}
    (hdirect : o.mode = .directData ∨ o.mode = .directAddr)
    (hreg : o.reg < 16) : o.Usable (a.sample firsts (constantRegs v 0) fun _ => 0).pastExtWord ∧
      o.value (a.sample firsts (constantRegs v 0) fun _ => 0).pastExtWord =
      Registers.sized v o.size := by
  have hv : (a.sample firsts (constantRegs v 0) fun _ => 0).pastExtWord.reg o.reg = v :=
    reg_sample_constant rfl hreg
  have htarget : o.target (a.sample firsts (constantRegs v 0) fun _ => 0).pastExtWord = none := by
    obtain ⟨use, mode, reg, size⟩ := o
    obtain rfl | rfl := hdirect <;> cases use <;> rfl
  refine ⟨⟨?_, fun addr haddr => ?_⟩, ?_⟩
  · obtain ⟨use, mode, reg, size⟩ := o
    obtain rfl | rfl := hdirect <;> exact fun e he => by cases he
  · rw [htarget] at haddr
    cases haddr
  · rw [Operand.value, htarget, hv]

theorem reg_lt_of_operand (ho : a.object.operandList = [o]) : o.reg < 16 :=
  Derived.reg_lt_of_mem_operandList a.valid o (ho ▸ List.mem_cons_self)

/-- The step of a sample sets the flag `Z` from the operand. -/
def SetsZero (a : Form) (o : Operand) : Prop :=
  ∀ regs fill, regs regPC = 0xC000 → o.Usable (a.sample [false] regs fill).pastExtWord →
    ∃ u, step (a.sample [false] regs fill) = .ok () u ∧
      u.registers.getFlag .zero =
      decide ((o.value (a.sample [false] regs fill).pastExtWord).setWidth o.size.bits = 0)

/-- A value that is zero at one size only. -/
theorem unlike_of_value {regs : ℕ → BitVec 32} {fill : ℕ → BitVec 8} (hpc : regs regPC = 0xC000)
    (hzero : SetsZero a o)
    (hzero' : SetsZero b o') (husable : o.Usable (a.sample [false] regs fill).pastExtWord)
    (husable' : o'.Usable (b.sample [false] regs fill).pastExtWord)
    (h : ¬((o.value (a.sample [false] regs fill).pastExtWord).setWidth o.size.bits = 0 ↔
      (o'.value (b.sample [false] regs fill).pastExtWord).setWidth o'.size.bits = 0)) :
    ¬StepsAlike (a.sample [false] regs fill) (b.sample [false] regs fill) := by
  obtain ⟨u, hu, hflag⟩ := hzero regs fill hpc husable
  obtain ⟨v, hv, hflag'⟩ := hzero' regs fill hpc husable'
  refine not_stepsAlike_of_flag .zero hu hv fun hsame => h ?_
  rwa [hflag, hflag', decide_eq_decide] at hsame

/-- Forms with a flag `Z` of operands of two sizes. -/
theorem Form.Alike.separable_of_setsZero (h : Form.Alike a b) (ho : a.object.operandList = [o])
    (ho' : b.object.operandList = [o']) (hmode : o.mode ≠ .immediate ∧ o.mode ≠ .unknown)
    (hsize : o.size ≠ o'.size) (hzero : SetsZero a o) (hzero' : SetsZero b o') : a.Separable b := by
  have hlength : [false].length = a.object.operandList.length := by
    rw [ho]
    rfl
  have hshape := h.shape.operands
  rw [ho, ho'] at hshape
  have hsame : o.mode = o'.mode := (Operand.mk.inj (List.cons.inj hshape).1).2.1
  have hbytes : o.size.bytes < o'.size.bytes ∨ o'.size.bytes < o.size.bytes := by
    revert hsize
    cases o.size <;> cases o'.size <;> decide
  by_cases hdirect : o.mode = .directData ∨ o.mode = .directAddr
  · have hall : ∀ q ∈ a.object.operandList, q.mode = .directData ∨ q.mode = .directAddr := by
      rw [ho]
      intro q hq
      rwa [List.mem_singleton.1 hq]
    have hreg : o.reg < 16 := reg_lt_of_operand ho
    have hreg' : o'.reg < 16 := reg_lt_of_operand ho'
    obtain hlt | hlt := hbytes
    · obtain ⟨hlow, hhigh⟩ := sized_two_pow hlt
      obtain ⟨husable, hvalue⟩ :=
        direct_sample (a := a) (v := BitVec.ofNat 32 (2 ^ o.size.bits)) hdirect hreg
      obtain ⟨husable', hvalue'⟩ :=
        direct_sample (a := b) (v := BitVec.ofNat 32 (2 ^ o.size.bits)) (hsame ▸ hdirect) hreg'
      rw [← hvalue] at hlow
      rw [← hvalue'] at hhigh
      exact h.separable_of_direct _ hlength hall
        (unlike_of_value rfl hzero hzero' husable husable' fun h => hhigh (h.1 hlow))
    · obtain ⟨hlow, hhigh⟩ := sized_two_pow hlt
      obtain ⟨husable, hvalue⟩ :=
        direct_sample (a := a) (v := BitVec.ofNat 32 (2 ^ o'.size.bits)) hdirect hreg
      obtain ⟨husable', hvalue'⟩ :=
        direct_sample (a := b) (v := BitVec.ofNat 32 (2 ^ o'.size.bits)) (hsame ▸ hdirect) hreg'
      rw [← hvalue'] at hlow
      rw [← hvalue] at hhigh
      exact h.separable_of_direct _ hlength hall
        (unlike_of_value rfl hzero hzero' husable husable' fun h => hhigh (h.2 hlow))
  · have hmemory : InMemory o.mode :=
      ⟨fun h => hdirect (.inl h), fun h => hdirect (.inr h), hmode.1, hmode.2⟩
    have hmemory' : InMemory o'.mode := hsame ▸ hmemory
    obtain hlt | hlt := hbytes
    · obtain ⟨fill, husable, husable', hvalue, hvalue'⟩ :=
        exists_fill h.left h.right ho ho' hmemory hmemory' hlt
      exact h.separable _ hlength (unlike_of_value rfl hzero hzero' husable husable' fun h =>
        hvalue' (h.1 hvalue))
    · obtain ⟨fill, husable', husable, hvalue', hvalue⟩ :=
        exists_fill h.right h.left ho' ho hmemory' hmemory hlt
      exact h.separable _ hlength (unlike_of_value rfl hzero hzero' husable husable' fun h =>
        hvalue (h.2 hvalue'))

/-- Forms of `TST` with two sizes. -/
theorem Form.Alike.separable_of_tst (h : Form.Alike a b) {f g : OneOperand} (hf : a.object = .tst f)
    (hg : b.object = .tst g) (hmode : f.destMode ≠ .immediate ∧ f.destMode ≠ .unknown)
    (hsize : f.dataSize ≠ g.dataSize) : a.Separable b := by
  have hvalid := a.valid
  have hvalid' := b.valid
  have hshape := h.shape.operands
  rw [hf] at hvalid hshape
  rw [hg] at hvalid' hshape
  have hsame : f.destMode = g.destMode := (Operand.mk.inj (List.cons.inj hshape).1).2.1
  have ho : a.object.operandList = [f.dest .get] := by rw [hf, Derived.operandList]
  have ho' : b.object.operandList = [g.dest .get] := by rw [hg, Derived.operandList]
  refine h.separable_of_setsZero ho ho' hmode ?_
    (fun regs fill hpc husable => ?_) fun regs fill hpc husable => ?_
  · obtain ⟨size, hf⟩ := Option.isSome_iff_exists.1 hvalid.2
    obtain ⟨size', hg⟩ := Option.isSome_iff_exists.1 hvalid'.2
    rw [OneOperand.dest_eq hf, OneOperand.dest_eq hg]
    rintro rfl
    exact hsize (hf.trans hg.symm)
  · rw [Form.step_sample hpc hf]
    exact tst_zero hvalid hmode husable
  · rw [Form.step_sample hpc hg]
    exact tst_zero hvalid' (hsame ▸ hmode) husable

/-- Forms of `NEG` with two sizes. -/
theorem Form.Alike.separable_of_neg (h : Form.Alike a b) {f g : OneOperand} (hf : a.object = .neg f)
    (hg : b.object = .neg g) (hsize : f.dataSize ≠ g.dataSize) : a.Separable b := by
  have hvalid : f.Valid := by
    have hvalid := a.valid
    rwa [hf] at hvalid
  have hvalid' : g.Valid := by
    have hvalid := b.valid
    rwa [hg] at hvalid
  have hmode : f.destMode ≠ .immediate ∧ f.destMode ≠ .unknown := by
    have halterable := hvalid.alterable
    constructor <;> intro hmode <;> rw [hmode] at halterable <;> cases halterable
  have ho : a.object.operandList = [f.dest .getSilent] := by rw [hf, Derived.operandList]
  have ho' : b.object.operandList = [g.dest .getSilent] := by rw [hg, Derived.operandList]
  refine h.separable_of_setsZero ho ho' hmode ?_
    (fun regs fill hpc husable => ?_) fun regs fill hpc husable => ?_
  · obtain ⟨size, hf⟩ := Option.isSome_iff_exists.1 hvalid.sized
    obtain ⟨size', hg⟩ := Option.isSome_iff_exists.1 hvalid'.sized
    rw [OneOperand.dest_eq hf, OneOperand.dest_eq hg]
    rintro rfl
    exact hsize (hf.trans hg.symm)
  · rw [Form.step_sample hpc hf]
    exact neg_zero hvalid husable
  · rw [Form.step_sample hpc hg]
    exact neg_zero hvalid' husable

end Classes

end M68kEmu
