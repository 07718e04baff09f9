import M68kEmu.Listing.Separate
import M68kEmu.Semantics.StackHelpers

/-!
# Index registers of different sizes

The size of an index register is not shown.  Forms that are listed alike and differ in one have
samples with different effects: the operand is in memory at one size and out of reach at the other,
or `LEA` and `PEA` take another address.
-/

namespace M68kEmu

open Outcome

/-! ### Plans for two lists of sizes -/

section Index

variable {o : Operand} {os os' : List Operand} {zs ys : List (Option DataSize)}
    {firsts : List Bool} {ps : Plan}

theorem hits_congr (h : os.map Operand.shape = os'.map Operand.shape) :
    Hits os ps ↔ Hits os' ps := by
  induction os generalizing os' ps with
  | nil =>
    obtain rfl := List.map_eq_nil_iff.1 h.symm
    rfl
  | cons o os ih =>
    obtain _ | ⟨o', os'⟩ := os'
    · cases h
    · obtain ⟨hhead, htail⟩ := List.cons.inj h
      obtain _ | ⟨p, ps⟩ := ps
      · rfl
      · have huse : o.use = o'.use := (Operand.mk.inj hhead).1
        have hmode : o.mode = o'.mode := (Operand.mk.inj hhead).2.1
        rw [Hits, Hits, huse, hmode, ih htail]

theorem fits_congr (h : os.map Operand.shape = os'.map Operand.shape)
    (hfits : List.Forall₂ Operand.Fits os' zs) : List.Forall₂ Operand.Fits os zs := by
  induction hfits generalizing os with
  | nil =>
    obtain rfl := List.map_eq_nil_iff.1 h
    exact .nil
  | @cons o' z os' zs hfit _ ih =>
    obtain _ | ⟨o, os⟩ := os
    · cases h
    · obtain ⟨hhead, htail⟩ := List.cons.inj h
      have hmode : o.mode = o'.mode := (Operand.mk.inj hhead).2.1
      refine .cons ?_ (ih htail)
      rwa [Operand.Fits, hmode]

theorem clear_replicate (n : ℕ) (zs : List (Option DataSize)) :
    Plan.Clear ((List.replicate n false).zip zs) := by
  intro p hp h
  have hfirst := (List.mem_replicate.1 (List.of_mem_zip (h ▸ hp)).1).2
  cases hfirst

theorem Plan.Clear.cons {p : Bool × Option DataSize} (hp : p ≠ (true, some .long)) (h : ps.Clear) :
    Plan.Clear (p :: ps) := by
  intro q hq
  obtain rfl | hq := List.mem_cons.1 hq
  · exact hp
  · exact h q hq

/-- The sizes of one index register. -/
theorem index_of_ne {z y : Option DataSize} (hz : o.Fits z) (hy : o.Fits y) (h : z ≠ y) :
    (o.mode = .indirectIndex ∨ o.mode = .pcIndex) ∧
    (z = some .word ∧ y = some .long ∨ z = some .long ∧ y = some .word) := by
  obtain ⟨use, mode, reg, size⟩ := o
  cases mode with
  | indirectIndex | pcIndex =>
    refine ⟨by simp, ?_⟩
    obtain rfl | rfl := hz <;> obtain rfl | rfl := hy
    · exact absurd rfl h
    · exact .inl ⟨rfl, rfl⟩
    · exact .inr ⟨rfl, rfl⟩
    · exact absurd rfl h
  | _ => exact absurd (Eq.trans hz (Eq.symm hy)) h

theorem exists_index (hz : List.Forall₂ Operand.Fits os zs) (hy : List.Forall₂ Operand.Fits os ys)
    (h : zs ≠ ys) : ∃ o ∈ os, o.mode = .indirectIndex ∨ o.mode = .pcIndex := by
  induction hz generalizing ys with
  | nil =>
    cases hy
    exact absurd rfl h
  | @cons o z os zs hzfit hz ih =>
    obtain _ | ⟨hyfit, hy⟩ := hy
    rename_i y ys
    by_cases hhead : z = y
    · obtain ⟨q, hq, hindex⟩ := ih hy fun htail => h (by rw [hhead, htail])
      exact ⟨q, List.mem_cons_of_mem o hq, hindex⟩
    · exact ⟨o, List.mem_cons_self, (index_of_ne hzfit hyfit hhead).1⟩

/-- If the first index register with two sizes is `D0`, the operands are out of reach
at one of them only. -/
theorem exists_firsts (hchain : Chain os)
    (haddress : ∀ o ∈ os, o.use = .address → isMemoryAlterable o.mode)
    (hz : List.Forall₂ Operand.Fits os zs) (hy : List.Forall₂ Operand.Fits os ys) (h : zs ≠ ys) :
    ∃ firsts : List Bool, firsts.length = os.length ∧
      (Plan.Clear (firsts.zip zs) ∧ Hits os (firsts.zip ys) ∨
        Plan.Clear (firsts.zip ys) ∧ Hits os (firsts.zip zs)) := by
  induction hz generalizing ys with
  | nil =>
    cases hy
    exact absurd rfl h
  | @cons o z os zs hzfit hz ih =>
    obtain _ | ⟨hyfit, hy⟩ := hy
    rename_i y ys
    by_cases hhead : z = y
    · subst hhead
      have htail : zs ≠ ys := fun htail => h (by rw [htail])
      have huse : o.use = .get := hchain.1 (by rintro rfl; cases hz; cases hy; exact htail rfl)
      obtain ⟨firsts, hlength, hcases⟩ :=
        ih hchain.2 (fun q hq => haddress q (List.mem_cons_of_mem o hq)) hy htail
      have hcold : ((false, z) : Bool × Option DataSize) ≠ (true, some .long) := nofun
      refine ⟨false :: firsts, by rw [List.length_cons, hlength, List.length_cons], ?_⟩
      obtain ⟨hclear, hhits⟩ | ⟨hclear, hhits⟩ := hcases
      · exact .inl ⟨hclear.cons hcold, (if_neg hcold).mpr ⟨huse, hhits⟩⟩
      · exact .inr ⟨hclear.cons hcold, (if_neg hcold).mpr ⟨huse, hhits⟩⟩
    · obtain ⟨hindex, hsizes⟩ := index_of_ne hzfit hyfit hhead
      have hword : ((true, some .word) : Bool × Option DataSize) ≠ (true, some .long) := by decide
      have hmode (huse : o.use = .address) : o.mode = .indirectIndex := by
        refine hindex.resolve_right fun hmode => ?_
        have halterable := haddress o List.mem_cons_self huse
        rw [hmode] at halterable
        cases halterable
      refine ⟨true :: List.replicate os.length false, ?_, ?_⟩
      · rw [List.length_cons, List.length_replicate, List.length_cons]
      obtain ⟨rfl, rfl⟩ | ⟨rfl, rfl⟩ := hsizes
      · exact .inl ⟨(clear_replicate _ _).cons hword, (if_pos rfl).mpr hmode⟩
      · exact .inr ⟨(clear_replicate _ _).cons hword, (if_pos rfl).mpr hmode⟩

end Index

/-! ### One of the steps throws -/

section Throws

variable {a b : Form} {firsts : List Bool} {fill : ℕ → BitVec 8}

theorem allUsable_sample (fill : ℕ → BitVec 8) (h : a.Sampled)
    (hlength : firsts.length = a.object.operandList.length)
    (hclear : Plan.Clear (firsts.zip a.indexSizes)) :
    AllUsable a.object.operandList (a.sample firsts reachRegs fill).pastExtWord := by
  obtain ⟨size, hsound⟩ := Derived.exists_sound a.valid a.regular
  have hle := a.object.length_operandList_le
  exact (inReach_sample a firsts fill size).allUsable hsound hclear (h.length hlength) (by omega)

/-- The divisor is not zero. -/
theorem div_sample {f : SignedOperand} (hf : a.object = .div f)
    (hindex : f.srcMode = .indirectIndex ∨ f.srcMode = .pcIndex)
    (h : a.Sampled) (hlength : firsts.length = a.object.operandList.length)
    (hclear : Plan.Clear (firsts.zip a.indexSizes)) :
    ∃ u, Div.execute .cpuState f (a.sample firsts reachRegs fun _ => 1) = .ok () u := by
  have hvalid := a.valid
  have husable := allUsable_sample (fun _ => 1) h hlength hclear
  obtain ⟨size, hsound⟩ := Derived.exists_sound a.valid a.regular
  have hreach := inReach_sample a firsts (fun _ => 1) size
  have hzip := h.length hlength
  have hsize : f.src.size = .word := by
    have hregular := a.regular
    rw [hf] at hregular
    rw [TwoOperand.src, hregular.2]
    rfl
  rw [hf] at hvalid husable hsound hreach hzip
  obtain ⟨p, ps, hps⟩ : ∃ p ps, firsts.zip a.indexSizes = p :: ps :=
    List.exists_cons_of_length_pos (hzip ▸ Nat.two_pos)
  rw [hps] at hreach hclear
  refine div_returns hvalid husable.1 ?_
  have hsafe :=
    hreach.target_safe (hsound _ List.mem_cons_self) (by decide) (hclear p List.mem_cons_self)
  obtain ⟨addr, haddr, hdatum⟩ := datum_index
    (a.sample firsts reachRegs fun _ => 1).pastExtWord f.src.reg f.src.size hindex
  have hread : (a.sample firsts reachRegs fun _ => 1).memory.read addr f.src.size = 0x0101 := by
    have hsafe := hsafe addr haddr
    rw [← (hsound _ List.mem_cons_self).size] at hsafe
    refine (read_sampleMemory hsafe (length_words_le _ _ _)).trans ?_
    have hvalue : (readRealMem (fun _ => (1 : BitVec 8)) addr.toNat .word).toNat = 0x0101 := by
      rw [toNat_readRealMem]
      rfl
    rw [hsize]
    exact BitVec.eq_of_toNat_eq hvalue
  have hsame : f.src.mode = f.srcMode := rfl
  rw [hsame, hdatum]
  rw [CPUState.pastExtWord, CPUState.memory_withReg, hread]
  decide

/-- A sample whose operands are in reach returns. -/
theorem step_returns (h : a.Sampled) (hlength : firsts.length = a.object.operandList.length)
    (haddress : ¬a.object.TakesAddress)
    (hdiv : ∀ f, a.object = .div f → f.srcMode = .indirectIndex ∨ f.srcMode = .pcIndex)
    (hclear : Plan.Clear (firsts.zip a.indexSizes)) :
    ∃ u, step (a.sample firsts reachRegs fun _ => 1) = .ok () u := by
  rw [Form.step_sample rfl rfl]
  by_cases hf : ∃ f, a.object = .div f
  · obtain ⟨f, hf⟩ := hf
    obtain ⟨u, hu⟩ := div_sample hf (hdiv f hf) h hlength hclear
    exact ⟨u, by rw [hf]; exact hu⟩
  · exact execute_returns a.valid h.operands haddress (fun f hobject => hf ⟨f, hobject⟩)
      (allUsable_sample _ h hlength hclear)

/-- A sample with an operand out of reach throws. -/
theorem step_throws (h : a.Sampled) (hlength : firsts.length = a.object.operandList.length)
    (haddress : ¬a.object.TakesAddress)
    (hhits : Hits a.object.operandList (firsts.zip a.indexSizes)) :
    ∃ e u, step (a.sample firsts reachRegs fill) = .error e u := by
  obtain ⟨size, hsound⟩ := Derived.exists_sound a.valid a.regular
  have hle := a.object.length_operandList_le
  rw [Form.step_sample rfl rfl]
  exact execute_throws a.valid h.operands haddress
    ((inReach_sample a firsts fill size).blocked hsound (h.fits_zip hlength) hhits (by omega))

/-- The classes with a name that is not one of a class that takes an address. -/
theorem takesAddress_of_name {d e : Derived} (h : d.name = e.name) :
    d.TakesAddress ↔ e.TakesAddress := by
  have hname (d : Derived) : d.TakesAddress ↔
      d.name = .lea ∨ d.name = .pea ∨ d.name = .jmp ∨ d.name = .jsr := by
    cases d <;> simp [Derived.TakesAddress, Derived.name]
  rw [hname, hname, h]

/-- A division with two sizes of an index register takes its divisor from memory. -/
theorem div_index {c : Form} {zs ys : List (Option DataSize)}
    (hz : List.Forall₂ Operand.Fits c.object.operandList zs)
    (hy : List.Forall₂ Operand.Fits c.object.operandList ys) (h : zs ≠ ys) (f : SignedOperand)
    (hf : c.object = .div f) : f.srcMode = .indirectIndex ∨ f.srcMode = .pcIndex := by
  have hvalid := c.valid
  rw [hf] at hvalid hz hy
  obtain ⟨o, ho, hindex⟩ := exists_index hz hy h
  obtain rfl | rfl := List.mem_pair.1 ho
  · exact hindex
  · have hdirect : (f.dest .getSilent).mode = .directData := hvalid.2
    rw [hdirect] at hindex
    obtain h | h := hindex <;> cases h

/-- Forms with different sizes of the index registers, of objects that access their operands. -/
theorem Form.Alike.separable_of_index (h : Form.Alike a b) (haddress : ¬a.object.TakesAddress)
    (hindex : a.indexSizes ≠ b.indexSizes) : a.Separable b := by
  have haddress' : ¬b.object.TakesAddress := by rwa [← takesAddress_of_name h.shape.name]
  have hfits := fits_congr h.shape.operands h.right.fits
  obtain ⟨firsts, hlength, hcases⟩ := exists_firsts (Derived.chain_operandList haddress)
    (Derived.alterable_of_address a.valid haddress) h.left.fits hfits hindex
  have hlength' : firsts.length = b.object.operandList.length := hlength.trans h.shape.length_eq
  refine h.separable (fun _ => 1) hlength ?_
  obtain ⟨hclear, hhits⟩ | ⟨hclear, hhits⟩ := hcases
  · obtain ⟨u, hu⟩ :=
      step_returns h.left hlength haddress (div_index h.left.fits hfits hindex) hclear
    obtain ⟨e, v, hv⟩ :=
      step_throws h.right hlength' haddress' ((hits_congr h.shape.operands).1 hhits)
    exact (not_stepsAlike_of_throws hu hv).1
  · obtain ⟨u, hu⟩ :=
      step_returns h.right hlength' haddress'
        (div_index (fits_congr h.shape.operands.symm h.left.fits) h.right.fits hindex) hclear
    obtain ⟨e, v, hv⟩ := step_throws h.left hlength haddress hhits
    exact (not_stepsAlike_of_throws hu hv).2

end Throws

/-! ### The addresses differ -/

section Addresses

variable {a b : Form} {firsts : List Bool} {fill : ℕ → BitVec 8} {o o' : Operand}
    {os os' : List Operand} {p : Bool × Option DataSize} {ps : Plan} {n addr : ℕ} {size : DataSize}
    {u : CPUState BaseMemory} {z y : Option DataSize} {zs ys : List (Option DataSize)}

/-- The address in an index mode before the index register is added. -/
def indexBase (mode : AddressingMode) (reg : ℕ) (u : CPUState BaseMemory) : BitVec 32 :=
  if mode = .pcIndex then u.reg regPC + 0x40 else u.reg reg + 0x40

theorem InReach.getControlAddress (h : InReach (o :: os) (p :: ps) n addr size u)
    (ho : o.Sound size) (hn : n ≤ 1)
    (hindex : o.mode = .indirectIndex ∨ o.mode = .pcIndex) (size' : DataSize) :
    CPUState.getControlAddress o.mode o.reg size' u =
      .ok (indexBase o.mode o.reg u + u.extOffset ((indexWord p).setWidth 32))
        (u.withReg regPC (u.reg regPC + 2)) := by
  have hread : u.memory.read (u.reg regPC) .word = (indexWord p).setWidth 32 := by
    obtain ⟨use, mode, reg, size⟩ := o
    obtain rfl | rfl := hindex <;> exact h.extWord hn rfl
  have hfetch : u.memory.Accessible (u.reg regPC) .word := by
    have hpart := h.fetchable hn
    obtain ⟨use, mode, reg, size⟩ := o
    obtain rfl | rfl := hindex <;> exact hpart .word rfl
  have hdisp := castInt8_indexWord p
  obtain ⟨use, mode, reg, size⟩ := o
  obtain rfl | rfl := hindex
  · rw [CPUState.getControlAddress, bind_of_ok (getReg_long (named_of_lt ho.lt)),
      fetchExt_apply hfetch, bind_of_ok (getExtRegOffset_apply _ _),
      bind_of_ok (setReg_long named_regPC), hread, hdisp]
    refine congrArg (EStateM.Result.ok · _) ?_
    rw [indexBase, if_neg fun h => by cases h]
    ac_rfl
  · rw [CPUState.getControlAddress, fetchExt_apply hfetch, bind_of_ok (getExtRegOffset_apply _ _),
      bind_of_ok (setReg_long named_regPC), hread, hdisp]
    refine congrArg (EStateM.Result.ok · _) ?_
    rw [indexBase, if_pos rfl]
    ac_rfl

theorem indexBase_sample (h : o.shape = o'.shape) (hreg : o.reg < 16)
    (hindex : o.mode = .indirectIndex ∨ o.mode = .pcIndex) :
    indexBase o.mode o.reg (a.sample firsts reachRegs fill).pastExtWord =
      indexBase o'.mode o'.reg (b.sample firsts reachRegs fill).pastExtWord := by
  obtain ⟨-, hmode, hnormal, -⟩ := Operand.mk.inj h
  have hmode' : o.mode = o'.mode := hmode
  rw [← hmode']
  obtain hm | hm := hindex <;> rw [hm]
  · have hr : o.reg = o'.reg := by
      have hr : normalReg o.mode o.reg = normalReg o'.mode o'.reg := hnormal
      rwa [← hmode', hm] at hr
    rw [← hr, indexBase, indexBase, if_neg (by decide), if_neg (by decide),
      Form.sample, Form.sample, reg_sample_reach hreg, reg_sample_reach hreg]
  · rw [indexBase, indexBase, if_pos rfl, if_pos rfl, reg_pastExtWord, reg_pastExtWord,
      Form.sample, Form.sample, reg_sample rfl, reg_sample rfl]

/-- `D0` is added whole or not at all. -/
theorem extOffset_sample (hz : z = some .word ∨ z = some .long) :
    (a.sample firsts reachRegs fill).pastExtWord.extOffset ((indexWord (true, z)).setWidth 32) =
      if z = some .long then 0x800000 else 0 := by
  have hreg : (a.sample firsts reachRegs fill).pastExtWord.reg 0 = 0x800000 :=
    reg_sample_reach (by decide)
  rw [extOffset_indexWord]
  simp only [if_true, hreg]
  obtain rfl | rfl := hz <;> rfl

/-- Operands whose first has two sizes of its index register. -/
theorem exists_head (hz : List.Forall₂ Operand.Fits (o :: os) zs)
    (hy : List.Forall₂ Operand.Fits (o :: os) ys)
    (hos : ∀ q ∈ os, q.mode = .directAddr) (h : zs ≠ ys) :
    ∃ z zs' y ys', zs = z :: zs' ∧ ys = y :: ys' ∧ o.Fits z ∧ o.Fits y ∧ z ≠ y := by
  obtain _ | ⟨hzfit, hz⟩ := hz
  obtain _ | ⟨hyfit, hy⟩ := hy
  refine ⟨_, _, _, _, rfl, rfl, hzfit, hyfit, fun hhead => ?_⟩
  obtain ⟨q, hq, hindex⟩ := exists_index hz hy fun htail => h (by rw [hhead, htail])
  rw [hos q hq] at hindex
  obtain h | h := hindex <;> cases h

/-- The first operand has two addresses. -/
theorem Form.Alike.controlAddresses (h : Form.Alike a b) (firsts : List Bool)
    (fill : ℕ → BitVec 8) (ho : a.object.operandList = o :: os)
    (ho' : b.object.operandList = o' :: os') (hos : ∀ q ∈ os, q.mode = .directAddr)
    (hne : a.indexSizes ≠ b.indexSizes) (size' size'' : DataSize) :
    ∃ v w r x, v ≠ w ∧
      CPUState.getControlAddress o.mode o.reg size'
        (a.sample (true :: firsts) reachRegs fill).pastExtWord =
        .ok v ((a.sample (true :: firsts) reachRegs fill).pastExtWord.withReg regPC r) ∧
      CPUState.getControlAddress o'.mode o'.reg size''
        (b.sample (true :: firsts) reachRegs fill).pastExtWord =
        .ok w ((b.sample (true :: firsts) reachRegs fill).pastExtWord.withReg regPC x) := by
  obtain ⟨size, hsound⟩ := Derived.exists_sound a.valid a.regular
  obtain ⟨size₁, hsound'⟩ := Derived.exists_sound b.valid b.regular
  have hreach := inReach_sample a (true :: firsts) fill size
  have hreach' := inReach_sample b (true :: firsts) fill size₁
  have hhead := hsound o (ho ▸ List.mem_cons_self)
  have hhead' := hsound' o' (ho' ▸ List.mem_cons_self)
  have hfits := h.left.fits
  have hfits' := fits_congr h.shape.operands h.right.fits
  have hshape := h.shape.operands
  rw [ho] at hfits hfits' hshape hreach
  rw [ho'] at hshape hreach'
  replace hshape := (List.cons.inj hshape).1
  obtain ⟨z, zs, y, ys, hz, hy, hfit, hfit', hdiffer⟩ := exists_head hfits hfits' hos hne
  rw [hz] at hreach
  rw [hy] at hreach'
  obtain ⟨hindex, hsizes⟩ := index_of_ne hfit hfit' hdiffer
  have hmode : o.mode = o'.mode := (Operand.mk.inj hshape).2.1
  refine ⟨_, _, _, _, ?_, hreach.getControlAddress hhead (by decide) hindex size',
    hreach'.getControlAddress hhead' (by decide) (hmode ▸ hindex) size''⟩
  rw [← indexBase_sample (a := a) hshape hhead.lt hindex]
  intro hsame
  have hoffset := (BitVec.add_right_inj _).1 hsame
  obtain ⟨rfl, rfl⟩ | ⟨rfl, rfl⟩ := hsizes
  · rw [extOffset_sample (.inl rfl), extOffset_sample (.inr rfl)] at hoffset
    exact absurd hoffset (by decide)
  · rw [extOffset_sample (.inr rfl), extOffset_sample (.inl rfl)] at hoffset
    exact absurd hoffset (by decide)

theorem lea_returns {f : LeaOperand} {s t : CPUState BaseMemory} {v : BitVec 32}
    (hn : Named f.addrReg) (hsize : f.dataSize = .long)
    (hv : CPUState.getControlAddress f.srcMode f.srcReg .long s.pastExtWord = .ok v t) :
    Lea.execute .cpuState f s = .ok () (t.withReg f.addrReg v) := by
  rw [Lea.execute, bind_of_ok (skipOpcode_apply s), hsize]
  exact (bind_of_ok hv).trans (setReg_long hn)

theorem pea_returns {f : OneOperand} {s t : CPUState BaseMemory} {v : BitVec 32}
    (hsize : f.dataSize = some .long)
    (hv : CPUState.getControlAddress f.destMode f.destReg .long s.pastExtWord = .ok v t)
    (hmemory : t.memory.memSize = 0x800000) (hstack : t.reg regA7 = 0x10000) :
    ∃ u, Pea.execute .cpuState f s = .ok () u ∧ readRealMem u.memory.baseAddr 0xFFFC .long = v := by
  have hacc : t.memory.Accessible (t.reg regA7 - 4) .long := by
    rw [hstack]
    exact accessible_of_even (.inr (by decide)) (by rw [hmemory]; decide) (by decide)
  have haddr : maskAddr (t.reg regA7 - 4).toNat = 0xFFFC := by
    rw [hstack]
    decide
  refine ⟨(t.withReg regA7 (t.reg regA7 - 4)).stored (t.reg regA7 - 4) .long v, ?_, ?_⟩
  · rw [Pea.execute, bind_of_ok (skipOpcode_apply s), hsize, readSize, pure_bind]
    exact (bind_of_ok hv).trans ((stackPush_apply t v).trans (memSet_of_accessible hacc))
  · rw [CPUState.stored, BaseMemory.write, haddr]
    exact readRealMem_writeRealMem

/-- Forms with different sizes of the index register, of an object that loads the address. -/
theorem Form.Alike.separable_of_lea (h : Form.Alike a b) {f : LeaOperand} (hf : a.object = .lea f)
    (hindex : a.indexSizes ≠ b.indexSizes) : a.Separable b := by
  have hname := h.shape.name
  have hoperands := h.shape.operands
  have hvalid := a.valid
  have hregular := a.regular
  rw [hf] at hname hoperands hvalid hregular
  obtain ⟨g, hg⟩ : ∃ g, b.object = .lea g := by
    cases hobject : b.object <;> rw [hobject] at hname <;> cases hname
    exact ⟨_, rfl⟩
  have hregular' := b.regular
  rw [hg] at hoperands hregular'
  have haddr : f.addrReg = g.addrReg :=
    congrArg Operand.reg (List.cons.inj (List.cons.inj hoperands).2).1
  have hn : Named f.addrReg := named_of_lt hvalid.2
  have hlength : [true, false].length = a.object.operandList.length := by
    rw [hf]
    rfl
  have ho : a.object.operandList = [⟨.address, f.srcMode, f.srcReg, f.dataSize⟩,
      ⟨.address, .directAddr, f.addrReg, f.dataSize⟩] := by rw [hf, Derived.operandList]
  have ho' : b.object.operandList = [⟨.address, g.srcMode, g.srcReg, g.dataSize⟩,
      ⟨.address, .directAddr, g.addrReg, g.dataSize⟩] := by rw [hg, Derived.operandList]
  obtain ⟨v, w, r, x, hne, hv, hw⟩ := h.controlAddresses [false] (fun _ => 0) ho ho'
    (fun q hq => by rw [List.mem_singleton.1 hq]) hindex .long .long
  have hs := lea_returns hn hregular.2.2 hv
  have ht := lea_returns (haddr ▸ hn) hregular'.2.2 hw
  rw [← haddr] at ht
  refine h.separable _ hlength (not_stepsAlike_of_reg ((Form.step_sample rfl hf).trans hs)
    ((Form.step_sample rfl hg).trans ht) hvalid.2 ?_)
  rwa [CPUState.reg_withReg_self hn, CPUState.reg_withReg_self hn]

/-- Forms with different sizes of the index register, of an object that pushes the address. -/
theorem Form.Alike.separable_of_pea (h : Form.Alike a b) {f : OneOperand} (hf : a.object = .pea f)
    (hindex : a.indexSizes ≠ b.indexSizes) : a.Separable b := by
  have hname := h.shape.name
  have hregular := a.regular
  rw [hf] at hname hregular
  obtain ⟨g, hg⟩ : ∃ g, b.object = .pea g := by
    cases hobject : b.object <;> rw [hobject] at hname <;> cases hname
    exact ⟨_, rfl⟩
  have hregular' := b.regular
  rw [hg] at hregular'
  have hlength : [true].length = a.object.operandList.length := by
    rw [hf]
    rfl
  have hlength' := hlength.trans h.shape.length_eq
  have ho : a.object.operandList = [f.dest .address] := by rw [hf, Derived.operandList]
  have ho' : b.object.operandList = [g.dest .address] := by rw [hg, Derived.operandList]
  obtain ⟨v, w, r, x, hne, hv, hw⟩ := h.controlAddresses [] (fun _ => 0) ho ho'
    (fun q hq => absurd hq List.not_mem_nil) hindex .long .long
  have hstack {c : Form} (y : BitVec 32) :
      ((c.sample [true] reachRegs fun _ => 0).pastExtWord.withReg regPC y).reg regA7 = 0x10000 := by
    rw [CPUState.reg_withReg_of_ne named_regPC named_A7 (by decide)]
    exact reg_sample_reach (by decide)
  obtain ⟨u, hs, hread⟩ := pea_returns hregular.2 hv (memSize_sampleMemory _ _) (hstack r)
  obtain ⟨u', ht, hread'⟩ := pea_returns hregular'.2 hw (memSize_sampleMemory _ _) (hstack x)
  refine h.separable _ hlength
    (not_stepsAlike_of_read 0xFFFC .long ((Form.step_sample rfl hf).trans hs)
    ((Form.step_sample rfl hg).trans ht) ?_ ?_)
  · rintro i hlow hhigh (hi | hi)
    · have := h.left.bounds_of_encoded rfl hlength hi
      unfold sampleBase at this
      omega
    · have := h.right.bounds_of_encoded rfl hlength' hi
      unfold sampleBase at this
      omega
  · rwa [hread, hread']

end Addresses

/-- Forms with different sizes of the index registers. -/
theorem Form.Alike.separable_of_indexSizes {a b : Form} (h : Form.Alike a b)
    (hindex : a.indexSizes ≠ b.indexSizes) : a.Separable b := by
  by_cases haddress : a.object.TakesAddress
  · cases hobject : a.object with
    | lea f => exact h.separable_of_lea hobject hindex
    | pea f => exact h.separable_of_pea hobject hindex
    | jmp f | jsr f =>
      -- no size is in the form of a jump
      have hsizes := h.left.sizes ⟨fun _ => 0, 0⟩ 0
      rw [hobject] at hsizes
      cases hsizes
    | _ => rw [hobject] at haddress; cases haddress
  · exact h.separable_of_index haddress hindex

end M68kEmu
