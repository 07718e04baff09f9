import M68kEmu.Listing.IndexSizes
import M68kEmu.Listing.OperandSizes
import M68kEmu.Listing.ShiftSizes

/-!
# What a text says of the effect

Two forms that print alike have the same effects on the same data exactly when they agree
(`equal_texts_equal_effects`).
-/

namespace M68kEmu

open Outcome

/-! ### Forms that do not agree -/

section Disagree

variable {s t : CPUState BaseMemory} {d e : Derived}

theorem eq_tst_of_name (h : d.name = .tst) : ∃ f, d = .tst f := by
  cases d <;> first | exact ⟨_, rfl⟩ | cases h

theorem eq_neg_of_name (h : d.name = .neg) : ∃ f, d = .neg f := by
  cases d <;> first | exact ⟨_, rfl⟩ | cases h

theorem eq_bitShift_of_name {type : BitShiftType} {left : Bool} (h : d.name = .bitShift type left) :
    ∃ f, d = .bitShift f := by
  cases d <;> first | exact ⟨_, rfl⟩ | cases h

theorem unshown_of_name (htst : d.name ≠ .tst) (hneg : d.name ≠ .neg)
    (hshift : ∀ type left, d.name ≠ .bitShift type left) : d.unshown = {} := by
  cases d with
  | tst f => exact absurd rfl htst
  | neg f => exact absurd rfl hneg
  | bitShift f => exact absurd rfl (hshift _ _)
  | _ => rfl

/-- Objects with one name have operands both or none. -/
theorem operandList_eq_nil_iff (h : d.name = e.name) : d.operandList = [] ↔ e.operandList = [] := by
  have hname (d : Derived) : d.operandList = [] ↔ (∃ condition, d.name = .bcc condition) ∨
      d.name = .illegal ∨ d.name = .link ∨ d.name = .nop ∨ d.name = .rts ∨ d.name = .unlk := by
    cases d <;> simp [Derived.operandList, Derived.name]
  rw [hname, hname, h]

/-- No size of an index register is in the form of an object without operands, or of a jump. -/
theorem indexSizes_eq_nil (h : d.operandList = [] ∨ d.name = .jmp ∨ d.name = .jsr)
    (mem : BaseMemory) (pc : BitVec 32) : d.indexSizes mem pc = [] := by
  obtain h | h | h := h
  · cases d <;> first | rfl | cases h
  all_goals cases d <;> first | rfl | cases h

theorem name_eq_of_printsAlike (h : PrintsAlike s t) : s.current.name = t.current.name := by
  obtain ⟨-, -, -, text, u, v, hs, ht⟩ := h
  exact congrArg Line.name (line_eq_of_text (listCurrent_eq_ok hs).1 (listCurrent_eq_ok ht).1)

/-- The operands of two `TST` with one text have one mode. -/
theorem tst_of_printsAlike (h : PrintsAlike s t) (htst : s.current.name = .tst) :
    ∃ f g, s.current = .tst f ∧ t.current = .tst g ∧ f.destMode = g.destMode := by
  obtain ⟨f, hs⟩ := eq_tst_of_name htst
  obtain ⟨g, ht⟩ := eq_tst_of_name ((name_eq_of_printsAlike h).symm.trans htst)
  have hshape := (sameShape_of_printsAlike h fun f hf => by cases hs.symm.trans hf).1.operands
  rw [hs, ht] at hshape
  exact ⟨f, g, hs, ht, (Operand.mk.inj (List.cons.inj hshape).1).2.1⟩

theorem unshown_tst (f : OneOperand) : (Derived.tst f).unshown =
    if f.destMode = .immediate then {}
      else { size := if f.destMode = .unknown then some .long else f.dataSize } := by
  rw [Derived.unshown, Derived.canonical]
  by_cases himm : f.destMode = .immediate
  · rw [if_pos himm]
    exact if_pos (decide_eq_true himm)
  · rw [if_neg himm]
    refine (if_neg fun h => himm (of_decide_eq_true h)).trans ?_
    split_ifs <;> rfl

theorem unshown_neg (f : OneOperand) : (Derived.neg f).unshown = { size := f.dataSize } := rfl

/-- Forms that differ in a size, or in a shift of a memory operand. -/
theorem separable_of_unshown (h : PrintsAlike s t)
    (hunshown : s.current.unshown ≠ t.current.unshown) : s.form.Separable t.form := by
  have hname := name_eq_of_printsAlike h
  have halike (hoperands : s.current.operandList ≠ []) (himm : s.current.testsImmediate = false)
      (hjmp : s.current.name ≠ .jmp) (hjsr : s.current.name ≠ .jsr) : s.form.Alike t.form :=
    alike_form h hoperands himm (fun f hf => hjmp (by rw [hf]; rfl)) fun f hf =>
      hjsr (by rw [hf]; rfl)
  by_cases htst : s.current.name = .tst
  · obtain ⟨f, g, hs, ht, hmode⟩ := tst_of_printsAlike h htst
    rw [hs] at hunshown halike
    rw [ht, unshown_tst, unshown_tst, ← hmode] at hunshown
    split_ifs at hunshown with himm hunknown
    · exact absurd rfl hunshown
    · exact absurd rfl hunshown
    · exact (halike (List.cons_ne_nil _ _) (decide_eq_false himm) nofun nofun).separable_of_tst
        ((object_form s).trans hs) ((object_form t).trans ht) ⟨himm, hunknown⟩ fun hsize =>
        hunshown (by rw [hsize])
  by_cases hneg : s.current.name = .neg
  · obtain ⟨f, hs⟩ := eq_neg_of_name hneg
    obtain ⟨g, ht⟩ := eq_neg_of_name (hname.symm.trans hneg)
    rw [hs] at hunshown halike
    rw [ht] at hunshown
    exact (halike (List.cons_ne_nil _ _) rfl nofun nofun).separable_of_neg
      ((object_form s).trans hs)
      ((object_form t).trans ht) fun hsize => hunshown (by rw [unshown_neg, unshown_neg, hsize])
  by_cases hshift : ∃ type left, s.current.name = .bitShift type left
  · obtain ⟨type, left, hshift⟩ := hshift
    obtain ⟨f, hs⟩ := eq_bitShift_of_name hshift
    obtain ⟨g, ht⟩ := eq_bitShift_of_name (hname.symm.trans hshift)
    rw [← object_form s, ← object_form t] at hunshown
    rw [hs] at halike
    exact (halike (List.cons_ne_nil _ _) rfl nofun nofun).separable_of_bitShift
      ((object_form s).trans hs) ((object_form t).trans ht) hunshown
  · have hnone (type : BitShiftType) (left : Bool) : s.current.name ≠ .bitShift type left :=
      fun h => hshift ⟨type, left, h⟩
    exact absurd
      ((unshown_of_name htst hneg hnone).trans
        (unshown_of_name (hname ▸ htst) (hname ▸ hneg) (hname ▸ hnone)).symm)
      hunshown

theorem indexSizes_tst {f : OneOperand} (hmode : f.destMode = .immediate) (mem : BaseMemory)
    (pc : BitVec 32) : (Derived.tst f).indexSizes mem pc = [none] := by
  obtain ⟨mode, reg, dataSize⟩ := f
  obtain rfl : mode = .immediate := hmode
  rfl

/-- Forms that differ in the size of an index register. -/
theorem separable_of_indexSizes (h : PrintsAlike s t)
    (hindex : s.form.indexSizes ≠ t.form.indexSizes) : s.form.Separable t.form := by
  have hname := name_eq_of_printsAlike h
  have hnone : ¬(s.current.operandList = [] ∨ s.current.name = .jmp ∨ s.current.name = .jsr) :=
    fun hnone => by
    have hnone' : t.current.operandList = [] ∨ t.current.name = .jmp ∨ t.current.name = .jsr := by
      rwa [← operandList_eq_nil_iff hname, ← hname]
    exact hindex ((indexSizes_eq_nil hnone _ _).trans (indexSizes_eq_nil hnone' _ _).symm)
  have himm : s.current.testsImmediate = false := by
    by_contra himm
    obtain ⟨f, hs, hmode⟩ := eq_tst_of_testsImmediate (Bool.eq_true_of_not_eq_false himm)
    obtain ⟨f', g, hs', ht, hsame⟩ := tst_of_printsAlike h (by rw [hs]; rfl)
    obtain rfl := Derived.tst.inj (hs.symm.trans hs')
    rw [CPUState.form, CPUState.form, hs, ht, indexSizes_tst hmode,
      indexSizes_tst (hsame ▸ hmode)] at hindex
    exact hindex rfl
  refine (alike_form h (fun hnil => hnone (.inl hnil)) himm
    (fun f hf => hnone (.inr (.inl (by rw [hf]; rfl)))) fun f hf =>
    hnone (.inr (.inr (by rw [hf]; rfl)))).separable_of_indexSizes hindex

/-- Forms of `TST` of an immediate that differ in its sign: the states themselves show it. -/
theorem separable_of_immediateSign (h : PrintsAlike s t)
    (hsign : s.form.immediateSign ≠ t.form.immediateSign) : s.form.Separable t.form := by
  have hname := name_eq_of_printsAlike h
  have hnone (d : Derived) (htst : d.name ≠ .tst) (mem : BaseMemory) (pc : BitVec 32) :
      d.immediateSign mem pc = false := by
    cases d with
    | tst f => exact absurd rfl htst
    | _ => rfl
  have htst : s.current.name = .tst := by
    by_contra htst
    exact hsign ((hnone _ htst _ _).trans (hnone _ (hname ▸ htst) _ _).symm)
  obtain ⟨f, g, hs, ht, hmode⟩ := tst_of_printsAlike h htst
  have himm : f.destMode = .immediate := by
    by_contra himm
    have hfalse {f : OneOperand} (himm : f.destMode ≠ .immediate) (mem : BaseMemory)
        (pc : BitVec 32) :
        (Derived.tst f).immediateSign mem pc = false := decide_eq_false fun h => himm h.1
    rw [CPUState.form, CPUState.form, hs, ht, hfalse himm, hfalse (hmode ▸ himm)] at hsign
    exact hsign rfl
  have hvalid := valid_current s
  have hvalid' := valid_current t
  obtain ⟨-, -, -, text, u, v, hlist, hlist'⟩ := id h
  obtain ⟨hdisassembly, hstep⟩ := listCurrent_eq_ok hlist
  obtain ⟨hdisassembly', hstep'⟩ := listCurrent_eq_ok hlist'
  rw [hs] at hvalid hdisassembly hstep
  rw [ht] at hvalid' hdisassembly' hstep'
  obtain ⟨size, hsize⟩ := Option.isSome_iff_exists.1 hvalid.2
  obtain ⟨size', hsize'⟩ := Option.isSome_iff_exists.1 hvalid'.2
  obtain ⟨pc, hexecute⟩ := tst_immediate himm hsize hdisassembly
  obtain ⟨pc', hexecute'⟩ := tst_immediate (hmode ▸ himm) hsize' hdisassembly'
  have hnegative (u : CPUState BaseMemory) (negative zero : Bool) :
      (u.withResultFlags negative zero).registers.getFlag .negative = negative := by
    unfold CPUState.withResultFlags
    simp [CPUState.withFlag, getFlag_setFlag]
  refine ⟨s, t, rfl, rfl, h, fun r hr => ?_,
    not_stepsAlike_of_flag .negative (hstep.trans hexecute) (hstep'.trans hexecute') ?_⟩
  · have hnil : (Derived.tst f).dataReads s = [] := operandReads_eq_nil (fun o ho u => by
      rw [List.mem_singleton.1 ho, Operand.dataRead, OneOperand.dest, himm]
      rfl) _
    rw [hs, hnil] at hr
    exact absurd hr List.not_mem_nil
  · rw [hnegative, hnegative]
    rw [CPUState.form, CPUState.form, hs, ht] at hsign
    simpa [Derived.immediateSign, himm, hmode ▸ himm, hsize, hsize'] using hsign

theorem separable_of_not_agrees (h : PrintsAlike s t) (hforms : ¬s.form.Agrees t.form) :
    s.form.Separable t.form := by
  by_cases hunshown : s.current.unshown = t.current.unshown
  · by_cases hindex : s.form.indexSizes = t.form.indexSizes
    · refine separable_of_immediateSign h fun hsign => hforms ⟨?_, hindex, hsign⟩
      rwa [object_form, object_form]
    · exact separable_of_indexSizes h hindex
  · exact separable_of_unshown h hunshown

end Disagree

/-- Two forms that are listed with one text in some states have the same effects on the same data,
in all states with one text, exactly when they agree. -/
theorem equal_texts_equal_effects {a b : Form}
    (h : ∃ s t : CPUState BaseMemory, s.form = a ∧ t.form = b ∧ PrintsAlike s t) :
    (∀ s t : CPUState BaseMemory, s.form = a → t.form = b → PrintsAlike s t → SameInput s t →
      StepsAlike s t) ↔ a.Agrees b := by
  constructor
  · intro halike
    by_contra hforms
    obtain ⟨s, t, rfl, rfl, hprints⟩ := h
    obtain ⟨u, v, hu, hv, hprints', hinput, hsteps⟩ := separable_of_not_agrees hprints hforms
    exact hsteps (halike u v hu hv hprints' hinput)
  · rintro hforms s t rfl rfl hprints hinput
    exact hforms.stepsAlike hprints hinput

/-! ### Two pairs of encodings -/

/-- Bytes from zero on that are all in the encoding. -/
theorem encoded_of_lt {bytes : List (BitVec 8)} {regs : ℕ → BitVec 32} {n i : ℕ}
    (hpc : regs regPC = 0) (hn : n ≤ 4)
    (hlength : (delta regPC (CPUState.simple bytes regs).current.listed).toNat = n) (hi : i < n) :
    (CPUState.simple bytes regs).Encoded i := by
  have hall : ∀ k < 4, k = maskAddr ((0 : BitVec 32) + BitVec.ofNat 32 k).toNat := by decide
  have hreg : (CPUState.simple bytes regs).reg regPC = 0 := by
    rw [CPUState.reg, Registers.bank_regPC]
    exact hpc
  refine ⟨i, by rw [hlength]; exact hi, ?_⟩
  rw [hreg]
  exact hall i (by omega)

/-- States that differ in the bytes of their encodings only. -/
theorem simple_sameOff {bytes bytes' : List (BitVec 8)} {regs : ℕ → BitVec 32}
    (hpc : regs regPC = 0) (hn : bytes.length ≤ 4)
    (hlength : (delta regPC (CPUState.simple bytes regs).current.listed).toNat = bytes.length)
    (hbytes : bytes'.length = bytes.length) (i : ℕ)
    (hi : ¬((CPUState.simple bytes regs).Encoded i ∨ (CPUState.simple bytes' regs).Encoded i)) :
    (CPUState.simple bytes regs).memory.baseAddr i =
    (CPUState.simple bytes' regs).memory.baseAddr i := by
  have hge : bytes.length ≤ i := by
    by_contra hlt
    exact hi (.inl (encoded_of_lt hpc hn hlength (Nat.not_le.1 hlt)))
  have hzero {bytes : List (BitVec 8)} (h : bytes.length ≤ i) : bytes.getD i 0 = 0 := by
    rw [List.getD_eq_getElem?_getD, List.getElem?_eq_none h, Option.getD_none]
  exact (hzero hge).trans (hzero (hbytes ▸ hge)).symm

/-- `clr.b ($0,A0,D0.w)`, with and without a bit of the index word that the machine ignores. -/
theorem clr_index_equal_effects :
    let regs : ℕ → BitVec 32 := fun i => if i = 8 then 0x1000 else 0
    let s := CPUState.simple [0x42, 0x30, 0x00, 0x00] regs
    let t := CPUState.simple [0x42, 0x30, 0x01, 0x00] regs
    StepsAlike s t := by
  have hdecode : (decode 0x4230).derived =
      .clr { destMode := .indirectIndex, destReg := 8, dataSize := some .byte } := by
    rw [decode_eq_opcodeEntry]
    rfl
  have hlist {w : BitVec 8} (hw : w = 0 ∨ w = 1) : ∃ u,
      (Derived.clr { destMode := .indirectIndex, destReg := 8, dataSize := some .byte }).disassembly
        (CPUState.simple [0x42, 0x30, w, 0x00] fun i => if i = 8 then 0x1000 else 0) =
        .ok "clr.b ($0,a0,d0)" u := by
    obtain rfl | rfl := hw <;> exact ⟨_, rfl⟩
  intro regs s t
  have hopcode : s.opcode = 0x4230 := by decide
  have hopcode' : t.opcode = 0x4230 := by decide
  have hs :
      s.current = .clr { destMode := .indirectIndex, destReg := 8, dataSize := some .byte } := by
    rw [CPUState.current_eq, hopcode, hdecode]
  have ht :
      t.current = .clr { destMode := .indirectIndex, destReg := 8, dataSize := some .byte } := by
    rw [CPUState.current_eq, hopcode', hdecode]
  have hfetch : fetchOpcode s = .ok 0x4230 s := by rw [fetchOpcode_apply (by decide), hopcode]
  have hfetch' : fetchOpcode t = .ok 0x4230 t := by rw [fetchOpcode_apply (by decide), hopcode']
  obtain ⟨u, hu⟩ : ∃ u, listCurrent s = .ok "clr.b ($0,a0,d0)" u := by
    rw [listCurrent, bind_of_ok hfetch, hdecode]
    exact hlist (.inl rfl)
  obtain ⟨v, hv⟩ : ∃ v, listCurrent t = .ok "clr.b ($0,a0,d0)" v := by
    rw [listCurrent, bind_of_ok hfetch', hdecode]
    exact hlist (.inr rfl)
  have hprints : PrintsAlike s t :=
    ⟨rfl, rfl, simple_sameOff rfl (by decide) (by rw [hs]; decide) rfl, _, u, v, hu, hv⟩
  refine (equal_texts_equal_effects ⟨s, t, rfl, rfl, hprints⟩).2 ⟨?_, ?_, ?_⟩ s t rfl rfl hprints ?_
  · rw [object_form, object_form, hs, ht]
  · rw [CPUState.form, CPUState.form, hs, ht]
    decide
  · rw [CPUState.form, CPUState.form, hs, ht]
    decide
  · rw [SameInput, hs]
    decide

/-- `TST.B D0` and `TST.W D0` print alike, and set the zero flag differently when
`D0` is `0x100`. -/
theorem tst_sizes_print_alike :
    let regs : ℕ → BitVec 32 := fun i => if i = 0 then 0x100 else 0
    let s := CPUState.simple [0x4A, 0x00] regs
    let t := CPUState.simple [0x4A, 0x40] regs
    PrintsAlike s t ∧ (∃ u, listCurrent s = .ok "tst d0" u) ∧
      (∃ v, listCurrent t = .ok "tst d0" v) ∧ (after step s).registers.getFlag .zero = true ∧
      (after step t).registers.getFlag .zero = false ∧ ¬StepsAlike s t := by
  intro regs s t
  have hdecode :
      (decode 0x4A00).derived =
      .tst { destMode := .directData, destReg := 0, dataSize := some .byte } := by
    rw [decode_eq_opcodeEntry]
    rfl
  have hdecode' :
      (decode 0x4A40).derived =
      .tst { destMode := .directData, destReg := 0, dataSize := some .word } := by
    rw [decode_eq_opcodeEntry]
    rfl
  have hopcode : s.opcode = 0x4A00 := by decide
  have hopcode' : t.opcode = 0x4A40 := by decide
  have hs : s.current = .tst { destMode := .directData, destReg := 0, dataSize := some .byte } := by
    rw [CPUState.current_eq, hopcode, hdecode]
  have hfetch : fetchOpcode s = .ok 0x4A00 s := by rw [fetchOpcode_apply (by decide), hopcode]
  have hfetch' : fetchOpcode t = .ok 0x4A40 t := by rw [fetchOpcode_apply (by decide), hopcode']
  obtain ⟨s', hstep, hzero⟩ : ∃ s', step s = .ok () s' ∧ s'.registers.getFlag .zero = true := by
    rw [step, stepWith, bind_of_ok hfetch, hdecode]
    exact ⟨_, rfl, by decide⟩
  obtain ⟨t', hstep', hzero'⟩ : ∃ t', step t = .ok () t' ∧ t'.registers.getFlag .zero = false := by
    rw [step, stepWith, bind_of_ok hfetch', hdecode']
    exact ⟨_, rfl, by decide⟩
  obtain ⟨u, hu⟩ : ∃ u, listCurrent s = .ok "tst d0" u := by
    rw [listCurrent, bind_of_ok hfetch, hdecode]
    exact ⟨_, rfl⟩
  obtain ⟨v, hv⟩ : ∃ v, listCurrent t = .ok "tst d0" v := by
    rw [listCurrent, bind_of_ok hfetch', hdecode']
    exact ⟨_, rfl⟩
  refine ⟨⟨rfl, rfl, simple_sameOff rfl (by decide) (by rw [hs]; decide) rfl, _, u, v, hu, hv⟩,
    ⟨u, hu⟩, ⟨v, hv⟩, ?_, ?_, ?_⟩
  · rwa [after_of_ok hstep]
  · rwa [after_of_ok hstep']
  · rw [StepsAlike, hstep, hstep']
    rintro (⟨_, u, v, hu, hv, huv, -⟩ | ⟨e, u, v, hu, -⟩)
    · obtain ⟨-, rfl⟩ := EStateM.Result.ok.inj hu
      obtain ⟨-, rfl⟩ := EStateM.Result.ok.inj hv
      rw [Registers.getFlag, huv regSR (by decide)] at hzero'
      exact absurd (hzero.symm.trans hzero') (by decide)
    · cases hu

end M68kEmu
