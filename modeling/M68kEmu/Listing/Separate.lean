import M68kEmu.Listing.Reach

/-!
# Encodings with one text and two effects
-/

namespace M68kEmu

open Outcome

/-! ### The operands of an object -/

namespace Derived

variable {d : Derived}

theorem base_of_mem_operandList (h : d.Regular) : ∀ o ∈ d.operandList, UsesBase o.mode →
    8 ≤ o.reg := by
  have hone {o : Operand} (ho : MatchesRegister o.mode o.reg) :
      ∀ p ∈ [o], UsesBase p.mode → 8 ≤ p.reg := by
    intro p hp
    rw [List.mem_singleton.1 hp]
    exact ho.base
  have htwo {o o' : Operand} (ho : MatchesRegister o.mode o.reg)
      (ho' : MatchesRegister o'.mode o'.reg) : ∀ p ∈ [o, o'], UsesBase p.mode → 8 ≤ p.reg := by
    intro p hp
    rcases List.mem_pair.1 hp with rfl | rfl
    · exact ho.base
    · exact ho'.base
  cases d with
  | add f | adda f | addx f | and f | cmp f | cmpa f | eor f | or f | sub f | suba f | subx f =>
    exact htwo h.src h.dest
  | addi f | andi f | cmpi f | eori f | ori f | subi f => exact htwo matches_immediate h
  | clr f | neg f | addq f | subq f | ext f | tst f | scc f => exact hone h
  | moveq f => exact hone h.1
  | div f | mul f => exact htwo h.1.src h.1.dest
  | move f => exact htwo h.src h.dest
  | bitManip f => exact htwo h.1.src h.1.dest
  | bitShift f => exact hone h.addr
  | jmp f | jsr f | pea f => exact hone h.1
  | lea f =>
    intro p hp hbase
    rcases List.mem_pair.1 hp with rfl | rfl
    · exact h.1.base hbase
    · exact h.2.1
  | bcc f | illegal | link addrReg | nop | rts | unlk addrReg =>
    exact fun _ hp => absurd hp List.not_mem_nil

/-- All operands of an object have one size. -/
theorem exists_size_operandList (d : Derived) : ∃ size, ∀ o ∈ d.operandList, o.size = size := by
  have hone (o : Operand) : ∃ size, ∀ p ∈ [o], p.size = size :=
    ⟨o.size, fun p hp => by rw [List.mem_singleton.1 hp]⟩
  have htwo (o o' : Operand) (ho : o'.size = o.size) : ∃ size, ∀ p ∈ [o, o'], p.size = size := by
    refine ⟨o.size, fun p hp => ?_⟩
    rcases List.mem_pair.1 hp with rfl | rfl
    · rfl
    · exact ho
  cases d with
  | bcc f | illegal | link addrReg | nop | rts | unlk addrReg =>
    exact ⟨.long, fun _ hp => absurd hp List.not_mem_nil⟩
  | clr f | neg f | addq f | subq f | ext f | tst f | scc f | moveq f | bitShift f | jmp f
  | jsr f | pea f =>
    exact hone _
  | _ => exact htwo _ _ rfl

theorem exists_sound (hv : d.Valid) (hd : d.Regular) :
    ∃ size, ∀ o ∈ d.operandList, o.Sound size := by
  obtain ⟨size, hsize⟩ := d.exists_size_operandList
  exact ⟨size, fun o ho =>
    ⟨reg_lt_of_mem_operandList hv o ho, base_of_mem_operandList hd o ho, hsize o ho⟩⟩

theorem chain_operandList (haddress : ¬d.TakesAddress) : Chain d.operandList := by
  have hone (o : Operand) : Chain [o] := ⟨fun h => absurd rfl h, trivial⟩
  have htwo {o : Operand} (o' : Operand) (ho : o.use = .get) : Chain [o, o'] :=
    ⟨fun _ => ho, hone o'⟩
  cases d with
  | bcc f | illegal | link addrReg | nop | rts | unlk addrReg => trivial
  | clr f | neg f | addq f | subq f | ext f | tst f | scc f | moveq f | bitShift f => exact hone _
  | lea f | pea f | jmp f | jsr f => exact absurd trivial haddress
  | _ => exact htwo _ rfl

/-- An operand that is written and not read can be written. -/
theorem alterable_of_address (hv : d.Valid) (haddress : ¬d.TakesAddress) :
    ∀ o ∈ d.operandList, o.use = .address → isMemoryAlterable o.mode := by
  have hone {o : Operand} (ho : o.use = .address → isMemoryAlterable o.mode) :
      ∀ p ∈ [o], p.use = .address → isMemoryAlterable p.mode := fun p hp => by
        rwa [List.mem_singleton.1 hp]
  have htwo {o o' : Operand} (ho : o.use ≠ .address)
      (ho' : o'.use = .address → isMemoryAlterable o'.mode) :
      ∀ p ∈ [o, o'], p.use = .address → isMemoryAlterable p.mode := by
    intro p hp
    rcases List.mem_pair.1 hp with rfl | rfl
    · exact fun h => absurd h ho
    · exact ho'
  cases d with
  | clr f | moveq f => exact hone fun _ => hv.alterable
  | scc f => exact hone fun _ => hv.2
  | move f => exact htwo (fun h => by cases h) fun _ => hv.1.alterable
  | lea f | pea f | jmp f | jsr f => exact absurd trivial haddress
  | bcc f | illegal | link addrReg | nop | rts | unlk addrReg =>
    exact fun _ hp => absurd hp List.not_mem_nil
  | neg f | addq f | subq f | ext f | tst f | bitShift f => exact hone fun h => by cases h
  | _ => exact htwo (fun h => by cases h) fun h => by cases h

end Derived

/-! ### Objects with one line -/

/-- The operand as far as it follows from a line: all but its size. -/
def Operand.shape (o : Operand) : Operand := { o.normal with size := .long }

/-- Objects that differ in what a line does not show only. -/
structure Derived.SameShape (d e : Derived) : Prop where
  name : d.name = e.name
  suffix : d.suffix = e.suffix
  opcodeFields : d.opcodeFields = e.opcodeFields
  operands : d.operandList.map Operand.shape = e.operandList.map Operand.shape

section Shape

variable {d e : Derived} {l : Line} {mem mem' : BaseMemory} {pc pc' : BitVec 32}

theorem Operand.shape_normal (o : Operand) : o.normal.shape = o.shape := by
  obtain ⟨use, mode, reg, size⟩ := o
  cases mode <;> rfl

theorem sampleField_shape (o : Operand) (first : Bool) :
    o.shape.sampleField first = o.sampleField first := by
  obtain ⟨use, mode, reg, size⟩ := o
  cases mode with
  | immediate =>
    have hbyte : (1 : BitVec 32).toNat = (mask8 (1 : BitVec 32)).toNat := by decide
    cases size <;> first | rfl | exact congrArg Field.immediate hbyte
  | _ => rfl

theorem Derived.shape_normal (d : Derived) :
    d.normal.operandList.map Operand.shape = d.operandList.map Operand.shape := by
  rw [Derived.operandList_normal, List.map_map]
  exact List.map_congr_left fun o _ => o.shape_normal

/-- What is not printed changes neither the operands nor the fields of the opcode word. -/
theorem Line.object_shape (l : Line) (u v : Unprinted) :
    (l.object u).opcodeFields = (l.object v).opcodeFields ∧
    (l.object u).operandList.map Operand.shape = (l.object v).operandList.map Operand.shape := by
  obtain ⟨name, suffix, fields⟩ := l
  cases name with
  | bitShift type directionLeft =>
    refine ⟨?_, rfl⟩
    simp only [Line.object, Derived.opcodeFields]
    split_ifs <;> rfl
  | _ => exact ⟨rfl, rfl⟩

theorem sameShape_of_line (hd : d.Regular) (hv : d.Valid) (hd' : e.Regular) (hv' : e.Valid)
    (hbcc : ∀ f, d ≠ .bcc f)
    (hbcc' : ∀ f, e ≠ .bcc f) (h : d.line mem pc = e.line mem' pc') : d.SameShape e := by
  have hnormal : ∀ d : Derived, d.normal.opcodeFields = d.opcodeFields :=
    fun d => by cases d <;> rfl
  obtain ⟨hopcode, hoperands⟩ := (d.line mem pc).object_shape d.unprinted e.unprinted
  rw [object_line hd hv hbcc, h, object_line hd' hv' hbcc'] at hopcode hoperands
  rw [hnormal, hnormal] at hopcode
  rw [Derived.shape_normal, Derived.shape_normal] at hoperands
  exact ⟨congrArg Line.name h, congrArg Line.suffix h, hopcode, hoperands⟩

namespace Derived.SameShape

variable (h : d.SameShape e)
include h

theorem length_eq : d.operandList.length = e.operandList.length := by
  rw [← List.length_map (f := Operand.shape), h.operands, List.length_map]

theorem operandList_ne_nil (hd : d.operandList ≠ []) : e.operandList ≠ [] := by
  rw [← List.length_pos_iff] at hd ⊢
  rwa [← h.length_eq]

theorem fields (firsts : List Bool) :
    List.zipWith Operand.sampleField d.operandList firsts = List.zipWith Operand.sampleField
      e.operandList firsts := by
  have hshape (d : Derived) :
      List.zipWith Operand.sampleField (d.operandList.map Operand.shape) firsts =
      List.zipWith Operand.sampleField d.operandList firsts := by
    rw [List.zipWith_map_left]
    simp only [sampleField_shape]
  rw [← hshape d, h.operands, hshape]

end Derived.SameShape

end Shape

/-! ### Samples of a form -/

namespace Form

/-- A state that takes the index registers at the sizes of the form: `D0` where the list
says so, and else `D1`. -/
def sample (a : Form) (firsts : List Bool) (regs : ℕ → BitVec 32) (fill : ℕ → BitVec 8) :
    CPUState BaseMemory :=
  M68kEmu.sample a.opcode (sampleExtension a.object.operandList (firsts.zip a.indexSizes)) regs fill

/-- The samples of the form have it. -/
structure Sampled (a : Form) : Prop where
  operands : a.object.operandList ≠ []
  fits : List.Forall₂ Operand.Fits a.object.operandList a.indexSizes
  sizes : ∀ mem pc, a.object.indexSizes mem pc = indexSizesAt mem (pc + 2) a.object.operandList
  sign : ∀ mem pc, a.object.immediateSign mem pc = a.immediateSign

/-- Two forms with samples that are listed alike. -/
structure Alike (a b : Form) : Prop where
  left : a.Sampled
  right : b.Sampled
  shape : a.object.SameShape b.object

/-- States with the two forms show that their effects differ. -/
def Separable (a b : Form) : Prop :=
  ∃ s t : CPUState BaseMemory, s.form = a ∧ t.form = b ∧ PrintsAlike s t ∧ SameInput s t ∧
    ¬StepsAlike s t

section Sample

variable {a b : Form} {firsts : List Bool} {regs : ℕ → BitVec 32} {fill : ℕ → BitVec 8}

theorem Sampled.length (h : a.Sampled) (hlength : firsts.length = a.object.operandList.length) :
    a.object.operandList.length = (firsts.zip a.indexSizes).length := by
  rw [List.length_zip, ← h.fits.length_eq, hlength, min_self]

theorem valid (a : Form) : a.object.Valid := by
  rw [object]
  exact valid_decode a.opcode

theorem regular (a : Form) : a.object.Regular := by
  rw [object]
  exact regular_decode a.opcode

theorem opcode_sample (hpc : regs regPC = 0xC000) : (a.sample firsts regs fill).opcode = a.opcode :=
  M68kEmu.opcode_sample hpc

theorem current_sample (hpc : regs regPC = 0xC000) :
    (a.sample firsts regs fill).current = a.object :=
  M68kEmu.current_sample hpc (by rw [object])

theorem Sampled.fits_zip (h : a.Sampled) (hlength : firsts.length = a.object.operandList.length) :
    List.Forall₂ (fun o p => Operand.Fits o p.2) a.object.operandList
      (firsts.zip a.indexSizes) := by
  rw [← List.forall₂_map_right_iff, List.map_snd_zip]
  · exact h.fits
  · rw [← h.fits.length_eq, hlength]

theorem Sampled.form_sample (h : a.Sampled) (hpc : regs regPC = 0xC000)
    (hlength : firsts.length = a.object.operandList.length) :
    (a.sample firsts regs fill).form = a := by
  have hle := a.object.length_operandList_le
  have hbase : BitVec.ofNat 32 sampleBase + 2 = BitVec.ofNat 32 (sampleBase + 2) := by decide
  have hlt : sampleBase + 2 + 4 * a.object.operandList.length < 2 ^ 24 := by
    unfold sampleBase
    omega
  rw [CPUState.form, opcode_sample hpc, current_sample hpc, h.sizes, h.sign, sample,
    reg_sample hpc, hbase]
  rw [M68kEmu.sample, indexSizesAt_sample (h.fits_zip hlength) hasWords_extension hlt,
    List.map_snd_zip]
  rw [← h.fits.length_eq, hlength]

theorem step_sample {d : Derived} (hpc : regs regPC = 0xC000) (hd : a.object = d) :
    step (a.sample firsts regs fill) = d.execute .cpuState (a.sample firsts regs fill) := by
  subst hd
  obtain ⟨u, hu⟩ := listCurrent_sample (d := a.object) a.opcode
    (sampleExtension a.object.operandList (firsts.zip a.indexSizes)) fill hpc (by rw [object])
  have hstep := (listCurrent_eq_ok hu).2
  rwa [M68kEmu.current_sample (d := a.object) hpc (by rw [object])] at hstep

theorem Sampled.bounds_of_encoded (h : a.Sampled) (hpc : regs regPC = 0xC000)
    (hlength : firsts.length = a.object.operandList.length) {i : ℕ}
    (hi : (a.sample firsts regs fill).Encoded i) : sampleBase ≤ i ∧ i < sampleBase + 0x20 :=
  M68kEmu.bounds_of_encoded hpc (by rw [object]) h.operands (h.length hlength) hi

theorem Alike.printsAlike (h : Alike a b) (hpc : regs regPC = 0xC000)
    (hlength : firsts.length = a.object.operandList.length) :
    PrintsAlike (a.sample firsts regs fill) (b.sample firsts regs fill) := by
  have hlength' : firsts.length = b.object.operandList.length := hlength.trans h.shape.length_eq
  have hfirsts {c : Form} (hc : c.Sampled) (hlen : firsts.length = c.object.operandList.length) :
      (firsts.zip c.indexSizes).map Prod.fst = firsts := by
    rw [List.map_fst_zip]
    rw [← hc.fits.length_eq, hlen]
  refine printsAlike_sample hpc (by rw [object]) (by rw [object]) h.left.operands h.right.operands
    (h.left.length hlength)
    (h.right.length hlength') h.shape.name h.shape.suffix h.shape.opcodeFields ?_
  rw [hfirsts h.left hlength, hfirsts h.right hlength']
  exact h.shape.fields firsts

end Sample

end Form

/-! ### Forms that are listed alike -/

section Printed

variable {s t : CPUState BaseMemory}

/-- An instruction with operands has samples, unless it is a jump or a `TST` of an immediate. -/
theorem sampled_form (hoperands : s.current.operandList ≠ [])
    (himm : s.current.testsImmediate = false)
    (hjmp : ∀ f, s.current ≠ .jmp f) (hjsr : ∀ f, s.current ≠ .jsr f) : s.form.Sampled := by
  have hsizes (mem : BaseMemory) (pc : BitVec 32) :
      s.current.indexSizes mem pc = indexSizesAt mem (pc + 2) s.current.operandList := by
    cases hcurrent : s.current with
    | jmp f => exact absurd hcurrent (hjmp f)
    | jsr f => exact absurd hcurrent (hjsr f)
    | _ => rfl
  have hsign (mem : BaseMemory) (pc : BitVec 32) : s.current.immediateSign mem pc = false := by
    cases hcurrent : s.current with
    | tst f =>
      rw [hcurrent] at himm
      exact decide_eq_false fun h => of_decide_eq_false himm h.1
    | _ => rfl
  refine ⟨?_, ?_, ?_, ?_⟩ <;> rw [object_form]
  · exact hoperands
  · rw [CPUState.form, hsizes]
    exact fits_indexSizesAt _ _ _
  · exact hsizes
  · intro mem pc
    rw [CPUState.form, hsign, hsign]

theorem sameShape_of_printsAlike (h : PrintsAlike s t) (hbcc : ∀ f, s.current ≠ .bcc f) :
    s.current.SameShape t.current ∧ s.current.testsImmediate = t.current.testsImmediate := by
  obtain ⟨-, -, -, text, u, v, hs, ht⟩ := h
  have hline := line_eq_of_text (listCurrent_eq_ok hs).1 (listCurrent_eq_ok ht).1
  refine ⟨sameShape_of_line (regular_current s) (valid_current s) (regular_current t)
    (valid_current t) hbcc (ne_bcc_of_line hbcc hline) hline, ?_⟩
  rw [Bool.eq_iff_iff, testsImmediate_iff _ (regular_current s) (valid_current s), hline,
    ← testsImmediate_iff _ (regular_current t) (valid_current t)]

theorem alike_form (h : PrintsAlike s t) (hoperands : s.current.operandList ≠ [])
    (himm : s.current.testsImmediate = false) (hjmp : ∀ f, s.current ≠ .jmp f)
    (hjsr : ∀ f, s.current ≠ .jsr f) : s.form.Alike t.form := by
  have hbcc (f : BccOperand) : s.current ≠ .bcc f := by
    intro hf
    rw [hf] at hoperands
    exact hoperands rfl
  obtain ⟨hshape, htests⟩ := sameShape_of_printsAlike h hbcc
  have hname := hshape.name
  refine ⟨sampled_form hoperands himm hjmp hjsr, sampled_form (hshape.operandList_ne_nil hoperands)
    (htests ▸ himm) ?_ ?_, ?_⟩
  · intro f hf
    rw [hf] at hname
    cases hs : s.current <;> rw [hs] at hname <;> cases hname
    exact hjmp _ hs
  · intro f hf
    rw [hf] at hname
    cases hs : s.current <;> rw [hs] at hname <;> cases hname
    exact hjsr _ hs
  · rwa [object_form, object_form]

end Printed

/-! ### The registers of a sample -/

/-- `D0` leads out of memory, and the address registers lead to its middle. -/
def reachRegs (i : ℕ) : BitVec 32 :=
  if i = regPC then 0xC000 else if i = 0 then 0x800000 else if 8 ≤ i ∧ i < 16 then 0x10000 else 0

section Reach

variable {a b : Form} {firsts : List Bool} {fill : ℕ → BitVec 8} {size : DataSize}

theorem reg_sample_reach {r : ℕ} (hr : r < 16) {opcode : BitVec 16} {extension : List (BitVec 16)} :
    (M68kEmu.sample opcode extension reachRegs fill).pastExtWord.reg r = reachRegs r := by
  have huser : Registers.supervisor ⟨reachRegs⟩ = false := rfl
  have hbank : (M68kEmu.sample opcode extension reachRegs fill).registers.bank r = r :=
    if_neg fun h => by cases huser.symm.trans h.2
  rw [CPUState.pastExtWord, CPUState.reg_withReg_of_ne named_regPC (named_of_lt hr)
    (ne_regPC_of_lt hr), CPUState.reg, hbank]
  rfl

theorem inReach_sample (a : Form) (firsts : List Bool) (fill : ℕ → BitVec 8) (size : DataSize) :
    InReach a.object.operandList (firsts.zip a.indexSizes) 0 (sampleBase + 2) size
      (a.sample firsts reachRegs fill).pastExtWord := by
  have haddress {r : ℕ} (h8 : 8 ≤ r) (h16 : r < 16) :
      ((a.sample firsts reachRegs fill).pastExtWord.reg r).toNat = 0x10000 := by
    have hne : r ≠ 0 ∧ r ≠ regPC := ⟨by omega, ne_regPC_of_lt h16⟩
    rw [Form.sample, reg_sample_reach h16, reachRegs, if_neg hne.2, if_neg hne.1, if_pos ⟨h8, h16⟩]
    rfl
  refine ⟨?_, ?_, ?_, by decide, by decide, by decide, ?_, ?_, fun r h8 h16 => ?_,
    fun r h8 h16 => ?_, fun _ r h8 h16 => ?_⟩
  · exact hasWords_extension
  · exact memSize_sampleMemory _ _
  · rw [reg_pastExtWord, Form.sample, reg_sample rfl]
    decide
  · rw [Form.sample, reg_sample_reach (by decide)]
    rfl
  · rw [Form.sample, reg_sample_reach (by decide)]
    rfl
  all_goals rw [haddress h8 h16]

/-- Data outside of the encoding is that of the filling. -/
theorem read_sampleMemory {words : List (BitVec 16)} {a : BitVec 32} (h : Safe size a)
    (hwords : words.length ≤ 16) :
    (sampleMemory words fill).read a size = readRealMem fill a.toNat size := by
  have hhigh := h.high
  have hbytes : size.bytes ≤ 4 := by cases size <;> decide
  rw [BaseMemory.read, maskAddr_eq_mod, Nat.mod_eq_of_lt (by omega)]
  refine readRealMem_congr fun i hlow hhigh => sampleMemory_outside ?_
  obtain hout | hout := h.outside <;> omega

theorem length_words_le (d : Derived) (ps : Plan) (opcode : BitVec 16) :
    (opcode :: sampleExtension d.operandList ps).length ≤ 16 := by
  have hle :=
    (length_sampleExtension_le d.operandList ps).trans
      (Nat.mul_le_mul_left 2 d.length_operandList_le)
  rw [List.length_cons]
  omega

theorem operandReads_eq_nil {os : List Operand} (h : ∀ o ∈ os, ∀ u, o.dataRead u = none)
    (u : CPUState BaseMemory) : operandReads os u = [] := by
  induction os generalizing u with
  | nil => rfl
  | cons o os ih =>
    rw [operandReads, h o List.mem_cons_self u]
    rcases o.getData u with ⟨_, t⟩ | ⟨_, _⟩
    · exact ih (fun q hq => h q (List.mem_cons_of_mem o hq)) t
    · rfl

theorem dataReads_subset {d : Derived} (hoperands : d.operandList ≠ []) (u : CPUState BaseMemory) :
    ∀ r ∈ d.dataReads u, r ∈ operandReads d.operandList u.pastExtWord := by
  intro r hr
  cases d with
  | bitShift f =>
    rw [Derived.dataReads] at hr
    split_ifs at hr
    · exact absurd hr List.not_mem_nil
    · exact hr
  | unlk addrReg => exact absurd rfl hoperands
  | _ => exact hr

/-- The data of the samples is the same. -/
theorem Form.Alike.sameInput (h : Form.Alike a b)
    (hlength : firsts.length = a.object.operandList.length) :
    SameInput (a.sample firsts reachRegs fill) (b.sample firsts reachRegs fill) := by
  obtain ⟨size, hsound⟩ := Derived.exists_sound a.valid a.regular
  intro r hr hacc
  rw [Form.current_sample rfl] at hr
  replace hr := dataReads_subset h.left.operands _ r hr
  by_cases haddress : a.object.TakesAddress
  · rw [operandReads_eq_nil] at hr
    · exact absurd hr List.not_mem_nil
    · cases hobject : a.object with
      | lea f =>
        intro o ho u
        obtain rfl | rfl := List.mem_pair.1 ho <;> rfl
      | pea f | jmp f | jsr f =>
        intro o ho u
        rw [List.mem_singleton.1 ho]
        rfl
      | _ => rw [hobject] at haddress; cases haddress
  · have hle := a.object.length_operandList_le
    obtain hsafe | hfar :=
      (inReach_sample a firsts fill size).reads hsound (Derived.chain_operandList haddress)
      (h.left.fits_zip hlength) (by omega) r hr
    · refine (read_sampleMemory hsafe ?_).trans (read_sampleMemory hsafe ?_).symm
      · exact length_words_le _ _ _
      · exact length_words_le _ _ _
    · exact absurd hacc hfar

/-- Samples whose steps are not alike. -/
theorem Form.Alike.separable (h : Form.Alike a b) (fill : ℕ → BitVec 8)
    (hlength : firsts.length = a.object.operandList.length)
    (hsteps : ¬StepsAlike (a.sample firsts reachRegs fill) (b.sample firsts reachRegs fill)) :
    a.Separable b :=
  ⟨_, _, h.left.form_sample rfl hlength, h.right.form_sample rfl (hlength.trans h.shape.length_eq),
    h.printsAlike rfl hlength, h.sameInput hlength, hsteps⟩

end Reach

/-! ### Registers with one value -/

/-- All registers but the program counter and the status have one value. -/
def constantRegs (v status : BitVec 32) (i : ℕ) : BitVec 32 :=
  if i = regPC then 0xC000 else if i = regSR then status else v

section Constant

variable {a b : Form} {firsts : List Bool} {fill : ℕ → BitVec 8} {v status : BitVec 32}

theorem reg_sample_constant (hstatus : status.getLsbD 13 = false) {r : ℕ} (hr : r < 16) :
    (a.sample firsts (constantRegs v status) fill).pastExtWord.reg r = v := by
  have huser : Registers.supervisor ⟨constantRegs v status⟩ = false := hstatus
  have hbank : (a.sample firsts (constantRegs v status) fill).registers.bank r = r :=
    if_neg fun h => by cases huser.symm.trans h.2
  rw [CPUState.pastExtWord, CPUState.reg_withReg_of_ne named_regPC (named_of_lt hr)
    (ne_regPC_of_lt hr), CPUState.reg, hbank]
  exact (if_neg (ne_regPC_of_lt hr)).trans (if_neg (by unfold regSR; omega))

/-- Samples whose operands are in registers, and whose steps are not alike. -/
theorem Form.Alike.separable_of_direct (h : Form.Alike a b) (firsts : List Bool)
    (hlength : firsts.length = a.object.operandList.length)
    (hdirect : ∀ o ∈ a.object.operandList, o.mode = .directData ∨ o.mode = .directAddr)
    (hsteps : ¬StepsAlike (a.sample firsts (constantRegs v status) fill)
      (b.sample firsts (constantRegs v status) fill)) : a.Separable b := by
  refine ⟨_, _, h.left.form_sample rfl hlength,
    h.right.form_sample rfl (hlength.trans h.shape.length_eq),
    h.printsAlike rfl hlength, fun r hr => ?_, hsteps⟩
  rw [Form.current_sample rfl] at hr
  replace hr := dataReads_subset h.left.operands _ r hr
  rw [operandReads_eq_nil] at hr
  · exact absurd hr List.not_mem_nil
  · intro o ho u
    have hmode := hdirect o ho
    obtain ⟨use, mode, reg, size⟩ := o
    obtain rfl | rfl := hmode <;> cases use <;> rfl

end Constant

/-! ### Steps that are not alike -/

section Unlike

variable {s t u v : CPUState BaseMemory} {e : Fault}

/-- A step that returns is not like one that throws. -/
theorem not_stepsAlike_of_throws (hs : step s = .ok () u) (ht : step t = .error e v) :
    ¬StepsAlike s t ∧ ¬StepsAlike t s := by
  constructor
  · rintro (⟨_, _, _, -, ht', -⟩ | ⟨_, _, _, hs', -⟩)
    · cases ht.symm.trans ht'
    · cases hs.symm.trans hs'
  · rintro (⟨_, _, _, ht', -⟩ | ⟨_, _, _, -, hs', -⟩)
    · cases ht.symm.trans ht'
    · cases hs.symm.trans hs'

/-- Steps that leave different registers are not alike. -/
theorem not_stepsAlike_of_register {i : ℕ} (hs : step s = .ok () u) (ht : step t = .ok () v)
    (hi : i ≠ regPC) (h : u.registers.regBuffer i ≠ v.registers.regBuffer i) : ¬StepsAlike s t := by
  rintro (⟨_, _, _, hs', ht', hagrees, -⟩ | ⟨_, _, _, hs', -⟩)
  · obtain ⟨-, rfl⟩ := EStateM.Result.ok.inj (hs.symm.trans hs')
    obtain ⟨-, rfl⟩ := EStateM.Result.ok.inj (ht.symm.trans ht')
    exact h (hagrees i hi).symm
  · cases hs.symm.trans hs'

/-- Steps that leave different flags are not alike. -/
theorem not_stepsAlike_of_flag (flag : StatusRegisterFlag) (hs : step s = .ok () u)
    (ht : step t = .ok () v) (h : u.registers.getFlag flag ≠ v.registers.getFlag flag) :
    ¬StepsAlike s t := by
  refine not_stepsAlike_of_register hs ht (i := regSR) (by decide) fun hsame => h ?_
  rw [Registers.getFlag, Registers.getFlag, hsame]

theorem not_stepsAlike_of_reg {r : ℕ} (hs : step s = .ok () u)
    (ht : step t = .ok () v) (hr : r < 16) (h : u.reg r ≠ v.reg r) : ¬StepsAlike s t := by
  rintro (⟨_, _, _, hs', ht', hagrees, -⟩ | ⟨_, _, _, hs', -⟩)
  · obtain ⟨-, rfl⟩ := EStateM.Result.ok.inj (hs.symm.trans hs')
    obtain ⟨-, rfl⟩ := EStateM.Result.ok.inj (ht.symm.trans ht')
    refine h (hagrees.reg (by decide) ?_).symm
    obtain hbank | ⟨-, hbank⟩ := u.registers.bank_cases r <;> rw [hbank]
    · exact ne_regPC_of_lt hr
    · decide
  · cases hs.symm.trans hs'

/-- Steps that leave different data outside of the encodings are not alike. -/
theorem not_stepsAlike_of_read (addr : ℕ) (size : DataSize) (hs : step s = .ok () u)
    (ht : step t = .ok () v)
    (houtside : ∀ i, addr ≤ i → i < addr + size.bytes → ¬(s.Encoded i ∨ t.Encoded i))
    (h : readRealMem u.memory.baseAddr addr size ≠ readRealMem v.memory.baseAddr addr size) :
    ¬StepsAlike s t := by
  rintro (⟨_, _, _, hs', ht', -, -, hagrees⟩ | ⟨_, _, _, hs', -⟩)
  · obtain ⟨-, rfl⟩ := EStateM.Result.ok.inj (hs.symm.trans hs')
    obtain ⟨-, rfl⟩ := EStateM.Result.ok.inj (ht.symm.trans ht')
    exact h (readRealMem_congr fun i hlow hhigh => hagrees i (houtside i hlow hhigh))
  · cases hs.symm.trans hs'

end Unlike

end M68kEmu
