import M68kEmu.Program.Sort

/-!
# The test `benchmark`

`main` calls `bubblesort` and `bubblesort_reverse` in turn, ten times altogether; its counter is at
`-4(a6)`. `Rounds` is what holds in every round, and `Ordered` what a call establishes.
-/

namespace M68kEmu

open BubbleSort ConditionCodes Refine

/-- The function `main`, behind the two functions, up to the loop at its end. -/
def benchmarkMain : List (BitVec 16) :=
  [0x4E56, 0xFFFC,          -- 160  link a6, #-4
   0x42AE, 0xFFFC,          -- 164  clr.l -4(a6)
   0x6032,                  -- 168  bra 19c
   0x7001,                  -- 16a  moveq #1, d0
   0xC0AE, 0xFFFC,          -- 16c  and.l -4(a6), d0
   0x6614,                  -- 170  bne 186
   0x4878, 0x03E8,          -- 172  pea 1000
   0x4879, 0x0000, 0x3000,  -- 176  pea $3000
   0x4EB9, 0x0001, 0x0000,  -- 17c  jsr $10000
   0x508F,                  -- 182  addq.l #8, a7
   0x6012,                  -- 184  bra 198
   0x4878, 0x03E8,          -- 186  pea 1000
   0x4879, 0x0000, 0x3000,  -- 18a  pea $3000
   0x4EB9, 0x0001, 0x00B0,  -- 190  jsr $100b0
   0x508F,                  -- 196  addq.l #8, a7
   0x52AE, 0xFFFC,          -- 198  addq.l #1, -4(a6)
   0x7009,                  -- 19c  moveq #9, d0
   0xB0AE, 0xFFFC,          -- 19e  cmp.l -4(a6), d0
   0x6CC6]                  -- 1a2  bge 16a

/-- The three functions. -/
def benchmark : List (BitVec 16) := sortText .ascending ++ (sortText .descending ++ benchmarkMain)

/-- The text of `test/binary/benchmark.elf`; the last word is the loop. -/
def benchmarkText : List (BitVec 16) := benchmark ++ [0x60FE]

/-! The instructions that only this program has. -/

theorem decode_4EB9 : (decode 0x4EB9).derived = .jsr (longDest .absLong 9) := derived_of_entry rfl
theorem decode_6614 : (decode 0x6614).derived = .bcc ⟨.notEqual, 0x14, .byte⟩ :=
  derived_of_entry rfl
theorem decode_6012 : (decode 0x6012).derived = .bcc ⟨.true, 0x12, .byte⟩ := derived_of_entry rfl
theorem decode_6032 : (decode 0x6032).derived = .bcc ⟨.true, 0x32, .byte⟩ := derived_of_entry rfl
theorem decode_6CC6 : (decode 0x6CC6).derived = .bcc ⟨.greaterEqual, 0xC6, .byte⟩ :=
  derived_of_entry rfl
theorem decode_7009 : (decode 0x7009).derived = .moveq (longQuick 9 .directData 0) :=
  derived_of_entry rfl
theorem decode_C0AE :
    (decode 0xC0AE).derived = .and (longBoth .indirectDisplacement 14 .directData 0) :=
  derived_of_entry rfl

/-- The address of a function. -/
def Direction.entry : Direction → ℕ
  | ascending => 0x10000
  | descending => 0x100B0

/-- The function that is called in the round `n`. -/
def roundDirection (n : ℕ) : Direction := if n % 2 = 0 then .ascending else .descending

/-! ### The states of `main` -/

/-- The round `n`; `f` is the table at the start. -/
structure Rounds (f : ℕ → BitVec 32) (n : ℕ) (g : Guest) : Prop where
  text : Loaded g.memory 0x10000 benchmark
  memSize : g.memory.memSize = memorySize
  fp : g.reg 14 = 0xFFFFFC
  sp : g.reg 15 = 0xFFFFF8
  counter : g.memory.long 0xFFFFF8 = BitVec.ofNat 32 n
  rearranged : ∃ f', Rearranged 1000 f f' ∧ ∀ k < 1000, cellsOf 0x3000 g k = f' k

/-- The table is in order. -/
def Ordered (dir : Direction) (g : Guest) : Prop :=
  ∀ a b, a ≤ b → b < 1000 → dir.key (cellsOf 0x3000 g a) ≤ dir.key (cellsOf 0x3000 g b)

section Main

variable {dir : Direction} {f : ℕ → BitVec 32} {n k : ℕ} {g g' : Guest}

theorem length_benchmark : benchmark.length = 210 := by
  rw [benchmark, List.length_append, List.length_append, length_sortText, length_sortText]
  rfl

theorem beyond_benchmarkMain : Beyond 0x101A4 0x10160 benchmarkMain := .inr (by decide)

namespace Rounds

/-- `D0`, `D1`, `A0` and `A1` are free. -/
theorem keep (h : Rounds f n g) (hmem : g'.memory = g.memory) (hfp : g'.reg 14 = g.reg 14)
    (hsp : g'.reg 15 = g.reg 15) : Rounds f n g' where
  text := by rw [hmem]; exact h.text
  memSize := by rw [hmem]; exact h.memSize
  fp := hfp.trans h.fp
  sp := hsp.trans h.sp
  counter := by rw [hmem]; exact h.counter
  rearranged := by unfold cellsOf; rw [hmem]; exact h.rearranged

theorem points (h : Rounds f n g) :
    Points (g.reg 14 + castInt16 ((0xFFFC : BitVec 16).setWidth 32)) 0xFFFFF8 := by
  rw [h.fp]
  rfl

theorem room (h : Rounds f n g) : g.memory.Room 0xFFFFF8 := by
  refine ⟨rfl, ?_⟩
  rw [h.memSize]
  decide

theorem sortText_loaded (h : Rounds f n g) (dir : Direction) :
    Loaded g.memory dir.entry (sortText dir) :=
  match dir with
  | .ascending => h.text.left
  | .descending => h.text.right.left

theorem main_loaded (h : Rounds f n g) : Loaded g.memory 0x10160 benchmarkMain := h.text.right.right

/-- A function can be called. -/
theorem prepared (h : Rounds f n g) (hsmall : ∀ k < 1000, Small (f k)) (dir : Direction) :
    Prepared dir dir.entry 0xFFFFF8 0x3000 1000 g := by
  have htop : memorySize.toNat = 2 ^ 24 := rfl
  obtain ⟨f', hrearranged, hcells⟩ := h.rearranged
  have hentry : dir.entry = 0x10000 ∨ dir.entry = 0x100B0 := by
    cases dir
    · exact .inl rfl
    · exact .inr rfl
  refine ⟨h.sortText_loaded dir, ?_,
    rfl, by decide, ?_, rfl, by decide, ⟨by decide, ?_⟩, .inr (by decide), by omega,
    by omega, fun k hk => ?_⟩
  · rw [h.sp]
    rfl
  · rw [h.memSize, htop]
    omega
  · rw [h.memSize, htop]
    omega
  · rw [hcells k hk]
    exact hrearranged.forall_below hsmall hk

/-- A call rearranges the table. -/
theorem sorted (h : Rounds f n g) (hsorted : Sorted dir 0xFFFFDC 0xFFFFF8 0x3000 1000 g g')
    (hsp : g'.reg 15 = g.reg 15) : Rounds f n g' where
  text := h.text.congr hsorted.memSize fun i hi hi' => by
    rw [length_benchmark] at hi'
    exact hsorted.bytes i (.inl (by omega)) (.inr (by omega))
  memSize := hsorted.memSize.trans h.memSize
  fp := (hsorted.regs 14 (by decide) (by decide) (by decide) (by decide) (by decide)).trans h.fp
  sp := hsp.trans h.sp
  counter := by
    rw [← h.counter]
    exact BaseMemory.long_congr fun i hi _ => hsorted.bytes i (.inr hi) (.inr (by omega))
  rearranged := by
    obtain ⟨f₁, hrearranged₁, hcells₁⟩ := h.rearranged
    obtain ⟨f₂, ⟨σ, hσ, rfl⟩, hcells₂⟩ := hsorted.rearranged
    refine ⟨f₁ ∘ σ, hrearranged₁.trans ⟨σ, hσ, rfl⟩, fun k hk => ?_⟩
    rw [hcells₂ k hk, Function.comp_apply, hcells₁ _ (perm_lt hσ hk), Function.comp_apply]

end Rounds

/-! ### One round -/

/-- One call, with its arguments, at the word `k` of `main`. -/
theorem leads_roundCall {hi lo : BitVec 16} (h : Rounds f n g) (hsmall : ∀ k < 1000, Small (f k))
    (hcode : StandsAt [0x4878, 0x03E8, 0x4879, 0x0000, 0x3000] benchmarkMain k)
    (hjsr : StandsAt [0x4EB9, hi, lo, 0x508F] benchmarkMain (k + 5))
    (hentry : hi.setWidth 32 <<< 16 ||| lo.setWidth 32 = BitVec.ofNat 32 dir.entry) (hk : k < 34) :
    ∃ g', Leads 0x101A4 (g.goto (0x10160 + 2 * k)) g' ∧ g'.pc = 0x10160 + 2 * (k + 9) ∧
    Rounds f n g' ∧ Ordered dir g' := by
  have hstop := beyond_benchmarkMain
  have htop : memorySize.toNat = 2 ^ 24 := rfl
  have hlen : benchmarkMain.length = 34 := rfl
  have hprepared := h.prepared hsmall dir
  have htext := h.main_loaded
  obtain ⟨g₁, run₁, hpc₁, hmem₁, hsp₁, hregs₁⟩ :=
    leads_arguments hstop htext hcode hprepared.sp rfl (by omega)
    hprepared.above (by omega)
  have htext₁ : Loaded g₁.memory 0x10160 benchmarkMain := by
    rw [hmem₁]
    exact (htext.putLong (by omega)).putLong (by omega)
  have hret : Points (g₁.reg 15 - 4) 0xFFFFEC := by
    rw [hsp₁, h.sp]
    rfl
  have hroom : g₁.memory.Room 0xFFFFEC := by
    rw [hmem₁, BaseMemory.room_putLong, BaseMemory.room_putLong]
    refine ⟨rfl, ?_⟩
    rw [h.memSize, htop]
    omega
  have run₂ :=
    run₁.callLong (i := k + 5) hstop htext₁ hpc₁ (hjsr.word 0 rfl) decode_4EB9 (hjsr.word 1 rfl)
    (hjsr.word 2 rfl) hentry hret hroom
  -- the call
  have hpushed :
      ((g₁.withReg 15 (g₁.reg 15 - 4)).putLong 0xFFFFEC
        (BitVec.ofNat 32 (0x10160 + 2 * (k + 5 + 3)))).memory =
      pushed g.memory 0xFFFFF8 0x3000 1000 (BitVec.ofNat 32 (0x10160 + 2 * (k + 5 + 3))) := by
    rw [Guest.memory_putLong, Guest.memory_withReg, hmem₁]
    rfl
  have hbeyond : Beyond 0x101A4 dir.entry (sortText dir) := by
    cases dir <;> exact .inr (by decide)
  obtain ⟨g₂, run₃, hpc₂, hsp₂, hsorted⟩ :=
    hprepared.leads hbeyond hpushed (congrArg (fun v : BitVec 32 => v - 4) hsp₁)
    fun r _ hr => (if_neg hr).trans (hregs₁ r hr)
  have hpc₂' : g₂.pc = 0x10160 + 2 * (k + 8) := by
    rw [hpc₂, BitVec.toNat_ofNat, Nat.mod_eq_of_lt (by omega)]
  have run : Leads 0x101A4 (g.goto (0x10160 + 2 * k)) g₂ := run₂.trans run₃
  have htext₂ : Loaded g₂.memory 0x10160 benchmarkMain :=
    htext.congr hsorted.memSize fun i hi hi' => hsorted.bytes i (.inl (by omega)) (.inr (by omega))
  -- the arguments are taken off the stack
  have run₄ :=
    run.next (i := k + 8) hstop htext₂ hpc₂' (hjsr.word 3 rfl) decode_508F (does_readModifyWrite rfl
    (Turns.pure _ _) (does_getDataSilent_addr (by decide)) (does_setData_addr (by decide))
    (Turns.pure _ _))
  have hsorted' :
      Sorted dir 0xFFFFDC 0xFFFFF8 0x3000 1000 g
      ((g₂.goto (g₂.pc + 2)).withReg 15 (8 + g₂.reg 15)) :=
    { hsorted with
      regs := fun r hr hr₀ hr₁ hr₈ hr₉ =>
        (if_neg (by omega)).trans (hsorted.regs r hr hr₀ hr₁ hr₈ hr₉) }
  exact ⟨_, run₄, congrArg (fun n : ℕ => n + 2) hpc₂', h.sorted hsorted' hsp₂, hsorted.ordered⟩

/-- The low bit of the counter. -/
theorem ofNat_and_one_eq_zero (n : ℕ) : BitVec.ofNat 32 n &&& 1 = 0 ↔ n % 2 = 0 := by
  rw [← BitVec.toNat_inj, BitVec.toNat_and, BitVec.toNat_ofNat]
  change n % 2 ^ 32 &&& 1 = 0 ↔ n % 2 = 0
  rw [Nat.and_one_is_mod]
  omega

/-- The parity of the round. -/
theorem leads_parity (h : Rounds f n g) :
    ∃ g', Leads 0x101A4 (g.goto 0x1016A) g' ∧ g'.pc = (if n % 2 = 0 then 0x10172 else 0x10186) ∧
    Rounds f n g' := by
  have hstop := beyond_benchmarkMain
  have htext := h.main_loaded
  have start : Leads 0x101A4 (g.goto 0x1016A) (g.goto 0x1016A) := .refl
  have run₁ :=
    start.next (i := 5) hstop htext rfl rfl decode_7001
      (does_moveq rfl (does_setData_data (by decide)))
  have run₂ := run₁.next (i := 6) hstop htext rfl rfl decode_C0AE (does_readModifyWrite rfl
    (does_fetchSource (does_getData_displacement (by decide) (htext.codeWord 7 rfl)
      h.points h.room))
    (does_getDataSilent_data (by decide)) (does_setData_data (by decide)) does_setResultFlags)
  have hanswer : Comparison.ne.answer (logicCodes (g.memory.long 0xFFFFF8 &&& 1)) =
      decide (¬n % 2 = 0) := by
    rw [h.counter, Comparison.answer, logicCodes, decide_not]
    exact congrArg not (decide_eq_decide.2 (ofNat_and_one_eq_zero n))
  have run₃ := run₂.branch (i := 8) (d := 20) hstop htext rfl rfl decode_6614 rfl rfl rfl
    (by omega : _ = ((0x10186 : ℕ) : ℤ)) ((ite_of_eq_decide hanswer).trans (ite_not ..))
  exact ⟨_, run₃, rfl, h.keep rfl rfl rfl⟩

/-- The round counter goes up. -/
theorem leads_nextRound (h : Rounds f n g) :
    ∃ g', Leads 0x101A4 (g.goto 0x10198) g' ∧ g'.pc = 0x1019C ∧ Rounds f (n + 1) g' ∧
      ∀ k < 1000, cellsOf 0x3000 g' k = cellsOf 0x3000 g k := by
  have hstop := beyond_benchmarkMain
  have htext := h.main_loaded
  have start : Leads 0x101A4 (g.goto 0x10198) (g.goto 0x10198) := .refl
  have run :=
    start.next (i := 28) hstop htext rfl rfl decode_52AE (does_readModifyWrite rfl (Turns.pure _ _)
    (does_getDataSilent_displacement (by decide) (htext.codeWord 29 rfl) h.points h.room)
    (does_setData_displacement (by decide) (htext.codeWord 29 rfl) h.points h.room)
    does_setArithmeticFlags)
  have hvalue : 1 + g.memory.long 0xFFFFF8 = BitVec.ofNat 32 (n + 1) := by
    rw [h.counter, BitVec.add_comm]
    exact ofNat_add_ofNat n 1
  have hcells (k : ℕ) (hk : k < 1000) :
      (g.memory.putLong 0xFFFFF8 (1 + g.memory.long 0xFFFFF8)).long (0x3000 + 4 * k) =
      cellsOf 0x3000 g k :=
    BaseMemory.long_putLong (by omega)
  refine ⟨_, run, rfl, ⟨h.text.putLong (by rw [length_benchmark]; omega), h.memSize, h.fp, h.sp,
    ?_, ?_⟩, hcells⟩
  · exact BaseMemory.long_putLong_self.trans hvalue
  · obtain ⟨f', hrearranged, hf'⟩ := h.rearranged
    exact ⟨f', hrearranged, fun k hk => (hcells k hk).trans (hf' k hk)⟩

/-- `i < 10` -/
theorem leads_roundTest (h : Rounds f n g) (hn : n ≤ 10) :
    ∃ g', Leads 0x101A4 (g.goto 0x1019C) g' ∧ g'.pc = (if n < 10 then 0x1016A else 0x101A4) ∧
    Rounds f n g' ∧ g'.memory = g.memory := by
  have hstop := beyond_benchmarkMain
  have htext := h.main_loaded
  have start : Leads 0x101A4 (g.goto 0x1019C) (g.goto 0x1019C) := .refl
  have run₁ :=
    start.next (i := 30) hstop htext rfl rfl decode_7009
      (does_moveq rfl (does_setData_data (by decide)))
  have run₂ := run₁.next (i := 31) hstop htext rfl rfl decode_B0AE (does_compareWith rfl
    (does_fetchSource (does_getData_displacement (by decide) (htext.codeWord 32 rfl)
      h.points h.room)) (does_getData_data (by decide)))
  have hanswer :
    Comparison.sge.answer
      (arithmeticCodes (g.memory.long 0xFFFFF8) 9 (9 - g.memory.long 0xFFFFF8)) =
      decide (n < 10) := by
    rw [h.counter, answer_of_small (small_ofNat (by omega)) (by decide) .sge (.inl rfl)]
    refine decide_eq_decide.2 ?_
    rw [toInt_ofNat_of_lt (by omega)]
    change (n : ℤ) ≤ 9 ↔ n < 10
    omega
  have run₃ := run₂.branch (i := 33) (d := -58) hstop htext rfl rfl decode_6CC6 rfl rfl rfl
    (by omega : _ = ((0x1016A : ℕ) : ℤ)) (ite_of_eq_decide hanswer)
  exact ⟨_, run₃, rfl, h.keep rfl rfl rfl, rfl⟩

/-- One round, from test to test. -/
theorem leads_round (h : Rounds f n g) (hsmall : ∀ k < 1000, Small (f k)) (hn : n < 10) :
    ∃ g', Leads 0x101A4 (g.goto 0x1019C) g' ∧ g'.pc = 0x1019C ∧ Rounds f (n + 1) g' ∧
      Ordered (roundDirection n) g' := by
  obtain ⟨g₁, run₁, hpc₁, h₁, -⟩ := leads_roundTest h (by omega)
  rw [if_pos hn] at hpc₁
  obtain ⟨g₂, run₂, hpc₂, h₂⟩ := leads_parity h₁
  obtain ⟨g₃, run₃, hpc₃, h₃, hordered⟩ : ∃ g₃, Leads 0x101A4 g₂ g₃ ∧ g₃.pc = 0x10198 ∧
      Rounds f n g₃ ∧ Ordered (roundDirection n) g₃ := by
    unfold roundDirection
    split_ifs at hpc₂ ⊢
    · obtain ⟨g₃, run₃, hpc₃, h₃, hordered⟩ := leads_roundCall (k := 9) h₂ hsmall ⟨_, rfl⟩ ⟨_, rfl⟩
        (by decide : _ = BitVec.ofNat 32 Direction.ascending.entry) (by omega)
      rw [Guest.goto_self hpc₂] at run₃
      have run₄ :=
        run₃.always (i := 18) (d := 18) beyond_benchmarkMain h₃.main_loaded hpc₃ rfl
          decode_6012 rfl rfl rfl (by omega : _ = ((0x10198 : ℕ) : ℤ))
      exact ⟨_, run₄, rfl, h₃.keep rfl rfl rfl, hordered⟩
    · obtain ⟨g₃, run₃, hpc₃, h₃, hordered⟩ := leads_roundCall (k := 19) h₂ hsmall ⟨_, rfl⟩ ⟨_, rfl⟩
        (by decide : _ = BitVec.ofNat 32 Direction.descending.entry) (by omega)
      rw [Guest.goto_self hpc₂] at run₃
      exact ⟨g₃, run₃, hpc₃, h₃, hordered⟩
  obtain ⟨g₄, run₄, hpc₄, h₄, hcells⟩ := leads_nextRound h₃
  have run : Leads 0x101A4 (g.goto 0x1019C) g₃ := (run₁.andThen hpc₁ run₂).trans run₃
  refine ⟨g₄, run.andThen hpc₃ run₄, hpc₄, h₄, fun a b hab hb => ?_⟩
  rw [hcells a (by omega), hcells b hb]
  exact hordered a b hab hb

/-- The program, from the entry of `main` to the loop at its end. -/
theorem leads_benchmark (htext : Loaded g.memory 0x10000 benchmark)
    (hsize : g.memory.memSize = memorySize)
    (hsp : g.reg 15 = memorySize) (hsmall : ∀ k < 1000, Small (cellsOf 0x3000 g k)) :
    ∃ g', Leads 0x101A4 (g.goto 0x10160) g' ∧ g'.pc = 0x101A4 ∧ Rounds (cellsOf 0x3000 g) 10 g' ∧
      Ordered .descending g' := by
  have hstop := beyond_benchmarkMain
  have hmain : Loaded g.memory 0x10160 benchmarkMain := htext.right.right
  obtain ⟨g₁, run₁, hpc₁, hmem₁, hfp₁, hsp₁⟩ :=
    leads_linkMain (k := 0) hstop hmain ⟨_, rfl⟩ hsize hsp
    (rfl : castInt16 ((0xFFFC : BitVec 16).setWidth 32) = -4)
  -- after `link`, the counter is whatever the memory held
  have hsp₁' : g₁.reg 15 = 0xFFFFF8 := by
    rw [hsp₁]
    decide
  have hsize₁ : g₁.memory.memSize = memorySize := by
    rw [hmem₁]
    exact hsize
  have htext₁ : Loaded g₁.memory 0x10000 benchmark := by
    rw [hmem₁]
    exact htext.putLong (by rw [length_benchmark]; omega)
  have hcells₁ (k : ℕ) (hk : k < 1000) : cellsOf 0x3000 g₁ k = cellsOf 0x3000 g k := by
    rw [cellsOf, hmem₁, BaseMemory.long_putLong (by omega)]
    rfl
  have hpoints : Points (g₁.reg 14 + castInt16 ((0xFFFC : BitVec 16).setWidth 32)) 0xFFFFF8 := by
    rw [hfp₁]
    rfl
  have hroom : g₁.memory.Room 0xFFFFF8 := by
    refine ⟨rfl, ?_⟩
    rw [hsize₁]
    decide
  have hmain₁ : Loaded g₁.memory 0x10160 benchmarkMain := htext₁.right.right
  have hword : CodeWord g₁.memory (g₁.pc + 2) 0xFFFC := by
    rw [hpc₁]
    exact hmain₁.codeWord 3 rfl
  have run₂ := run₁.next (i := 2) hstop hmain₁ hpc₁ rfl decode_42AE (does_clr rfl
    (does_setData_displacement (by decide) hword hpoints hroom))
  have h₂ : Rounds (cellsOf 0x3000 g) 0 (g₁.putLong 0xFFFFF8 0) := by
    refine ⟨htext₁.putLong (by rw [length_benchmark]; omega), hsize₁, hfp₁, hsp₁',
      BaseMemory.long_putLong_self, _, .refl _ _, fun k hk => ?_⟩
    rw [← hcells₁ k hk]
    exact BaseMemory.long_putLong (by omega)
  have run₃ :=
    run₂.always (i := 4) (d := 50) hstop h₂.main_loaded (congrArg (fun n : ℕ => n + 4) hpc₁)
      rfl decode_6032 rfl rfl rfl (by omega : _ = ((0x1019C : ℕ) : ℤ))
  -- the rounds
  obtain ⟨g₄, run₄, hpc₄, h₄, hordered⟩ := path_upTo (n := 10)
    (g := ((g₁.putLong 0xFFFFF8 0).withCodes (logicCodes 0)).goto 0x1019C)
    (I := fun n g' => g'.pc = 0x1019C ∧ Rounds (cellsOf 0x3000 g) n g' ∧
      (0 < n → Ordered (roundDirection (n - 1)) g')) (fun n hn g' hg' => by
      obtain ⟨hpc, h, -⟩ := hg'
      obtain ⟨g'', run, hpc', h', hordered⟩ := leads_round h hsmall hn
      rw [Guest.goto_self hpc] at run
      exact ⟨g'', run, hpc', h', fun _ => hordered⟩)
    ⟨rfl, h₂.keep rfl rfl rfl, fun h => absurd h (lt_irrefl 0)⟩
  obtain ⟨g₅, run₅, hpc₅, h₅, hmem₅⟩ := leads_roundTest h₄ le_rfl
  rw [if_neg (lt_irrefl _)] at hpc₅
  have run : Leads 0x101A4 (g.goto 0x10160) g₄ := run₃.trans run₄
  refine ⟨g₅, run.andThen hpc₄ run₅, hpc₅, h₅, ?_⟩
  have hlast : Ordered .descending g₄ := hordered (by decide)
  unfold Ordered cellsOf at hlast ⊢
  rw [hmem₅]
  exact hlast

end Main

/-- The test `test_benchmark.cpp`, for any table: whatever the memory and the registers held before,
`load_elf` loads the program, the loop of the test ends, and the table is in descending order. -/
theorem benchmark_test (load : String → Option ElfFile) (fileName : String) (file : ElfFile)
    (data : ℕ → BitVec 8)
    (hload : load fileName = some file) (hheader : file.Supported) (hsep : Separated file.sections)
    (htext : file.Carries 0x10000 422 (textByte benchmarkText))
    (hdata : file.Carries 0x3000 4000 data)
    (hrange : ∀ k < 1000, (readRealMem data (4 * k) .long).toNat < 2 ^ 30)
    (hentry : file.entry = 0x10160)
    (s : CPUState BaseMemory) (hsize : s.memory.memSize = memorySize) :
    ∃ t u, loadElf load fileName s = .ok true t ∧ Run step (fun v => v.reg regPC = 0x101A4) t u ∧
      u.reg regPC = 0x101A4 ∧ ∃ table : ℕ → BitVec 32,
        (∀ k < 1000, memGet (BitVec.ofNat 32 (0x3000 + 4 * k)) .long u = .ok (table k) u) ∧
        (∀ a b, a ≤ b → b < 1000 → (table b).toNat ≤ (table a).toNat) ∧
        ∃ σ : Equiv.Perm ℕ, (∀ k, 1000 ≤ k → σ k = k) ∧ ∀ k < 1000,
        table k = readRealMem data (4 * σ k) .long := by
  obtain ⟨t, hstart, hstarted⟩ := loadElf_started hload hheader hsep hsize
  have hlen : 2 * benchmarkText.length = 422 := by
    rw [benchmarkText, List.length_append, length_benchmark]
    rfl
  have hloaded : Loaded t.memory 0x10000 benchmarkText :=
    hstarted.loaded (by rw [hlen]; exact htext) (by decide) (by rw [hlen]; decide)
  have hcells (k : ℕ) (hk : k < 1000) : cellsOf 0x3000 t.guest k = readRealMem data (4 * k) .long :=
    hstarted.cells hdata hk
  have hsmall (k : ℕ) (hk : k < 1000) : Small (cellsOf 0x3000 t.guest k) := by
    rw [hcells k hk]
    exact small_of_lt (hrange k hk)
  obtain ⟨g, hleads, hpc, hend, hordered⟩ :=
    leads_benchmark (g := t.guest) hloaded.left hstarted.memSize hstarted.sp hsmall
  have hstartpc : t.reg regPC = BitVec.ofNat 32 0x10160 := by
    rw [hstarted.pc, hentry]
    rfl
  obtain ⟨u, hrun, hdone, hu⟩ := hleads.returns hstartpc hpc
  obtain ⟨f, ⟨σ, hσ, rfl⟩, hrearranged⟩ := hend.rearranged
  have htable (k : ℕ) (hk : k < 1000) : cellsOf 0x3000 g k = readRealMem data (4 * σ k) .long := by
    rw [hrearranged k hk, Function.comp_apply, hcells _ (perm_lt hσ hk)]
  refine ⟨t, u, hstart, hrun, hdone, cellsOf 0x3000 g, fun k hk =>
    hu.memGet_cell hend.memSize rfl (by omega), fun a b hab hb => ?_, σ, hσ, htable⟩
  have hle : -(cellsOf 0x3000 g a).toInt ≤ -(cellsOf 0x3000 g b).toInt := hordered a b hab hb
  rw [htable a (by omega), htable b hb] at hle ⊢
  rw [toInt_of_lt (hrange _ (perm_lt hσ (by omega))), toInt_of_lt (hrange _ (perm_lt hσ hb))] at hle
  omega

/-- The bytes of a table that counts up from zero, four an entry. -/
def countingByte (i : ℕ) : BitVec 8 :=
  writeRealMem (fun _ => 0) (4 * (i / 4)) (BitVec.ofNat 32 (i / 4)) .long i

theorem readRealMem_countingByte (k : ℕ) :
    readRealMem countingByte (4 * k) .long = BitVec.ofNat 32 k := by
  have hentry : ∀ i, 4 * k ≤ i → i < 4 * k + DataSize.long.bytes →
      countingByte i = writeRealMem (fun _ => 0) (4 * k) (BitVec.ofNat 32 k) .long i := by
    intro i hi hlt
    have hdiv : i / 4 = k := by
      change i < 4 * k + 4 at hlt
      omega
    rw [countingByte, hdiv]
  rw [readRealMem_congr hentry]
  exact readRealMem_writeRealMem

/-- The text of `test/binary/benchmark.elf`, and a table in ascending order. -/
def benchmarkFile : ElfFile :=
  executable 0x10160
    [⟨ptLoad, 6, 0x10000, 422, textByte benchmarkText⟩, ⟨ptLoad, 3, 0x3000, 4000, countingByte⟩]

/-- The ascending table is turned over: the largest entry ends in the first cell and the
smallest in the last. -/
theorem benchmark_test_counting :
    ∃ t u, loadElf (fun _ => some benchmarkFile) "benchmark.elf" ⟨simpleMemory fun _ => 0xFF,
      ⟨fun _ => 0⟩⟩ = .ok true t ∧ Run step (fun v => v.reg regPC = 0x101A4) t u ∧
      memGet 0x3000 .long u = .ok 999 u ∧ memGet 0x3F9C .long u = .ok 0 u := by
  have hsep : Separated benchmarkFile.sections :=
    separated_pair (by decide) (by decide) (.inr (by decide))
  have hrange : ∀ k < 1000, (readRealMem countingByte (4 * k) .long).toNat < 2 ^ 30 := by
    intro k hk
    rw [readRealMem_countingByte, BitVec.toNat_ofNat]
    omega
  obtain ⟨t, u, hload, hrun, -, table, hget, hordered, σ, hσ, htable⟩ :=
    benchmark_test (fun _ => some benchmarkFile) "benchmark.elf" benchmarkFile countingByte rfl
      ⟨rfl, rfl, rfl, rfl⟩ hsep ⟨_, List.mem_cons_self, rfl, rfl, rfl, fun _ _ => rfl⟩
      ⟨_, List.mem_cons_of_mem _ List.mem_cons_self, rfl, rfl, rfl, fun _ _ => rfl⟩ hrange rfl
      ⟨simpleMemory fun _ => 0xFF, ⟨fun _ => 0⟩⟩ rfl
  have hcell (k : ℕ) (hk : k < 1000) : table k = BitVec.ofNat 32 (σ k) ∧ (table k).toNat = σ k := by
    have hlt := perm_lt hσ hk
    rw [htable k hk, readRealMem_countingByte, BitVec.toNat_ofNat]
    exact ⟨rfl, by omega⟩
  -- every entry is in some cell
  have hfrom (n : ℕ) (hn : n < 1000) : ∃ k < 1000, σ k = n := by
    refine ⟨σ.symm n, ?_, σ.apply_symm_apply n⟩
    by_contra hge
    have hfix := hσ _ (Nat.not_lt.1 hge)
    rw [σ.apply_symm_apply] at hfix
    omega
  refine ⟨t, u, hload, hrun, ?_, ?_⟩
  · obtain ⟨k, hk, hlargest⟩ := hfrom 999 (by decide)
    have hle := hordered 0 k (Nat.zero_le k) hk
    have hlt := perm_lt hσ (by decide : 0 < 1000)
    rw [(hcell k hk).2, (hcell 0 (by decide)).2, hlargest] at hle
    have hfirst : σ 0 = 999 := by omega
    have hvalue := (hcell 0 (by decide)).1
    rw [hfirst] at hvalue
    exact (hget 0 (by decide)).trans (congrArg (EStateM.Result.ok · u) hvalue)
  · obtain ⟨k, hk, hsmallest⟩ := hfrom 0 (by decide)
    have hle := hordered k 999 (by omega) (by decide)
    rw [(hcell k hk).2, (hcell 999 (by decide)).2, hsmallest] at hle
    have hlast : σ 999 = 0 := by omega
    have hvalue := (hcell 999 (by decide)).1
    rw [hlast] at hvalue
    exact (hget 999 (by decide)).trans (congrArg (EStateM.Result.ok · u) hvalue)

end M68kEmu
