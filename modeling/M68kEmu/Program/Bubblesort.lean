import M68kEmu.Program.Sort

/-!
# The test `bubblesort`

`main` calls the function `bubblesort` once.
-/

namespace M68kEmu

open BubbleSort Refine

/-- The function `main`, behind the function `bubblesort`, up to the loop at its end. -/
def bubblesortMain : List (BitVec 16) :=
  [0x4E56, 0x0000,          -- b0  link a6, #0
   0x4878, 0x001E,          -- b4  pea 30
   0x4879, 0x0000, 0x3000,  -- b8  pea $3000
   0x4EBA, 0xFF40,          -- be  jsr 0(pc)
   0x508F]                  -- c2  addq.l #8, a7

/-- The text of `test/binary/bubblesort.elf`; the last word is the loop. -/
def bubblesortText : List (BitVec 16) := (sortText .ascending ++ bubblesortMain) ++ [0x60FE]

section Main

variable {g : Guest}

theorem beyond_bubblesortMain : Beyond 0x100C4 0x10000 (sortText .ascending ++ bubblesortMain) :=
  .inr (by decide)

/-- The program, from the entry of `main` to the loop at its end. -/
theorem leads_bubblesort (htext : Loaded g.memory 0x10000 (sortText .ascending ++ bubblesortMain))
    (hsize : g.memory.memSize = memorySize) (hsp : g.reg 15 = memorySize)
    (hsmall : ∀ k < 30, Small (cellsOf 0x3000 g k)) :
    ∃ g', Leads 0x100C4 (g.goto 0x100B0) g' ∧ g'.pc = 0x100C4 ∧ g'.memory.memSize = memorySize ∧
      (∀ a b, a ≤ b → b < 30 → (cellsOf 0x3000 g' a).toInt ≤ (cellsOf 0x3000 g' b).toInt) ∧
      ∃ σ : Equiv.Perm ℕ, (∀ k, 30 ≤ k → σ k = k) ∧
      ∀ k < 30, cellsOf 0x3000 g' k = cellsOf 0x3000 g (σ k) := by
  have hstop := beyond_bubblesortMain
  have htop : memorySize.toNat = 2 ^ 24 := rfl
  have hlen : (sortText .ascending ++ bubblesortMain).length = 98 := rfl
  obtain ⟨g₁, run₁, hpc₁, hmem₁, -, hsp₁⟩ := leads_linkMain (k := 88) hstop htext ⟨_, rfl⟩ hsize hsp
    (rfl : castInt16 ((0x0000 : BitVec 16).setWidth 32) = 0)
  have hsize₁ : g₁.memory.memSize = memorySize := by
    rw [hmem₁]
    exact hsize
  have hcells₁ (k : ℕ) (hk : k < 30) : cellsOf 0x3000 g₁ k = cellsOf 0x3000 g k := by
    rw [cellsOf, hmem₁, BaseMemory.long_putLong (by omega)]
    rfl
  have htext₁ : Loaded g₁.memory 0x10000 (sortText .ascending ++ bubblesortMain) := by
    rw [hmem₁]
    exact htext.putLong (by omega)
  have hprepared : Prepared .ascending 0x10000 0xFFFFFC 0x3000 30 g₁ := by
    refine ⟨htext₁.left, ?_,
      rfl, by decide, ?_, rfl, by decide, ⟨by decide, ?_⟩, .inr (by decide), .inl (by decide),
      .inr (by decide), fun k hk => ?_⟩
    · rw [hsp₁]
      rfl
    · rw [hsize₁, htop]
      omega
    · rw [hsize₁, htop]
      omega
    · rw [hcells₁ k hk]
      exact hsmall k hk
  obtain ⟨g₂, run₂, hpc₂, hmem₂, hsp₂, hregs₂⟩ :=
    leads_arguments (k := 90) hstop htext₁ ⟨_, rfl⟩ hprepared.sp rfl
    (by omega) hprepared.above (by omega)
  have htext₂ : Loaded g₂.memory 0x10000 (sortText .ascending ++ bubblesortMain) := by
    rw [hmem₂]
    exact (htext₁.putLong (by omega)).putLong (by omega)
  have hret : Points (g₂.reg 15 - 4) 0xFFFFF0 := by
    rw [hsp₂, hsp₁]
    rfl
  have hroom : g₂.memory.Room 0xFFFFF0 := by
    rw [hmem₂, BaseMemory.room_putLong, BaseMemory.room_putLong]
    refine ⟨rfl, ?_⟩
    rw [hsize₁, htop]
    omega
  have run₃ :=
    (run₁.andThen hpc₁ run₂).call (i := 95) (d := -192) hstop htext₂ hpc₂ rfl decode_4EBA rfl rfl
    (by omega : _ = ((0x10000 : ℕ) : ℤ)) hret hroom
  -- the call
  have hpushed : ((g₂.withReg 15 (g₂.reg 15 - 4)).putLong 0xFFFFF0 0x100C2).memory =
      pushed g₁.memory 0xFFFFFC 0x3000 30 0x100C2 := by
    rw [Guest.memory_putLong, Guest.memory_withReg, hmem₂]
    rfl
  have hbeyond : Beyond 0x100C4 0x10000 (sortText .ascending) := .inr (by decide)
  obtain ⟨g₃, run₄, hpc₃, -, hsorted⟩ :=
    hprepared.leads hbeyond hpushed (congrArg (fun v : BitVec 32 => v - 4) hsp₂)
    fun r _ hr => (if_neg hr).trans (hregs₂ r hr)
  have hsize₃ : g₃.memory.memSize = memorySize := hsorted.memSize.trans hsize₁
  have htext₃ : Loaded g₃.memory 0x10000 (sortText .ascending ++ bubblesortMain) :=
    htext₁.congr hsorted.memSize fun i hi hi' => hsorted.bytes i (.inl (by omega)) (.inr (by omega))
  have run : Leads 0x100C4 (g.goto 0x100B0) g₃ := run₃.trans run₄
  have run₅ :=
    run.next (i := 97) hstop htext₃ hpc₃ rfl decode_508F (does_readModifyWrite rfl (Turns.pure _ _)
    (does_getDataSilent_addr (by decide)) (does_setData_addr (by decide)) (Turns.pure _ _))
  obtain ⟨f, ⟨σ, hσ, rfl⟩, hrearranged⟩ := hsorted.rearranged
  refine ⟨_, run₅, congrArg (fun n : ℕ => n + 2) hpc₃, hsize₃, hsorted.ordered, σ, hσ,
    fun k hk => ?_⟩
  exact (hrearranged k hk).trans (hcells₁ _ (perm_lt hσ hk))

end Main

/-- The test `test_bubblesort.cpp`, for any table: whatever the memory and the registers held
before, `load_elf` loads the program, the loop of the test ends, and the table is in the order that
the test checks. -/
theorem bubblesort_test (load : String → Option ElfFile) (fileName : String) (file : ElfFile)
    (data : ℕ → BitVec 8)
    (hload : load fileName = some file) (hheader : file.Supported) (hsep : Separated file.sections)
    (htext : file.Carries 0x10000 198 (textByte bubblesortText))
    (hdata : file.Carries 0x3000 120 data)
    (hrange : ∀ k < 30, (readRealMem data (4 * k) .long).toNat < 2 ^ 30)
    (hentry : file.entry = 0x100B0)
    (s : CPUState BaseMemory) (hsize : s.memory.memSize = memorySize) :
    ∃ t u, loadElf load fileName s = .ok true t ∧ Run step (fun v => v.reg regPC = 0x100C4) t u ∧
      u.reg regPC = 0x100C4 ∧ ∃ table : ℕ → BitVec 32,
        (∀ k < 30, memGet (BitVec.ofNat 32 (0x3000 + 4 * k)) .long u = .ok (table k) u) ∧
        (∀ a b, a ≤ b → b < 30 → (table a).toNat ≤ (table b).toNat) ∧
        ∃ σ : Equiv.Perm ℕ, (∀ k, 30 ≤ k → σ k = k) ∧ ∀ k < 30,
        table k = readRealMem data (4 * σ k) .long := by
  obtain ⟨t, hstart, hstarted⟩ := loadElf_started hload hheader hsep hsize
  have hloaded : Loaded t.memory 0x10000 bubblesortText :=
    hstarted.loaded htext (by decide) (by decide)
  have hcells (k : ℕ) (hk : k < 30) : cellsOf 0x3000 t.guest k = readRealMem data (4 * k) .long :=
    hstarted.cells hdata hk
  have hsmall (k : ℕ) (hk : k < 30) : Small (cellsOf 0x3000 t.guest k) := by
    rw [hcells k hk]
    exact small_of_lt (hrange k hk)
  obtain ⟨g, hleads, hpc, hgsize, hordered, σ, hσ, hrearranged⟩ :=
    leads_bubblesort (g := t.guest) hloaded.left hstarted.memSize hstarted.sp hsmall
  have hstartpc : t.reg regPC = BitVec.ofNat 32 0x100B0 := by
    rw [hstarted.pc, hentry]
    rfl
  obtain ⟨u, hrun, hdone, hu⟩ := hleads.returns hstartpc hpc
  have htable (k : ℕ) (hk : k < 30) : cellsOf 0x3000 g k = readRealMem data (4 * σ k) .long := by
    rw [hrearranged k hk, hcells _ (perm_lt hσ hk)]
  refine ⟨t, u, hstart, hrun, hdone, cellsOf 0x3000 g, fun k hk =>
    hu.memGet_cell hgsize rfl (by omega), fun a b hab hb => ?_, σ, hσ, htable⟩
  have hle := hordered a b hab hb
  rw [htable a (by omega), htable b hb] at hle ⊢
  rw [toInt_of_lt (hrange _ (perm_lt hσ (by omega))), toInt_of_lt (hrange _ (perm_lt hσ hb))] at hle
  omega

/-- The table in `bubblesort.c`, two words an entry. -/
def bubblesortData : List (BitVec 16) :=
  [6312, 1862, 3020, 1965, 2195, 3112, 2051, 7286, 1778, 9875, 5121, 3791, 8590, 6205, 4144, 6858,
    3338, 7556, 4918, 3897, 6911, 1041, 1302, 4492, 7073, 6459, 6429, 8399, 8274,
    3013].flatMap fun entry => [0, entry]

/-- The sections of `test/binary/bubblesort.elf` that are loaded. -/
def bubblesortFile : ElfFile :=
  executable 0x100B0
    [⟨ptLoad, 6, 0x10000, 198, textByte bubblesortText⟩,
      ⟨ptLoad, 3, 0x3000, 120, textByte bubblesortData⟩]

theorem bubblesort_test_data :
    ∃ t u, loadElf (fun _ => some bubblesortFile) "bubblesort.elf" ⟨simpleMemory fun _ => 0xFF,
      ⟨fun _ => 0⟩⟩ = .ok true t ∧ Run step (fun v => v.reg regPC = 0x100C4) t u ∧
      ∃ x y, memGet 0x3000 .long u = .ok x u ∧ memGet 0x3004 .long u = .ok y u ∧
        x.toNat ≤ y.toNat := by
  have hsep : Separated bubblesortFile.sections :=
    separated_pair (by decide) (by decide) (.inr (by decide))
  obtain ⟨t, u, hload, hrun, -, table, hget, hordered, -⟩ :=
    bubblesort_test (fun _ => some bubblesortFile)
    "bubblesort.elf" bubblesortFile (textByte bubblesortData) rfl ⟨rfl, rfl, rfl, rfl⟩ hsep
    ⟨_, List.mem_cons_self, rfl, rfl, rfl, fun _ _ => rfl⟩
    ⟨_, List.mem_cons_of_mem _ List.mem_cons_self, rfl, rfl, rfl, fun _ _ => rfl⟩
    (by decide +kernel) rfl ⟨simpleMemory fun _ => 0xFF, ⟨fun _ => 0⟩⟩ rfl
  exact ⟨t, u, hload, hrun, table 0, table 1, hget 0 (by decide), hget 1 (by decide),
    hordered 0 1 (by decide) (by decide)⟩

end M68kEmu
