import M68kEmu.Semantics.EffectiveAddress

/-!
# The silent read and the plain read

`getDataSilent` is `getData` without its side effects: on every mode but one it returns the same
value and throws on the same states.  Absolute short operands are the exception.  `getDataSilent`
sign-extends the extension word and `getData` does not, so that from `0x8000` on the two read
different locations.
-/

namespace M68kEmu

open Outcome

variable {α β : Type} {mode : AddressingMode} {reg : ℕ} {size : DataSize} {s : CPUState BaseMemory}

/-- From the state, both computations return the same value or both throw. -/
structure SameAnswer (x y : CpuM BaseMemory α) (s : CPUState BaseMemory) : Prop where
  value : ∀ v v' t t', x s = .ok v t → y s = .ok v' t' → v = v'
  throws : (∃ e t, x s = .error e t) ↔ ∃ e t, y s = .error e t

namespace SameAnswer

/-! ### Rules -/

theorem refl (x : CpuM BaseMemory α) (s : CPUState BaseMemory) : SameAnswer x x s := by
  refine ⟨fun v v' t t' h h' => ?_, Iff.rfl⟩
  rw [h] at h'
  exact (EStateM.Result.ok.inj h').1

theorem of_ok {x y : CpuM BaseMemory α} {v : α} {t t' : CPUState BaseMemory} (h : x s = .ok v t)
    (h' : y s = .ok v t') : SameAnswer x y s := by
  refine ⟨fun w w' u u' hw hw' => ?_, by simp [h, h']⟩
  rw [h] at hw
  rw [h'] at hw'
  exact (EStateM.Result.ok.inj hw).1.symm.trans (EStateM.Result.ok.inj hw').1

/-- Both computations begin with the same read, which leaves the state alone. -/
theorem bind_read {x : CpuM BaseMemory α} {f g : α → CpuM BaseMemory β}
    (hx : ∀ v t, x s = .ok v t → t = s)
    (h : ∀ v, x s = .ok v s → SameAnswer (f v) (g v) s) : SameAnswer (x >>= f) (x >>= g) s := by
  rcases hs : x s with ⟨v, t⟩ | ⟨e, t⟩
  · obtain rfl := hx v t hs
    have hrest := h v hs
    exact ⟨by simpa only [bind_of_ok hs] using hrest.value,
      by simpa only [bind_of_ok hs] using hrest.throws⟩
  · refine ⟨fun v v' u u' hv => ?_, ?_⟩
    · rw [bind_of_error hs] at hv
      cases hv
    · rw [bind_of_error hs, bind_of_error hs]

theorem bind_getReg {r : ℕ} {size : DataSize} {f g : BitVec 32 → CpuM BaseMemory β}
    (h : ∀ v, getReg r size s = .ok v s → SameAnswer (f v) (g v) s) :
    SameAnswer (getReg r size >>= f) (getReg r size >>= g) s :=
  bind_read (fun _ _ => eq_of_getReg_eq_ok) h

theorem bind_memGet {addr : BitVec 32} {size : DataSize} {f g : BitVec 32 → CpuM BaseMemory β}
    (h : ∀ v, SameAnswer (f v) (g v) s) :
    SameAnswer (memGet addr size >>= f) (memGet addr size >>= g) s :=
  bind_read (fun _ _ hs => (memGet_eq_ok.1 hs).2.2.symm) fun v _ => h v

theorem bind_memGet_pure {addr : BitVec 32} {size : DataSize}
    {f : BitVec 32 → CpuM BaseMemory (BitVec 32)} (h : ∀ v, SameAnswer (f v) (pure v) s) :
    SameAnswer (memGet addr size >>= f) (memGet addr size) s := by
  have hbind : SameAnswer (memGet addr size >>= f) (memGet addr size >>= pure) s := bind_memGet h
  rwa [bind_pure] at hbind

theorem bind_getExtRegOffset {extWord : BitVec 32} {f g : BitVec 32 → CpuM BaseMemory β}
    (h : ∀ v, SameAnswer (f v) (g v) s) :
    SameAnswer (getExtRegOffset extWord >>= f) (getExtRegOffset extWord >>= g) s := by
  refine bind_read (fun v t hs => ?_) fun v _ => h v
  rw [getExtRegOffset_apply] at hs
  exact (EStateM.Result.ok.inj hs).2.symm

/-- The program counter does not matter for a read of memory. -/
theorem advance_memGet (pc addr : BitVec 32) (size : DataSize) :
    SameAnswer (setReg regPC .long pc >>= fun _ => memGet addr size) (memGet addr size) s := by
  by_cases hacc : s.memory.Accessible addr size
  · have hmoved : (setReg regPC .long pc >>= fun _ => memGet addr size) s =
        .ok (s.memory.read addr size) (s.withReg regPC pc) := by
      rw [bind_of_ok (setReg_long named_regPC)]
      exact memGet_of_accessible hacc
    exact of_ok hmoved (memGet_of_accessible hacc)
  · obtain ⟨e, he⟩ := memGet_of_not_accessible hacc
    obtain ⟨e', he'⟩ := memGet_of_not_accessible (s := s.withReg regPC pc) hacc
    have hmoved :
        (setReg regPC .long pc >>= fun _ => memGet addr size) s =
        .error e' (s.withReg regPC pc) := by
      rw [bind_of_ok (setReg_long named_regPC), he']
    refine ⟨fun v v' t t' hv => ?_, by simp [hmoved, he]⟩
    rw [hmoved] at hv
    cases hv

/-- A register that could be read can be written. -/
theorem setReg_pure {r : ℕ} {size : DataSize} {v w : BitVec 32}
    (h : getReg r size s = .ok v s) (a : α) :
    SameAnswer (setReg r .long w >>= fun _ => pure a) (pure a) s := by
  have hlt : r < regsCount := by
    by_contra hn
    simp only [getReg, Registers.get, if_neg hn] at h
    cases h
  obtain ⟨regs, hregs⟩ : ∃ regs, s.registers.set r .long w = .ok regs := ⟨_, if_pos hlt⟩
  have hset : setReg r .long w s = .ok () { s with registers := regs } := by rw [setReg, hregs]
  exact of_ok (bind_of_ok hset) rfl

end SameAnswer

/-! ### The modes -/

/-- On every mode but the absolute short one, the reads answer alike. -/
theorem sameAnswer_of_ne_absWord (hmode : mode ≠ .absWord) :
    SameAnswer (CPUState.getData mode reg size) (CPUState.getDataSilent mode reg size) s := by
  cases mode with
  | directData | directAddr | indirect | unknown => exact .refl _ s
  | indirectPostincrement =>
    refine .bind_getReg fun addr haddr => ?_
    exact .bind_memGet_pure fun data => .setReg_pure haddr data
  | indirectPredecrement =>
    refine .bind_getReg fun addr haddr => ?_
    exact .bind_memGet_pure fun data => .setReg_pure haddr data
  | indirectDisplacement =>
    exact .bind_getReg fun addr _ => .bind_getReg fun pc _ => .bind_memGet fun offset =>
      .advance_memGet _ _ _
  | indirectIndex =>
    exact .bind_getReg fun addr _ => .bind_getReg fun pc _ => .bind_memGet fun extWord =>
      .bind_getExtRegOffset fun offset => .advance_memGet _ _ _
  | pcDisplacement | absLong =>
    exact .bind_getReg fun pc _ => .bind_memGet fun ext => .advance_memGet _ _ _
  | pcIndex =>
    exact .bind_getReg fun pc _ => .bind_memGet fun extWord => .bind_getExtRegOffset fun offset =>
      .advance_memGet _ _ _
  | immediate =>
    exact .bind_getReg fun pc hpc => .bind_memGet fun value => .setReg_pure hpc _
  | absWord => exact absurd rfl hmode

/-- The reads at two addresses answer alike. -/
def ReadsAlike (mem : BaseMemory) (addr addr' : BitVec 32) (size : DataSize) : Prop :=
  (mem.Accessible addr size ↔ mem.Accessible addr' size) ∧
    (mem.Accessible addr size → mem.read addr size = mem.read addr' size)

theorem sameAnswer_memGet_iff {x y : CpuM BaseMemory (BitVec 32)} {t : CPUState BaseMemory}
    {addr addr' : BitVec 32}
    (hmem : t.memory = s.memory) (hx : x s = memGet addr size t) (hy : y s = memGet addr' size s) :
    SameAnswer x y s ↔ ReadsAlike s.memory addr addr' size := by
  by_cases hacc : s.memory.Accessible addr size <;> by_cases hacc' : s.memory.Accessible addr' size
  · have hok : x s = .ok (s.memory.read addr size) t := by
      rw [hx, ← hmem]
      exact memGet_of_accessible (hmem ▸ hacc)
    rw [memGet_of_accessible hacc'] at hy
    exact ⟨fun h => ⟨iff_of_true hacc hacc', fun _ => h.value _ _ _ _ hok hy⟩, fun h =>
      .of_ok hok (h.2 hacc ▸ hy)⟩
  · obtain ⟨e, he⟩ := memGet_of_not_accessible hacc'
    have hok : x s = .ok (s.memory.read addr size) t := by
      rw [hx, ← hmem]
      exact memGet_of_accessible (hmem ▸ hacc)
    exact iff_of_false (fun h => by simpa [hok, hy, he] using h.throws) fun h => hacc' (h.1.1 hacc)
  · obtain ⟨e, he⟩ := memGet_of_not_accessible (s := t) (hmem ▸ hacc)
    rw [memGet_of_accessible hacc'] at hy
    exact iff_of_false (fun h => by simpa [hx, he, hy] using h.throws) fun h => hacc (h.1.2 hacc')
  · obtain ⟨e, he⟩ := memGet_of_not_accessible (s := t) (hmem ▸ hacc)
    obtain ⟨e', he'⟩ := memGet_of_not_accessible hacc'
    rw [he] at hx
    rw [he'] at hy
    refine iff_of_true ⟨fun v v' u u' hv => ?_, by simp [hx, hy]⟩ ⟨iff_of_false hacc hacc', fun h =>
      absurd h hacc⟩
    rw [hx] at hv
    cases hv

theorem sameAnswer_absWord_iff (hacc : s.memory.Accessible (s.reg regPC) .word) :
    SameAnswer (CPUState.getData .absWord reg size) (CPUState.getDataSilent .absWord reg size) s ↔
      ReadsAlike s.memory s.extWord (castInt16 s.extWord) size := by
  have hread : CPUState.getData .absWord reg size s = memGet s.extWord size s.pastExtWord := by
    rw [CPUState.getData, fetchExt_apply hacc, bind_of_ok (setReg_long named_regPC)]
    rfl
  have hsilent :
      CPUState.getDataSilent .absWord reg size s = memGet (castInt16 s.extWord) size s := by
    rw [CPUState.getDataSilent, fetchExt_apply hacc]
    rfl
  exact sameAnswer_memGet_iff (t := s.pastExtWord) rfl hread hsilent

/-- Where the extension word cannot be fetched, both throw. -/
theorem sameAnswer_absWord_of_not_accessible (hacc : ¬s.memory.Accessible (s.reg regPC) .word) :
    SameAnswer (CPUState.getData .absWord reg size)
      (CPUState.getDataSilent .absWord reg size) s := by
  refine .bind_getReg fun pc hpc => .bind_read (fun _ _ hs => (memGet_eq_ok.1 hs).2.2.symm)
    fun ext hext => ?_
  rw [getReg_long named_regPC] at hpc
  obtain ⟨rfl, -⟩ := EStateM.Result.ok.inj hpc
  exact absurd (memGet_eq_ok.1 hext).1 hacc

/-- The silent read answers as the plain read does, unless the operand is absolute short and the
locations at its extension word and at the sign extension of that word read differently. -/
theorem getDataSilent_answers_iff (mode : AddressingMode) (reg : ℕ) (size : DataSize)
    (s : CPUState BaseMemory) :
    SameAnswer (CPUState.getData mode reg size) (CPUState.getDataSilent mode reg size) s ↔
      (mode = .absWord → s.memory.Accessible (s.reg regPC) .word →
        s.extWord.toNat < 0x8000 ∨ ReadsAlike s.memory s.extWord (castInt16 s.extWord) size) := by
  by_cases hmode : mode = .absWord
  · subst hmode
    by_cases hacc : s.memory.Accessible (s.reg regPC) .word
    · rw [sameAnswer_absWord_iff hacc]
      refine ⟨fun h _ _ => .inr h, fun h => ?_⟩
      obtain hlt | h := h rfl hacc
      · rw [castInt16_of_lt hlt]
        exact ⟨Iff.rfl, fun _ => rfl⟩
      · exact h
    · exact iff_of_true (sameAnswer_absWord_of_not_accessible hacc) fun _ h => absurd h hacc
  · exact iff_of_true (sameAnswer_of_ne_absWord hmode) fun h => absurd h hmode

/-- With the operand `$8000.w`, the plain read returns the byte at `0x8000`, and the silent read the
one at `0xFF8000`. -/
theorem absolute_short_reads_differ :
    let s : CPUState BaseMemory :=
      ⟨simpleMemory fun i => if i = 0 then 0x80 else if i = 0x8000 then 1 else 0, ⟨fun _ => 0⟩⟩
    (∃ t, CPUState.getData .absWord regD0 .byte s = .ok 1 t) ∧
      (∃ t, CPUState.getDataSilent .absWord regD0 .byte s = .ok 0 t) ∧
      ¬SameAnswer (CPUState.getData .absWord regD0 .byte)
      (CPUState.getDataSilent .absWord regD0 .byte) s := by
  refine ⟨⟨_, rfl⟩, ⟨_, rfl⟩, fun h => ?_⟩
  exact absurd (h.value 1 0 _ _ rfl rfl) (by decide)

end M68kEmu
