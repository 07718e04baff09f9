import M68kEmu.Frame.Consumption

/-!
# Invariants of a single run

A predicate that the register, flag and memory writes maintain is an invariant of the primitives,
and by `Composed.related` and `Phased.related` of everything that is built from them;
`keeps_of_reads` and `keeps_of_commits` say so of a phase, and `sameButPc_of_reads` of reads that
write the program counter only.
-/

namespace M68kEmu

open Outcome

section Primitives

variable {α : Type} {p q : CPUState BaseMemory → Prop} {F : ℕ → Prop} {x y : CpuM BaseMemory α}

/-- A predicate of a single state, as a relation between two equal ones. -/
def Diag (p : CPUState BaseMemory → Prop) (s t : CPUState BaseMemory) : Prop := s = t ∧ p s

theorem ReadPrim.related (hF : ∀ r, F r → Named r) (hreg : ∀ s r v, F r → p s → p (s.withReg r v))
    (h : ReadPrim F x y) : Related (Diag p) (Diag p) (Diag p) x y := by
  cases h with
  | getReg r size =>
    exact .of_eq (fun s v t hs h => eq_of_getReg_eq_ok h ▸ hs) fun s e t hs h =>
      eq_of_getReg_eq_error h ▸ hs
  | getFlag flag =>
    exact .of_eq (fun s v t hs h => by cases h; exact hs) fun s e t hs h => by cases h
  | memGet addr size =>
    exact .of_eq (fun s v t hs h => (memGet_eq_ok.1 h).2.2 ▸ hs) fun s e t hs h =>
      eq_of_memGet_eq_error h ▸ hs
  | setReg hr v =>
    refine .of_eq (fun s u t hs h => ?_) fun s e t hs h => ?_ <;>
      rw [setReg_long (hF _ hr)] at h <;> cases h
    exact hreg s _ v hr hs
  | throw e => exact .of_eq (fun s v t hs h => by cases h) fun s e t hs h => by cases h; exact hs

theorem StorePrim.related (hstore : ∀ s addr size data, p s → q (s.stored addr size data))
    (h : StorePrim x y) : Related (Diag p) (Diag q) (Diag p) x y := by
  cases h with
  | memSet addr size data =>
    exact .of_eq (fun s u t hs h => (memSet_eq_ok.1 h).2 ▸ hstore s addr size data hs)
      fun s e t hs h => eq_of_memSet_eq_error h ▸ hs

theorem CommitPrim.related {E : CPUState BaseMemory → CPUState BaseMemory → Prop}
    (hreg : ∀ s r v, Named r → p s → p (s.withReg r v))
    (hflag : ∀ s flag b, StatusRegisterFlag.bit flag < 5 → p s → p (s.withFlag flag b))
    (h : CommitPrim x y) : Related (Diag p) (Diag p) E x y := by
  have hnever : Related (Diag p) (Diag p) (Diag fun _ => False) x y := by
    cases h with
    | getReg hr size =>
      refine .of_eq (fun s v t hs h => eq_of_getReg_eq_ok h ▸ hs) fun s e t hs h => ?_
      rw [getReg_apply hr] at h
      cases h
    | getFlag flag =>
      exact .of_eq (fun s v t hs h => by cases h; exact hs) fun s e t hs h => by cases h
    | setReg hr size v =>
      refine .of_eq (fun s u t hs h => ?_) fun s e t hs h => ?_ <;>
        rw [setReg_apply hr] at h <;> cases h
      exact hreg s _ _ hr hs
    | setFlag hf b =>
      exact .of_eq (fun s u t hs h => by cases h; exact hflag s _ b hf hs) fun s e t hs h => by
        cases h
  exact hnever.mono (fun _ _ => id) (fun _ _ => id) fun _ _ h => h.2.elim

end Primitives

/-- What holds of the state after a computation that is related to itself. -/
theorem after_of_related {α : Type} {p q e : CPUState BaseMemory → Prop} {x : CpuM BaseMemory α}
    (h : Related (Diag p) (Diag q) (Diag e) x x) {s : CPUState BaseMemory} (hs : p s) :
    match x s with
    | .ok _ t => q t
    | .error _ t => e t := by
  obtain ⟨a, t, _, hx, -, -, ht⟩ | ⟨c, t, _, hx, -, -, ht⟩ := h s s ⟨rfl, hs⟩ <;> rw [hx]
  · exact ht
  · exact ht

/-- A predicate that the writes of a read phase maintain holds after it, in either outcome. -/
theorem keeps_of_reads {F : ℕ → Prop} {α : Type} {p : CPUState BaseMemory → Prop}
    {x : CpuM BaseMemory α}
    (hx : Reads F x x) (hF : ∀ r, F r → Named r) (hreg : ∀ s r v, F r → p s → p (s.withReg r v))
    {s : CPUState BaseMemory} (hs : p s) : p (after x s) := by
  have h := after_of_related (hx.related (ReadPrim.related hF hreg)) hs
  rw [after]
  rcases hxs : x s with ⟨a, t⟩ | ⟨e, t⟩ <;> rw [hxs] at h <;> exact h

/-- A predicate that the writes of a commit phase maintain holds after it. -/
theorem keeps_of_commits {α : Type} {p : CPUState BaseMemory → Prop} {x : CpuM BaseMemory α}
    (hx : Commits x x) (hreg : ∀ s r v, Named r → p s → p (s.withReg r v))
    (hflag : ∀ s flag b, StatusRegisterFlag.bit flag < 5 → p s → p (s.withFlag flag b))
    {s : CPUState BaseMemory} (hs : p s) : p (after x s) := by
  have h := after_of_related (hx.related (CommitPrim.related (E := Diag p) hreg hflag)) hs
  rw [after]
  rcases hxs : x s with ⟨a, t⟩ | ⟨e, t⟩ <;> rw [hxs] at h <;> exact h

/-- A commit phase leaves the memory. -/
theorem memory_of_commits {α : Type} {x : CpuM BaseMemory α} (hx : Commits x x)
    {s t : CPUState BaseMemory} {a : α} (h : x s = .ok a t) : t.memory = s.memory := by
  have hkept :=
    keeps_of_commits (p := fun u => u.memory = s.memory) hx (fun _ _ _ _ hu => hu)
      (fun _ _ _ _ hu => hu) rfl
  rwa [after_of_ok h] at hkept

/-- A silent read changes nothing, in either outcome. -/
theorem after_getDataSilent (mode : AddressingMode) (reg : ℕ) (size : DataSize)
    (s : CPUState BaseMemory) : after (CPUState.getDataSilent mode reg size) s = s :=
  keeps_of_reads (F := fun _ => False) (p := (· = s)) (reads_getDataSilent size)
    (fun _ => False.elim) (fun _ _ _ h => h.elim) rfl

/-! ### Only the program counter -/

/-- The register that a computation writes which only steps over words. -/
def OnlyPc (r : ℕ) : Prop := r = regPC

theorem onlyPc_regPC : OnlyPc regPC := rfl

/-- The states differ in the program counter at most. -/
structure SameButPc (s t : CPUState BaseMemory) : Prop where
  memory : t.memory = s.memory
  registers : ∀ i, i ≠ regPC → t.registers.regBuffer i = s.registers.regBuffer i

theorem SameButPc.refl (s : CPUState BaseMemory) : SameButPc s s := ⟨rfl, fun _ _ => rfl⟩

theorem SameButPc.trans {s t u : CPUState BaseMemory} (h : SameButPc s t) (h' : SameButPc t u) :
    SameButPc s u where
  memory := h'.memory.trans h.memory
  registers i hi := (h'.registers i hi).trans (h.registers i hi)

theorem SameButPc.withReg {s t : CPUState BaseMemory} (h : SameButPc s t) (v : BitVec 32) :
    SameButPc s (t.withReg regPC v) where
  memory := h.memory
  registers i hi := by
    rw [CPUState.regBuffer_withReg, Registers.bank_regPC, if_neg hi, h.registers i hi]

/-- Putting the program counter back restores the state. -/
theorem SameButPc.restore {s t : CPUState BaseMemory} (h : SameButPc s t) :
    t.withReg regPC (s.reg regPC) = s := by
  obtain ⟨mem, ⟨buffer⟩⟩ := s
  obtain ⟨mem', ⟨buffer'⟩⟩ := t
  obtain rfl : mem' = mem := h.memory
  simp only [CPUState.withReg, CPUState.reg, Registers.bank_regPC, Registers.put, CPUState.mk.injEq,
    Registers.mk.injEq, true_and]
  funext i
  split_ifs with hi
  · rw [hi]
  · exact h.registers i hi

/-- A read phase that writes no other register changes nothing else, in either outcome. -/
theorem sameButPc_of_reads {α : Type} {x : CpuM BaseMemory α} (hx : Reads OnlyPc x x)
    (s : CPUState BaseMemory) : SameButPc s (after x s) :=
  keeps_of_reads (p := SameButPc s) hx (fun _ hr => hr ▸ named_regPC) (fun _ _ v hr ht =>
    hr ▸ ht.withReg v) (.refl s)

end M68kEmu
