import M68kEmu.Frame.Classes

/-!
# Two memories that answer alike

A step uses its memory through `IMemory::get` and through one call of `IMemory::set` only.  So a
relation between two memories that `get` maintains, and that `set` turns into a second one, carries
over to the states before and after a step (`step_simulates`).
-/

namespace M68kEmu

open Outcome

section Over

variable {M M' : Type} {I J R E : M → M' → Prop} {α : Type}

/-- Equal registers over related memories. -/
def Over (R : M → M' → Prop) (s : CPUState M) (s' : CPUState M') : Prop :=
  s.registers = s'.registers ∧ R s.memory s'.memory

theorem Over.mono (h : ∀ m m', I m m' → J m m') {s : CPUState M} {s' : CPUState M'}
    (hs : Over I s s') : Over J s s' :=
  ⟨hs.1, h _ _ hs.2⟩

/-! ### The registers -/

/-- A computation that uses the registers only maintains every relation between the memories. -/
theorem related_registers {x : CpuM M α} {y : CpuM M' α}
    (f : Registers → Except Fault (α × Registers)) (hx : ∀ s, x s = match f s.registers with
      | .ok (a, regs) => .ok a { s with registers := regs }
      | .error e => .error e s)
    (hy : ∀ s, y s = match f s.registers with
      | .ok (a, regs) => .ok a { s with registers := regs }
      | .error e => .error e s)
    (hRE : ∀ m m', R m m' → E m m') : Related (Over R) (Over R) (Over E) x y := by
  rintro s s' ⟨hregs, hmem⟩
  rw [hx, hy, ← hregs]
  rcases f s.registers with e | ⟨a, regs⟩
  · exact .inr ⟨e, s, s', rfl, rfl, hregs, hRE _ _ hmem⟩
  · exact .inl ⟨a, _, _, rfl, rfl, rfl, hmem⟩

theorem related_getReg (hRE : ∀ m m', R m m' → E m m') (r : ℕ) (size : DataSize) :
    Related (Over R) (Over R) (Over E) (getReg r size) (getReg r size) := by
  refine related_registers (fun regs => (regs.get r size).map fun v => (v, regs)) (fun s => ?_)
    (fun s => ?_) hRE <;>
    · rw [getReg]
      rcases s.registers.get r size with _ | _ <;> rfl

theorem related_setReg (hRE : ∀ m m', R m m' → E m m') (r : ℕ) (size : DataSize) (v : BitVec 32) :
    Related (Over R) (Over R) (Over E) (setReg r size v) (setReg r size v) := by
  refine related_registers (fun regs => (regs.set r size v).map fun regs => ((), regs))
    (fun s => ?_) (fun s => ?_) hRE <;>
    · rw [setReg]
      rcases s.registers.set r size v with _ | _ <;> rfl

theorem related_getFlag (hRE : ∀ m m', R m m' → E m m') (flag : StatusRegisterFlag) :
    Related (Over R) (Over R) (Over E) (getFlag flag) (getFlag flag) :=
  related_registers (fun regs => .ok (regs.getFlag flag, regs)) (fun _ => rfl) (fun _ => rfl) hRE

theorem related_setFlag (hRE : ∀ m m', R m m' → E m m') (flag : StatusRegisterFlag) (b : Bool) :
    Related (Over R) (Over R) (Over E) (setFlag flag b) (setFlag flag b) :=
  related_registers (fun regs => .ok ((), regs.setFlag flag b)) (fun _ => rfl) (fun _ => rfl) hRE

theorem related_throw (hRE : ∀ m m', R m m' → E m m') (e : Fault) :
    Related (Over R) (Over R) (Over E) (throw e : CpuM M α) (throw e : CpuM M' α) :=
  fun s s' hs => .inr ⟨e, s, s', rfl, rfl, hs.mono hRE⟩

/-! ### The memory -/

variable [IMemory M] [IMemory M']

theorem related_memGet {addr : BitVec 32} {size : DataSize}
    (h : Related I J E (IMemory.get addr.toNat size : EStateM Fault M _)
      (IMemory.get addr.toNat size)) :
    Related (Over I) (Over J) (Over E) (memGet addr size) (memGet addr size) := by
  rintro s s' ⟨hregs, hmem⟩
  rw [memGet, memGet]
  obtain ⟨v, m, m', hs, hs', hm⟩ | ⟨e, m, m', hs, hs', hm⟩ := h _ _ hmem <;> rw [hs, hs']
  · exact .inl ⟨v, _, _, rfl, rfl, hregs, hm⟩
  · exact .inr ⟨e, _, _, rfl, rfl, hregs, hm⟩

theorem related_memSet {addr : BitVec 32} {size : DataSize} {data : BitVec 32}
    (h : Related I J E (IMemory.set addr.toNat size data : EStateM Fault M _)
      (IMemory.set addr.toNat size data)) :
    Related (Over I) (Over J) (Over E) (memSet addr size data) (memSet addr size data) := by
  rintro s s' ⟨hregs, hmem⟩
  rw [memSet, memSet]
  obtain ⟨v, m, m', hs, hs', hm⟩ | ⟨e, m, m', hs, hs', hm⟩ := h _ _ hmem <;> rw [hs, hs']
  · exact .inl ⟨v, _, _, rfl, rfl, hregs, hm⟩
  · exact .inr ⟨e, _, _, rfl, rfl, hregs, hm⟩

/-- A primitive of the read phase maintains what `get` maintains. -/
theorem related_of_readPrim {F : ℕ → Prop} {x : CpuM M α} {y : CpuM M' α}
    (hRE : ∀ m m', R m m' → E m m')
    (hget : ∀ address size, Related R R E (IMemory.get address size : EStateM Fault M _)
      (IMemory.get address size))
    (h : ReadPrim F x y) : Related (Over R) (Over R) (Over E) x y := by
  cases h with
  | getReg r size => exact related_getReg hRE r size
  | getFlag flag => exact related_getFlag hRE flag
  | memGet addr size => exact related_memGet (hget _ size)
  | setReg _ v => exact related_setReg hRE _ _ v
  | throw e => exact related_throw hRE e

/-- A read-phase computation maintains what `get` maintains. -/
theorem related_of_reads {F : ℕ → Prop} {x : CpuM M α} {y : CpuM M' α}
    (hRE : ∀ m m', R m m' → E m m')
    (hget : ∀ address size, Related R R E (IMemory.get address size : EStateM Fault M _)
      (IMemory.get address size)) (h : Reads F x y) : Related (Over R) (Over R) (Over E) x y :=
  h.related fun hprim => related_of_readPrim hRE hget hprim

end Over

/-- Memories that answer alike make steps that go alike: `I` holds up to the store, `J` from there
on, and `E` where the step throws. -/
theorem step_simulates {M' : Type} [IMemory M'] {I J E : BaseMemory → M' → Prop}
    (hIJ : ∀ m m', I m m' → J m m') (hJE : ∀ m m', J m m' → E m m')
    (hget : ∀ address size,
      Related I I E (IMemory.get address size : EStateM Fault BaseMemory _)
        (IMemory.get address size)) (hset : ∀ address size data,
      Related I J E (IMemory.set address size data : EStateM Fault BaseMemory _)
        (IMemory.set address size data)) :
    Related (Over I) (Over J) (Over E) (step : CpuM BaseMemory Unit) (step : CpuM M' Unit) := by
  have hIE (m : BaseMemory) (m' : M') (h : I m m') : E m m' := hJE m m' (hIJ m m' h)
  refine executes_step.related (fun _ _ => Over.mono hIJ) (related_of_readPrim hIE hget)
    (fun h => ?_) fun h => ?_
  · cases h with
    | memSet addr size data => exact related_memSet (hset _ size data)
  · cases h with
    | getReg _ size => exact related_getReg hJE _ size
    | getFlag flag => exact related_getFlag hJE flag
    | setReg _ size v => exact related_setReg hJE _ size v
    | setFlag _ value => exact related_setFlag hJE _ value

end M68kEmu
