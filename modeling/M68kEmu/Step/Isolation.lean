import M68kEmu.Frame.Classes
import M68kEmu.Frame.Invariants

/-!
# What a step leaves alone

* `step_keeps_on_error`: a step that throws has changed no memory and no data register, nor the
  status register, nor the stack pointer that is not active;
* `iterate_step_isolated`: over any run, the system byte of the status register never changes, and
  neither does the stack pointer that is not active.

Both are invariants of the primitives, carried through the phases of the step.
-/

namespace M68kEmu

open Outcome

/-! ### The inactive stack pointer -/

namespace Registers

/-- The index of the stack pointer that is not active: `USP` in supervisor mode,
`SSP` in user mode. -/
def inactive (regs : Registers) : ℕ := if regs.supervisor then regUSP else regSSP

theorem bank_ne_inactive {regs : Registers} {r : ℕ} (h : Named r) :
    regs.bank r ≠ regs.inactive := by
  simp only [Named, regPC] at h
  rw [bank, inactive]
  by_cases hsup : regs.supervisor = true
  · rw [if_pos hsup]
    split_ifs with hr
    · decide
    · exact fun h' => hr ⟨h', hsup⟩
  · rw [if_neg hsup, if_neg fun h' => hsup h'.2, regSSP]
    omega

theorem inactive_ne_regSR (regs : Registers) : regs.inactive ≠ regSR := by
  rw [inactive]
  split_ifs <;> decide

theorem inactive_congr {regs regs' : Registers} (h : regs'.supervisor = regs.supervisor) :
    regs'.inactive = regs.inactive := by
  rw [inactive, inactive, h]

theorem supervisor_congr {regs regs' : Registers}
    (h : regs'.regBuffer regSR = regs.regBuffer regSR) : regs'.supervisor = regs.supervisor := by
  rw [supervisor, supervisor, h]

end Registers

/-! ### A step that throws -/

/-- Memory, the status register, `D0`–`D7` and the inactive stack pointer are the same. -/
structure DataKept (s t : CPUState BaseMemory) : Prop where
  memory : t.memory = s.memory
  status : t.registers.regBuffer regSR = s.registers.regBuffer regSR
  data : ∀ r < 8, t.registers.regBuffer r = s.registers.regBuffer r
  inactive : t.registers.regBuffer s.registers.inactive = s.registers.regBuffer s.registers.inactive

theorem DataKept.refl (s : CPUState BaseMemory) : DataKept s s := ⟨rfl, rfl, fun _ _ => rfl, rfl⟩

/-- The program counter and the address registers are not among the data that is kept. -/
theorem DataKept.withReg {s t : CPUState BaseMemory} (h : DataKept s t) {r : ℕ} (hr : Scratch r)
    (v : BitVec 32) : DataKept s (t.withReg r v) := by
  have hbank : 8 ≤ t.registers.bank r := by
    simp only [Scratch, regPC] at hr
    obtain h' | ⟨-, h'⟩ := t.registers.bank_cases r <;> rw [h']
    · omega
    · decide
  have hinactive : s.registers.inactive ≠ t.registers.bank r := by
    rw [← Registers.inactive_congr (Registers.supervisor_congr h.status)]
    exact (Registers.bank_ne_inactive hr.named).symm
  refine ⟨h.memory, ?_, fun i hi => ?_, ?_⟩ <;> rw [CPUState.regBuffer_withReg]
  · rw [if_neg (Registers.bank_ne_regSR hr.named).symm, h.status]
  · rw [if_neg (by omega), h.data i hi]
  · rw [if_neg hinactive, h.inactive]

/-- A failing step is atomic on data. -/
theorem step_keeps_on_error (s t : CPUState BaseMemory) (e : Fault) (h : step s = .error e t) :
    DataKept s t := by
  have hrelated : Related (Diag (DataKept s)) (Diag fun _ => True) (Diag (DataKept s)) step step :=
    executes_step.related (fun _ _ hs => ⟨hs.1, trivial⟩)
      (ReadPrim.related (fun _ => Scratch.named) fun _ _ v hr hs => hs.withReg hr v)
      (StorePrim.related fun _ _ _ _ _ => trivial)
      (CommitPrim.related (fun _ _ _ _ _ => trivial) fun _ _ _ _ _ => trivial)
  obtain ⟨u, t₁, t₂, hs, -, -⟩ | ⟨e', t₁, t₂, hs, -, -, ht⟩ := hrelated s s ⟨rfl, .refl s⟩
  · rw [h] at hs
    cases hs
  · rw [h] at hs
    cases hs
    exact ht

/-- `move.w D0, (A0)` at an odd address in `A0` throws, and leaves the data alone. -/
theorem move_to_odd_address_keeps :
    ∃ t, step (CPUState.simple [0x30, 0x80] fun i => if i = 8 then 1 else 0) =
    .error .addressOdd t ∧
      DataKept (CPUState.simple [0x30, 0x80] fun i => if i = 8 then 1 else 0) t := by
  have hdecode : (decode 0x3080).derived =
      .move { destMode := .indirect, destReg := 8, dataSize := some .word,
              srcMode := .directData, srcReg := 0,
              isMovea := false } := by
    rw [decode_eq_opcodeEntry]
    rfl
  have hfetch : fetchOpcode (CPUState.simple [0x30, 0x80] fun i => if i = 8 then 1 else 0) =
      .ok 0x3080 (CPUState.simple [0x30, 0x80] fun i => if i = 8 then 1 else 0) := rfl
  obtain ⟨t, ht⟩ : ∃ t, step (CPUState.simple [0x30, 0x80] fun i => if i = 8 then 1 else 0) =
      .error .addressOdd t := by
    rw [step, stepWith, bind_of_ok hfetch, hdecode]
    exact ⟨_, rfl⟩
  exact ⟨t, ht, step_keeps_on_error _ t _ ht⟩

/-! ### Runs -/

/-- The bits of the status register other than `X`, `N`, `Z`, `V` and `C`. -/
def systemBits : BitVec 32 := ~~~0x1f

/-- The system bits of the status register and the inactive stack pointer are the same. -/
structure Isolated (s t : CPUState BaseMemory) : Prop where
  status : t.registers.regBuffer regSR &&& systemBits = s.registers.regBuffer regSR &&& systemBits
  inactive : t.registers.regBuffer s.registers.inactive = s.registers.regBuffer s.registers.inactive

theorem Isolated.refl (s : CPUState BaseMemory) : Isolated s s := ⟨rfl, rfl⟩

theorem Isolated.supervisor {s t : CPUState BaseMemory} (h : Isolated s t) :
    t.registers.supervisor = s.registers.supervisor := by
  have hbit := congrArg (BitVec.getLsbD · 13) h.status
  simpa [systemBits, Registers.supervisor] using hbit

theorem Isolated.trans {s t u : CPUState BaseMemory} (h : Isolated s t) (h' : Isolated t u) :
    Isolated s u where
  status := h'.status.trans h.status
  inactive := by
    have hinactive := Registers.inactive_congr h.supervisor
    rw [← hinactive, h'.inactive, hinactive, h.inactive]

theorem Isolated.withReg (s : CPUState BaseMemory) {r : ℕ} (hr : Named r) (v : BitVec 32) :
    Isolated s (s.withReg r v) where
  status := by rw [CPUState.status_withReg hr]
  inactive := by rw [CPUState.regBuffer_withReg, if_neg (Registers.bank_ne_inactive hr).symm]

/-- Assigning bits outside `k` leaves the bits of `k`. -/
theorem assign_and {x m k : BitVec 32} (h : m &&& k = 0) (b : Bool) :
    (if b then x &&& ~~~m ||| m else x &&& ~~~m) &&& k = x &&& k := by
  ext i hi
  have hbit : (m[i] && k[i]) = false := by
    rw [← BitVec.getElem_and, h]
    simp
  cases b <;> simp <;> revert hbit <;> cases x[i] <;> cases m[i] <;> cases k[i] <;> decide

theorem Isolated.withFlag (s : CPUState BaseMemory) {flag : StatusRegisterFlag}
    (hf : flag.bit < 5) (b : Bool) : Isolated s (s.withFlag flag b) where
  status := by
    have hmask : flag.mask &&& systemBits = 0 := by
      cases flag <;> simp [StatusRegisterFlag.bit] at hf <;> decide
    exact assign_and hmask b
  inactive := CPUState.regBuffer_withFlag (Registers.inactive_ne_regSR _)

/-- What is built from the primitives in three phases isolates, whether it returns or throws. -/
theorem isolated_of_executes {α : Type} {x : CpuM BaseMemory α} (h : Executes x x)
    (s : CPUState BaseMemory) : Isolated s (after x s) := by
  have hrelated : Related (Diag (Isolated s)) (Diag (Isolated s)) (Diag (Isolated s)) x x :=
    h.related (fun _ _ => id)
      (ReadPrim.related (fun _ => Scratch.named) fun t _ v hr hs =>
        hs.trans (.withReg t hr.named v))
      (StorePrim.related fun _ _ _ _ hs => ⟨hs.status, hs.inactive⟩)
      (CommitPrim.related (fun t _ v hr hs => hs.trans (.withReg t hr v))
        fun t _ b hf hs => hs.trans (.withFlag t hf b))
  obtain ⟨u, t, _, hs, -, -, ht⟩ | ⟨e, t, _, hs, -, -, ht⟩ := hrelated s s ⟨rfl, .refl s⟩
  · rwa [after_of_ok hs]
  · rwa [after_of_error hs]

theorem step_isolated (s : CPUState BaseMemory) : Isolated s (after step s) :=
  isolated_of_executes executes_step s

theorem execute_isolated {d : Derived} (hd : d.Valid) {s t : CPUState BaseMemory} {u : Unit}
    (h : d.execute .cpuState s = .ok u t) : Isolated s t := by
  have hexecutes : Executes (d.execute .cpuState : CpuM BaseMemory Unit)
      (d.execute .cpuState : CpuM BaseMemory Unit) :=
    (step_execute hd).phase
  have hafter := isolated_of_executes hexecutes s
  rwa [after_of_ok h] at hafter

/-- Privilege and stack-bank isolation over a run of `n` steps, throwing ones included. -/
theorem iterate_step_isolated (n : ℕ) (s : CPUState BaseMemory) :
    let t := (after step)^[n] s
    t.registers.regBuffer regSR &&& systemBits = s.registers.regBuffer regSR &&& systemBits ∧
    t.registers.supervisor = s.registers.supervisor ∧
    (s.registers.supervisor = true → t.registers.regBuffer regUSP = s.registers.regBuffer regUSP) ∧
    (s.registers.supervisor = false → t.registers.regBuffer regSSP =
      s.registers.regBuffer regSSP) := by
  intro t
  have h : Isolated s t := iterate_after Isolated.refl Isolated.trans step_isolated n s
  refine ⟨h.status, h.supervisor, fun hsup => ?_, fun hsup => ?_⟩
  · have := h.inactive
    rwa [Registers.inactive, if_pos hsup] at this
  · have := h.inactive
    rwa [Registers.inactive, if_neg (by simp [hsup])] at this

end M68kEmu
