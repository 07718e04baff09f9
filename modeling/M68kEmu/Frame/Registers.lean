import M68kEmu.Model.CpuState

/-!
# Registers as the instructions name them

`CPUState.reg` is the register that an index names under the live supervisor bit, and
`CPUState.withReg` the state with that register replaced.  The indices that instructions use are the
data and address registers and the program counter (`Named`); on them the redirection of index 15 is
injective, so a write to one leaves the others alone.
-/

namespace M68kEmu

variable {M : Type}

/-- The indices that the fields of an instruction take: `D0`–`D7`, `A0`–`A7`, and the
program counter. -/
def Named (r : ℕ) : Prop := r < 16 ∨ r = regPC

instance : DecidablePred Named := fun r => inferInstanceAs (Decidable (r < 16 ∨ r = regPC))

theorem Named.lt {r : ℕ} (h : Named r) : r < regsCount := by
  simp only [Named, regPC, regsCount] at *
  omega

theorem named_of_lt {r : ℕ} (h : r < 16) : Named r := .inl h

theorem ne_regPC_of_lt {r : ℕ} (h : r < 16) : r ≠ regPC := by
  simp only [regPC]
  omega

@[simp] theorem named_regPC : Named regPC := .inr rfl

@[simp] theorem named_regUSP : Named regUSP := by decide

namespace Registers

variable {regs : Registers} {r q : ℕ}

theorem bank_cases (regs : Registers) (r : ℕ) :
    regs.bank r = r ∨ (r = regA7 ∧ regs.bank r = regSSP) := by
  rw [bank]
  split_ifs with h
  · exact .inr ⟨h.1, rfl⟩
  · exact .inl rfl

theorem bank_of_ne (h : r ≠ regA7) : regs.bank r = r := by
  rw [bank, if_neg fun h' => h h'.1]

@[simp] theorem bank_regPC : regs.bank regPC = regPC := bank_of_ne (by decide)

theorem bank_ne_regSR (h : Named r) : regs.bank r ≠ regSR := by
  simp only [Named, regPC] at h
  obtain h' | ⟨-, h'⟩ := regs.bank_cases r <;> rw [h'] <;> simp only [regSR, regSSP] <;> omega

/-- Two different named registers are stored at different indices. -/
theorem bank_injective (hr : Named r) (hq : Named q) (h : regs.bank r = regs.bank q) : r = q := by
  simp only [Named, regPC] at hr hq
  obtain h₁ | ⟨hr', h₁⟩ := regs.bank_cases r <;> obtain h₂ | ⟨hq', h₂⟩ := regs.bank_cases q
  · rwa [h₁, h₂] at h
  · rw [h₁, h₂, regSSP] at h
    omega
  · rw [h₁, h₂, regSSP] at h
    omega
  · rw [hr', hq']

theorem supervisor_put_of_ne {i : ℕ} {v : BitVec 32} (h : i ≠ regSR) :
    (regs.put i v).supervisor = regs.supervisor := by
  simp only [supervisor, put, if_neg (Ne.symm h)]

theorem bank_put_of_ne {i : ℕ} {v : BitVec 32} (h : i ≠ regSR) :
    (regs.put i v).bank = regs.bank := by
  funext r
  simp only [bank, supervisor_put_of_ne h]

theorem supervisor_setFlag {flag : StatusRegisterFlag} (h : flag.bit < 5) (value : Bool) :
    (regs.setFlag flag value).supervisor = regs.supervisor := by
  simp only [supervisor, setFlag, put, if_pos]
  cases flag <;> simp [StatusRegisterFlag.bit] at h <;> cases value <;>
    simp [StatusRegisterFlag.mask, StatusRegisterFlag.bit]

theorem bank_setFlag {flag : StatusRegisterFlag} (h : flag.bit < 5) (value : Bool) :
    (regs.setFlag flag value).bank = regs.bank := by
  funext r
  simp only [bank, supervisor_setFlag h]

theorem merge_long (value data : BitVec 32) : merge value data .long = data := by
  simp only [merge, maskAbove32, mask32]
  have h : (~~~0xffffffff : BitVec 32) = 0 := by decide
  have h' : (0xffffffff : BitVec 32) = BitVec.allOnes 32 := by decide
  rw [h, h', BitVec.and_allOnes]
  simp

end Registers

/-! ### The named register of a state -/

namespace CPUState

/-- The register that the index names. -/
def reg (s : CPUState M) (r : ℕ) : BitVec 32 := s.registers.regBuffer (s.registers.bank r)

/-- The state with the named register replaced. -/
def withReg (s : CPUState M) (r : ℕ) (v : BitVec 32) : CPUState M :=
  { s with registers := s.registers.put (s.registers.bank r) v }

/-- The state with the flag assigned. -/
def withFlag (s : CPUState M) (flag : StatusRegisterFlag) (value : Bool) : CPUState M :=
  { s with registers := s.registers.setFlag flag value }

variable {s : CPUState M} {r q : ℕ} {v : BitVec 32}

@[simp] theorem memory_withReg : (s.withReg r v).memory = s.memory := rfl

@[simp] theorem memory_withFlag {flag : StatusRegisterFlag} {b : Bool} :
    (s.withFlag flag b).memory = s.memory := rfl

theorem regBuffer_withReg (i : ℕ) :
    (s.withReg r v).registers.regBuffer i = if i = s.registers.bank r then v
      else s.registers.regBuffer i := rfl

theorem regBuffer_withFlag {flag : StatusRegisterFlag} {b : Bool} {i : ℕ} (h : i ≠ regSR) :
    (s.withFlag flag b).registers.regBuffer i = s.registers.regBuffer i := if_neg h

@[simp] theorem reg_mk (mem : M) : (CPUState.mk mem s.registers).reg r = s.reg r := rfl

/-- A write to a named register leaves the status register. -/
theorem status_withReg (h : Named r) :
    (s.withReg r v).registers.regBuffer regSR = s.registers.regBuffer regSR := by
  rw [regBuffer_withReg, if_neg (Registers.bank_ne_regSR h).symm]

theorem bank_withReg (h : Named r) : (s.withReg r v).registers.bank = s.registers.bank :=
  Registers.bank_put_of_ne (Registers.bank_ne_regSR h)

theorem reg_withReg_self (h : Named r) : (s.withReg r v).reg r = v := by
  rw [reg, bank_withReg h, regBuffer_withReg, if_pos rfl]

theorem reg_withReg_of_ne (hr : Named r) (hq : Named q) (h : q ≠ r) :
    (s.withReg r v).reg q = s.reg q := by
  have hbank : s.registers.bank q ≠ s.registers.bank r :=
    fun h' => h (Registers.bank_injective hq hr h')
  rw [reg, bank_withReg hr, regBuffer_withReg, if_neg hbank, reg]

theorem reg_withReg (hr : Named r) (hq : Named q) :
    (s.withReg r v).reg q = if q = r then v else s.reg q := by
  split_ifs with h
  · rw [h, reg_withReg_self hr]
  · exact reg_withReg_of_ne hr hq h

theorem reg_withFlag {flag : StatusRegisterFlag} (hf : flag.bit < 5) (hq : Named q) {b : Bool} :
    (s.withFlag flag b).reg q = s.reg q := by
  have hbank : (s.withFlag flag b).registers.bank = s.registers.bank := Registers.bank_setFlag hf b
  rw [reg, hbank, regBuffer_withFlag (Registers.bank_ne_regSR hq), reg]

end CPUState

/-- The last of two writes to a register counts. -/
theorem CPUState.withReg_withReg {s : CPUState M} {r : ℕ} (h : Named r) (v w : BitVec 32) :
    (s.withReg r v).withReg r w = s.withReg r w := by
  unfold CPUState.withReg
  rw [Registers.bank_put_of_ne (Registers.bank_ne_regSR h)]
  simp only [Registers.put, CPUState.mk.injEq, Registers.mk.injEq, true_and]
  funext i
  split_ifs <;> rfl

/-! ### All registers but one -/

/-- The registers agree, except the one at index `k`. -/
def AgreesOff (k : ℕ) (s t : CPUState M) : Prop :=
  ∀ i, i ≠ k → t.registers.regBuffer i = s.registers.regBuffer i

namespace AgreesOff

variable {k r : ℕ} {s t : CPUState M} {v : BitVec 32}

theorem refl (k : ℕ) (s : CPUState M) : AgreesOff k s s := fun _ _ => rfl

theorem bank (h : AgreesOff k s t) (hk : k ≠ regSR) : t.registers.bank = s.registers.bank := by
  funext r
  rw [Registers.bank, Registers.bank, Registers.supervisor, Registers.supervisor, h regSR hk.symm]

theorem reg (h : AgreesOff k s t) (hk : k ≠ regSR) (hr : s.registers.bank r ≠ k) :
    t.reg r = s.reg r := by
  rw [CPUState.reg, h.bank hk, h _ hr, CPUState.reg]

/-- The same write on both sides. -/
theorem withReg (h : AgreesOff k s t) (hk : k ≠ regSR) (r : ℕ) (v : BitVec 32) :
    AgreesOff k (s.withReg r v) (t.withReg r v) := by
  intro i hi
  rw [CPUState.regBuffer_withReg, CPUState.regBuffer_withReg, h.bank hk, h i hi]

/-- A write to the register that may differ. -/
theorem withReg_left (h : AgreesOff k s t) (hr : s.registers.bank r = k) :
    AgreesOff k (s.withReg r v) t := by
  intro i hi
  rw [CPUState.regBuffer_withReg, hr, if_neg hi, h i hi]

theorem withReg_right (h : AgreesOff k s t) (hr : t.registers.bank r = k) :
    AgreesOff k s (t.withReg r v) := by
  intro i hi
  rw [CPUState.regBuffer_withReg, hr, if_neg hi, h i hi]

theorem withFlag (h : AgreesOff k s t) (hk : k ≠ regSR) (flag : StatusRegisterFlag) (b : Bool) :
    AgreesOff k (s.withFlag flag b) (t.withFlag flag b) := by
  intro i hi
  simp only [CPUState.withFlag, Registers.setFlag, Registers.put, h i hi, h regSR hk.symm]

end AgreesOff

/-! ### The register primitives on named registers -/

section Primitives

variable {s : CPUState M} {r : ℕ} {v : BitVec 32}

theorem getReg_apply (h : Named r) (size : DataSize) :
    getReg r size s = .ok (Registers.sized (s.reg r) size) s := by
  simp only [getReg, Registers.get, if_pos h.lt, CPUState.reg]

@[simp] theorem getReg_long (h : Named r) : getReg r .long s = .ok (s.reg r) s :=
  getReg_apply h .long

theorem setReg_apply (h : Named r) (size : DataSize) :
    setReg r size v s = .ok () (s.withReg r (Registers.merge (s.reg r) v size)) := by
  simp only [setReg, Registers.set, if_pos h.lt, if_neg (Registers.bank_ne_regSR h),
    CPUState.withReg, CPUState.reg]

@[simp] theorem setReg_long (h : Named r) : setReg r .long v s = .ok () (s.withReg r v) := by
  rw [setReg_apply h, Registers.merge_long]

@[simp] theorem setFlag_apply (flag : StatusRegisterFlag) (b : Bool) :
    setFlag flag b s = .ok () (s.withFlag flag b) := rfl

end Primitives

end M68kEmu
