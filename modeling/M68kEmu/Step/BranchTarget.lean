import M68kEmu.Frame.Operands

/-!
# Branches and their listings

`execute` and `disassembly` of a branch read the displacement in the same way, from the same state,
and add it to the end of the opcode word.  So the target that the listing prints is where a taken
branch goes, and the program counter that the listing leaves is where a branch that is not taken
goes.  All of this holds over any memory.
-/

namespace M68kEmu

open Outcome

variable {M : Type} {s t u : CPUState M}

/-! ### The condition -/

/-- The branch is taken: always for `BRA` and `BSR`, and by the flags otherwise. -/
def BccOperand.Taken (f : BccOperand) (s : CPUState M) : Prop :=
  f.condition = .true ∨ f.condition = .false ∨ CPUState.checkCondition f.condition s = .ok true s

theorem getFlag_congr (h : t.registers.regBuffer regSR = s.registers.regBuffer regSR)
    (flag : StatusRegisterFlag) : t.registers.getFlag flag = s.registers.getFlag flag := by
  rw [Registers.getFlag, Registers.getFlag, h]

/-- A condition is tested without a change of the state. -/
theorem exists_checkCondition (cond : Condition) (s : CPUState M) :
    ∃ b, CPUState.checkCondition cond s = .ok b s := ⟨_, rfl⟩

/-- A condition depends on the status register only. -/
theorem checkCondition_congr {cond : Condition} {b : Bool}
    (h : t.registers.regBuffer regSR = s.registers.regBuffer regSR)
    (hs : CPUState.checkCondition cond s = .ok b s) : CPUState.checkCondition cond t = .ok b t := by
  obtain ⟨c, hc⟩ := exists_checkCondition cond t
  have hcb : c = b := by
    simp only [CPUState.checkCondition, getFlag, bind_eq_ok, pure_apply,
      EStateM.Result.ok.injEq] at hc hs
    obtain ⟨n, _, ⟨rfl, rfl⟩, z, _, ⟨rfl, rfl⟩, v, _, ⟨rfl, rfl⟩, c', _, ⟨rfl, rfl⟩, rfl, -⟩ := hc
    obtain ⟨n, _, ⟨rfl, rfl⟩, z, _, ⟨rfl, rfl⟩, v, _, ⟨rfl, rfl⟩, c', _, ⟨rfl, rfl⟩, rfl, -⟩ := hs
    simp only [getFlag_congr h]
  rw [hc, hcb]

/-! ### The displacement -/

section Displacement

variable [IMemory M]

theorem registers_of_memGet {addr v : BitVec 32} {size : DataSize}
    (h : memGet addr size s = .ok v u) : u.registers = s.registers := by
  rw [memGet] at h
  split at h <;> cases h
  rfl

/-- A read of an immediate operand steps over it. -/
theorem stepped_of_immediate {size : DataSize} {v : BitVec 32}
    (h : CPUState.getData .immediate regD0 size s = .ok v u) :
    u.reg regPC = s.reg regPC + (Part.operand .immediate regD0 size).length ∧
      u.registers.regBuffer regSR = s.registers.regBuffer regSR := by
  rw [CPUState.getData, bind_of_ok (getReg_long named_regPC)] at h
  obtain ⟨data, s₁, hget, h⟩ := bind_eq_ok.1 h
  rw [bind_of_ok (setReg_long named_regPC)] at h
  obtain ⟨-, rfl⟩ := EStateM.Result.ok.inj h
  refine ⟨CPUState.reg_withReg_self named_regPC, ?_⟩
  rw [CPUState.status_withReg named_regPC, registers_of_memGet hget]

/-- A read of the displacement steps over its extension words. -/
theorem stepped_of_displacement {f : BccOperand} {v : BitVec 32}
    (h : Bcc.displacement (CPUState.getData .immediate regD0) f s = .ok v u) :
    u.reg regPC = s.reg regPC + delta regPC f.parts ∧
    u.registers.regBuffer regSR = s.registers.regBuffer regSR := by
  have hlength (size : DataSize) : delta regPC [.operand .immediate regD0 size] =
      (Part.operand .immediate regD0 size).length := by simp [delta, Part.delta]
  rw [BccOperand.parts]
  rw [Bcc.displacement] at h
  rcases hsize : f.dataSize with _ | _ | _ <;> rw [hsize] at h
  · obtain ⟨-, rfl⟩ := EStateM.Result.ok.inj h
    exact ⟨by simp [delta], rfl⟩
  · obtain ⟨data, s₁, hget, h⟩ := bind_eq_ok.1 h
    obtain ⟨-, rfl⟩ := EStateM.Result.ok.inj h
    rw [if_neg (by decide), hlength]
    exact stepped_of_immediate hget
  · rw [if_neg (by decide), hlength]
    exact stepped_of_immediate h

end Displacement

/-! ### Targets -/

/-- A branch that completes has been listed with the address where it goes. -/
theorem branch_goes_where_listed {M : Type} [IMemory M] (opcode : BitVec 16) (f : BccOperand)
    (hd : (decode opcode).derived = .bcc f) (s t : CPUState M)
    (h : (decode opcode).derived.execute .cpuState s = .ok () t) :
    ∃ target u, (decode opcode).derived.disassembly s =
    .ok (Bcc.mnemonic f.condition ++ " $" ++ hex32 target) u ∧
      u.reg regPC = s.reg regPC + delta regPC (decode opcode).derived.listed ∧
      (f.Taken s → t.reg regPC = target) ∧ (¬f.Taken s → t.reg regPC = u.reg regPC) := by
  rw [hd] at h ⊢
  replace h : Bcc.execute .cpuState f s = .ok () t := h
  rw [Bcc.execute, bind_of_ok (getReg_long named_regPC), bind_of_ok (setReg_long named_regPC)] at h
  obtain ⟨displacement, u, hdisp, h⟩ := bind_eq_ok.1 h
  replace hdisp : Bcc.displacement (CPUState.getData .immediate regD0) f
    (s.withReg regPC (s.reg regPC + 2)) = .ok displacement u := hdisp
  obtain ⟨hpc, hstatus⟩ := stepped_of_displacement hdisp
  rw [CPUState.reg_withReg_self named_regPC] at hpc
  rw [CPUState.status_withReg named_regPC] at hstatus
  have hlisted : Bcc.disassembly f s =
      .ok (Bcc.mnemonic f.condition ++ " $" ++ hex32 (s.reg regPC + 2 + displacement)) u := by
    rw [Bcc.disassembly, bind_of_ok (getReg_long named_regPC), bind_of_ok (setReg_long named_regPC),
      bind_of_ok hdisp]
    rfl
  have hnext : u.reg regPC = s.reg regPC + delta regPC (Derived.bcc f).listed := by
    rw [hpc, Derived.listed, delta, BitVec.add_assoc]
    rfl
  have hjump {v : CPUState M} {target : BitVec 32} (hset : setReg regPC .long target v = .ok () t) :
      t.reg regPC = target := by
    rw [setReg_long named_regPC] at hset
    obtain ⟨-, rfl⟩ := EStateM.Result.ok.inj hset
    exact CPUState.reg_withReg_self named_regPC
  refine ⟨s.reg regPC + 2 + displacement, u, hlisted, hnext, ?_⟩
  obtain ⟨b, hb⟩ := exists_checkCondition f.condition s
  have hbu : CPUState.checkCondition f.condition u = .ok b u := checkCondition_congr hstatus hb
  cases hcond : f.condition <;> rw [hcond] at h hb hbu
  case true =>
    exact ⟨fun _ => hjump h, fun hnot => absurd (.inl hcond) hnot⟩
  case false =>
    obtain ⟨_, v, -, h⟩ := bind_eq_ok.1 h
    exact ⟨fun _ => hjump h, fun hnot => absurd (.inr (.inl hcond)) hnot⟩
  all_goals
    dsimp only at h
    rw [bind_of_ok hbu] at h
    rw [BccOperand.Taken, hcond, hb]
    cases b with
    | true => exact ⟨fun _ => hjump h, fun hnot => absurd (.inr (.inr rfl)) hnot⟩
    | false =>
      obtain ⟨-, rfl⟩ := EStateM.Result.ok.inj h
      exact ⟨fun htaken => by simp at htaken, fun _ => rfl⟩

/-- `bvs` with the overflow flag set goes to the target that its listing shows. -/
theorem bvs_goes_where_listed :
    ∃ s t : CPUState BaseMemory, ∃ target u, (decode 0x6902).derived.execute .cpuState
      s = .ok () t ∧ (decode 0x6902).derived.disassembly s = .ok ("bvs" ++ " $" ++ hex32 target) u ∧
      t.reg regPC = target := by
  have hdecode :
      (decode 0x6902).derived =
      .bcc { condition := .overflowSet, displacement8 := 2, dataSize := .byte } := by
    rw [decode_eq_opcodeEntry]
    rfl
  obtain ⟨t, ht⟩ : ∃ t, (decode 0x6902).derived.execute .cpuState
      (CPUState.simple [] fun i => if i = regPC then 0x1000 else if i = regSR then 2 else 0) =
      .ok () t := by
    rw [hdecode]
    exact ⟨_, rfl⟩
  obtain ⟨target, u, hlisted, -, htaken, -⟩ := branch_goes_where_listed 0x6902 _ hdecode _ t ht
  exact ⟨_, t, target, u, ht, hlisted, htaken (.inr (.inr rfl))⟩

end M68kEmu
