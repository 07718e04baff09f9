import M68kEmu.Listing.Twin

/-!
# Branches and jumps

The displacement of a branch is in the opcode word or behind it, and the listing shows the target
only.  Two branches with one target do the same, except for the program counter of a branch that is
not taken.  What a jump does to the other registers and to the memory does not depend on its target.
-/

namespace M68kEmu

open Outcome

/-- Two states with the same registers, the program counter excepted, over memories that agree off
the bytes of `D`. -/
def TwinButPc (D : ℕ → Prop) (s t : CPUState BaseMemory) : Prop :=
  AgreesOff regPC s t ∧ SameOff D s.memory t.memory

variable {D : ℕ → Prop} {s t : CPUState BaseMemory}

theorem Twin.butPc (h : Twin D s t) : TwinButPc D s t := ⟨fun _ _ => by rw [h.1], h.2⟩

theorem TwinButPc.of_sameButPc {u v : CPUState BaseMemory} (h : Twin D s t) (hu : SameButPc s u)
    (hv : SameButPc t v) : TwinButPc D u v := by
  refine ⟨fun i hi => ?_, ?_⟩
  · rw [hv.registers i hi, hu.registers i hi, h.1]
  · rw [hu.memory, hv.memory]
    exact h.2

section Primitives

theorem regPC_ne_regSR : regPC ≠ regSR := by decide

theorem related_setReg_butPc {r : ℕ} (hr : Named r) (v : BitVec 32) :
    Related (TwinButPc D) (TwinButPc D) (TwinButPc D) (setReg r .long v) (setReg r .long v) := by
  intro s t h
  rw [setReg_long hr, setReg_long hr]
  exact .inl ⟨(), _, _, rfl, rfl, h.1.withReg regPC_ne_regSR r v, h.2⟩

theorem related_memSet_butPc (addr : BitVec 32) (size : DataSize) (data : BitVec 32) :
    Related (TwinButPc D) (TwinButPc D) (TwinButPc D) (memSet addr size data)
      (memSet addr size data) := by
  intro s t h
  simp only [memSet, IMemory.set, BaseMemory.set, h.2.check]
  rcases t.memory.check (maskAddr addr.toNat) size with e | _
  · exact .inr ⟨e, _, _, rfl, rfl, h⟩
  · exact .inl ⟨(), _, _, rfl, rfl, h.1, h.2.write addr size data⟩

theorem related_getReg_butPc {r : ℕ} (hr : r < 16) :
    Related (TwinButPc D) (TwinButPc D) (TwinButPc D) (getReg r .long) (getReg r .long) := by
  intro s t h
  have hn : Named r := named_of_lt hr
  have hbank : s.registers.bank r ≠ regPC := by
    intro hbank
    have hpc : s.registers.bank r = s.registers.bank regPC := by rw [hbank, Registers.bank_regPC]
    exact ne_regPC_of_lt hr (Registers.bank_injective hn named_regPC hpc)
  rw [getReg_long hn, getReg_long hn, h.1.reg regPC_ne_regSR hbank]
  exact .inl ⟨_, s, t, rfl, rfl, h⟩

theorem related_getFlag_butPc (flag : StatusRegisterFlag) :
    Related (TwinButPc D) (TwinButPc D) (TwinButPc D) (getFlag flag) (getFlag flag) := by
  intro s t h
  refine .inl ⟨s.registers.getFlag flag, s, t, rfl, ?_, h⟩
  rw [getFlag, Registers.getFlag, Registers.getFlag, h.1 regSR (by decide)]

theorem related_stackPush_butPc (size : DataSize) (data : BitVec 32) :
    Related (TwinButPc D) (TwinButPc D) (TwinButPc D) (CPUState.stackPush size data)
      (CPUState.stackPush size data) :=
  (related_getReg_butPc (by decide)).bind fun _ =>
    (related_setReg_butPc named_regUSP _).bind fun _ =>
    related_memSet_butPc _ _ _

theorem related_checkCondition_butPc (condition : Condition) :
    Related (TwinButPc D) (TwinButPc D) (TwinButPc D) (CPUState.checkCondition condition)
      (CPUState.checkCondition condition) :=
  (related_getFlag_butPc _).bind fun _ => (related_getFlag_butPc _).bind fun _ =>
    (related_getFlag_butPc _).bind fun _ =>
    (related_getFlag_butPc _).bind fun _ => .pure _

end Primitives

/-- The listing of a branch has read its displacement. -/
theorem displacement_of_listing {f : BccOperand} {text : String}
    (h : Bcc.disassembly f s = .ok text t) :
    ∃ u, Bcc.displacement (CPUState.getData .immediate regD0) f s.pastExtWord =
      .ok (f.displacementAt s.memory (s.reg regPC + 2)) u ∧ SameButPc s u := by
  rw [Bcc.disassembly, bind_of_ok (getReg_long named_regPC), bind_of_ok (setReg_long named_regPC)]
    at h
  obtain ⟨v, u, hv, -⟩ := bind_eq_ok.1 h
  have hreads :
      Reads OnlyPc (Bcc.displacement (CPUState.getData .immediate regD0) f : CpuM BaseMemory _)
      (Bcc.displacement (CPUState.getData .immediate regD0) f : CpuM BaseMemory _) := by
    have himm (size : DataSize) :
        Reads OnlyPc (CPUState.getData .immediate regD0 size : CpuM BaseMemory _)
        (CPUState.getData .immediate regD0 size : CpuM BaseMemory _) :=
      reads_getData onlyPc_regPC (fun hmoves => absurd hmoves (by decide)) size
    rw [Bcc.displacement]
    rcases f.dataSize with _ | _ | _
    · exact .pure _
    · exact .bind (himm _) fun _ => .pure _
    · exact himm _
  have hframe := sameButPc_of_reads hreads s.pastExtWord
  have hafter : after (Bcc.displacement (CPUState.getData .immediate regD0) f) s.pastExtWord = u :=
    after_of_ok hv
  have hvalue := displacement_eq_ok hv
  rw [CPUState.reg_withReg_self named_regPC] at hvalue
  rw [hafter] at hframe
  refine ⟨u, ?_, ((SameButPc.refl s).withReg _).trans hframe⟩
  rw [← CPUState.memory_withReg, ← hvalue]
  exact hv

/-- Branches on one condition to one target do the same. -/
theorem bcc_sameOutcome {f f' : BccOperand} {text text' : String} {u u' : CPUState BaseMemory}
    (hcond : f'.condition = f.condition) (h : Twin D s t) (hs : Bcc.disassembly f s = .ok text u)
    (ht : Bcc.disassembly f' t = .ok text' u')
    (htarget : f'.displacementAt t.memory (s.reg regPC + 2) = f.displacementAt s.memory
      (s.reg regPC + 2)) :
      SameOutcome (TwinButPc D) (TwinButPc D) (Bcc.execute .cpuState f s)
        (Bcc.execute .cpuState f' t) := by
  obtain ⟨v, hv, hsv⟩ := displacement_of_listing hs
  obtain ⟨v', hv', htv⟩ := displacement_of_listing ht
  rw [CPUState.pastExtWord, ← h.reg, htarget] at hv'
  have htwin : TwinButPc D v v' := .of_sameButPc h hsv htv
  rw [Bcc.execute, Bcc.execute, bind_of_ok (getReg_long named_regPC),
    bind_of_ok (getReg_long named_regPC),
    bind_of_ok (setReg_long named_regPC), bind_of_ok (setReg_long named_regPC), hcond, ← h.reg]
  refine SameOutcome.bind (Q := TwinButPc D) (.of_ok hv hv' htwin) fun displacement w w' hw => ?_
  have hjump (target : BitVec 32) := related_setReg_butPc (D := D) named_regPC target
  cases f.condition with
  | true => exact (hjump _).sameOutcome hw
  | false => exact ((related_stackPush_butPc _ _).bind fun _ => hjump _).sameOutcome hw
  | _ =>
    refine Related.sameOutcome ((related_checkCondition_butPc _).bind fun condResult => ?_) hw
    split_ifs
    · exact hjump _
    · exact .pure _

/-! ### Jumps -/

/-- What follows the address of a control operand, if it does the same for all addresses. -/
theorem control_sameOutcome {f : OneOperand} {g : BitVec 32 → CpuM BaseMemory Unit}
    (hf : f.destReg < 16) (hsized : f.dataSize.isSome) (h : Twin D s t)
    (hg : ∀ a a' u v, Twin D u v → SameOutcome (TwinButPc D) (TwinButPc D) (g a u) (g a' v)) :
    SameOutcome (TwinButPc D) (TwinButPc D)
      ((skipOpcode >>= fun _ => readSize f.dataSize >>= fun size =>
        CPUState.getControlAddress f.destMode f.destReg size >>= g) s)
      ((skipOpcode >>= fun _ => readSize f.dataSize >>= fun size =>
        CPUState.getControlAddress f.destMode f.destReg size >>= g) t) := by
  obtain ⟨size, hsize⟩ := Option.isSome_iff_exists.1 hsized
  rw [hsize, bind_of_ok (skipOpcode_apply s), bind_of_ok (skipOpcode_apply t), ← h.reg]
  exact sameOutcome_controlAddress_bind (h.withReg _ _) hf (fun _ _ => Twin.butPc) hg

theorem Twin.withPc (h : Twin D s t) (target target' : BitVec 32) :
    TwinButPc D (s.withReg regPC target) (t.withReg regPC target') :=
  .of_sameButPc h ((SameButPc.refl s).withReg _) ((SameButPc.refl t).withReg _)

theorem jmp_sameOutcome {f : OneOperand} (hf : f.destReg < 16) (hsized : f.dataSize.isSome)
    (h : Twin D s t) :
    SameOutcome (TwinButPc D) (TwinButPc D) (Jmp.execute .cpuState f s)
      (Jmp.execute .cpuState f t) := by
  refine control_sameOutcome hf hsized h fun a a' u v huv => ?_
  rw [setReg_long named_regPC, setReg_long named_regPC]
  exact .of_ok rfl rfl (huv.withPc a a')

theorem jsr_sameOutcome {f : OneOperand} (hf : f.destReg < 16) (hsized : f.dataSize.isSome)
    (h : Twin D s t) :
    SameOutcome (TwinButPc D) (TwinButPc D) (Jsr.execute .cpuState f s)
      (Jsr.execute .cpuState f t) := by
  refine control_sameOutcome hf hsized h fun a a' u v huv => ?_
  rw [bind_of_ok (getReg_long named_regPC), bind_of_ok (getReg_long named_regPC), ← huv.reg]
  refine (((related_stackPush_twin _ _).sameOutcome huv).mono (fun _ _ => id) fun _ _ =>
    Twin.butPc).bind ?_
  intro _ w w' hw
  rw [setReg_long named_regPC, setReg_long named_regPC]
  exact .of_ok rfl rfl (hw.withPc a a')

theorem rts_sameOutcome (h : Twin D s t) :
    SameOutcome (TwinButPc D) (TwinButPc D) (Rts.execute s) (Rts.execute t) := by
  simp only [Rts.execute, CPUState.stackPop, bind_assoc]
  rw [bind_of_ok (getReg_long named_regUSP), bind_of_ok (getReg_long named_regUSP), ← h.reg]
  refine sameOutcome_memGet_bind h h.butPc fun _ => ?_
  rw [bind_of_ok (setReg_long named_regUSP), bind_of_ok (setReg_long named_regUSP),
    pure_bind, pure_bind, setReg_long named_regPC, setReg_long named_regPC]
  exact .of_ok rfl rfl ((h.withReg _ _).withPc _ _)

end M68kEmu
