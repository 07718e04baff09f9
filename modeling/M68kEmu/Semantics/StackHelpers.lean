import M68kEmu.Semantics.Operand

/-!
# The stack helpers and the modes of `A7`

`stackPush` and `stackPop` do what a store through `-(A7)` and a read through `(A7)+` do, except for
the order in a push: the helper moves the stack pointer before it stores, and an access that throws
leaves it moved.
-/

namespace M68kEmu

open Outcome

/-! ### The two sides -/

section Sides

variable (s : CPUState BaseMemory) (v : BitVec 32)

theorem named_A7 : Named regA7 := named_regUSP

/-- The helper moves the stack pointer and then stores. -/
theorem stackPush_apply :
    CPUState.stackPush .long v s = memSet (s.reg regA7 - 4) .long v
      (s.withReg regA7 (s.reg regA7 - 4)) := by
  rw [CPUState.stackPush, bind_of_ok (getReg_long named_regUSP),
    bind_of_ok (setReg_long named_regUSP)]
  rfl

/-- The mode stores and then moves the stack pointer. -/
theorem setData_predecrement_A7 :
    CPUState.setData .indirectPredecrement regA7 .long v s =
      (memSet (s.reg regA7 - 4) .long v >>= fun _ => setReg regA7 .long (s.reg regA7 - 4) : CpuM
        BaseMemory Unit) s := by
  rw [CPUState.setData, bind_of_ok (getReg_long named_A7)]
  rfl

/-- A pop goes alike on both sides, also where it throws. -/
theorem stackPop_eq_getData :
    CPUState.stackPop .long s = CPUState.getData .indirectPostincrement regA7 .long s := rfl

end Sides

/-- A pop that throws changes nothing. -/
theorem eq_of_stackPop_eq_error {s t : CPUState BaseMemory} {e : Fault}
    (h : CPUState.stackPop .long s = .error e t) : t = s := by
  rw [CPUState.stackPop, bind_of_ok (getReg_long named_regUSP)] at h
  obtain hget | ⟨data, u, hget, h⟩ := bind_eq_error.1 h
  · exact eq_of_memGet_eq_error hget
  · rw [bind_of_ok (setReg_long named_regUSP)] at h
    cases h

/-! ### Agreement -/

/-- The helpers have the outcome of the modes, and a helper that throws leaves the
stack pointer alone. -/
structure HelpersAgree (s : CPUState BaseMemory) (v : BitVec 32) : Prop where
  push : CPUState.stackPush .long v s = CPUState.setData .indirectPredecrement regA7 .long v s
  pop : CPUState.stackPop .long s = CPUState.getData .indirectPostincrement regA7 .long s
  push_error : ∀ e t, CPUState.stackPush .long v s = .error e t → t.reg regA7 = s.reg regA7
  pop_error : ∀ e t, CPUState.stackPop .long s = .error e t → t.reg regA7 = s.reg regA7

/-- A push that throws leaves the stack pointer moved. -/
theorem not_helpersAgree {s : CPUState BaseMemory} {v : BitVec 32}
    (hacc : ¬s.memory.Accessible (s.reg regA7 - 4) .long) : ¬HelpersAgree s v := by
  intro h
  have hacc' : ¬(s.withReg regA7 (s.reg regA7 - 4)).memory.Accessible (s.reg regA7 - 4) .long :=
    hacc
  obtain ⟨e, he⟩ := memSet_of_not_accessible hacc' v
  have hkept := h.push_error e _ ((stackPush_apply s v).trans he)
  rw [CPUState.reg_withReg_self named_A7] at hkept
  bv_omega

/-- The stack helpers agree with the modes of `A7` exactly where the long word below the stack
pointer can be written. -/
theorem stack_helpers_agree_iff (s : CPUState BaseMemory) (v : BitVec 32) :
    HelpersAgree s v ↔ s.memory.Accessible (s.reg regA7 - 4) .long := by
  refine ⟨fun h => ?_, fun hacc => ?_⟩
  · by_contra hacc
    exact not_helpersAgree hacc h
  · have hacc' : (s.withReg regA7 (s.reg regA7 - 4)).memory.Accessible (s.reg regA7 - 4) .long :=
      hacc
    have hpush : CPUState.stackPush .long v s =
        .ok () ((s.withReg regA7 (s.reg regA7 - 4)).stored (s.reg regA7 - 4) .long v) := by
      rw [stackPush_apply, memSet_of_accessible hacc']
    refine ⟨?_, stackPop_eq_getData s, fun e t h => ?_,
      fun e t h => by rw [eq_of_stackPop_eq_error h]⟩
    · rw [hpush, setData_predecrement_A7, bind_of_ok (memSet_of_accessible hacc),
        setReg_long named_A7]
      rfl
    · rw [hpush] at h
      cases h

/-- A push onto a stack that ends at an odd address throws, and leaves the stack
pointer four bytes lower. -/
theorem push_to_odd_address_moves :
    ¬HelpersAgree (CPUState.simple [] fun i => if i = regA7 then 0x1001 else 0) 0 :=
  not_helpersAgree (by decide)

end M68kEmu
