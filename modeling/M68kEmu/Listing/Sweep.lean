import M68kEmu.Listing.Faithful
import M68kEmu.Semantics.ShortForms
import M68kEmu.Step.Length

/-!
# Listing a program and running it

The listing of a whole program takes one instruction after the other, each from where the last one
ended, and reads the memory as it is before the program runs.  As long as the run executes no branch
instruction, taken or not, and does not overwrite an opcode before it executes it, the instructions
that are listed are the instructions that are executed, at the same addresses (`sweep_follows_run`).
The shifts of a memory operand with extension words are left out: the executor and the disassembler
do not agree on their length.
-/

namespace M68kEmu

open Outcome

/-- The step from `s` completes and executes no branch instruction, and its opcode is the one that
`mem` has at that address. -/
structure StraightLine (mem : BaseMemory) (s : CPUState BaseMemory) : Prop where
  completes : ∃ t, step s = .ok () t
  kept : mem.read (s.reg regPC) .word = s.memory.read (s.reg regPC) .word
  straight : ¬s.current.ControlTransfer
  length : ¬MemoryShiftWithExtension s.opcode

section Sweep

variable {mem : BaseMemory} {s t u : CPUState BaseMemory}

/-- An instruction that completes can be listed, and moves the program counter as its
listing does. -/
theorem listed_of_execute (hctl : ¬(decode s.opcode).derived.ControlTransfer)
    (hshift : ¬MemoryShiftWithExtension s.opcode)
    (h : (decode s.opcode).derived.execute .cpuState s = .ok () t) :
    Fetchable s.memory (s.reg regPC) (decode s.opcode).derived.listed ∧
      t.reg regPC = s.reg regPC + delta regPC (decode s.opcode).derived.listed ∧
      t.memory.memSize = s.memory.memSize := by
  have hvalid := valid_decode s.opcode
  have hstep : Step (· ∈ (decode s.opcode).derived.written) (decode s.opcode).derived.consumed
      ((decode s.opcode).derived.execute .cpuState)
      ((decode s.opcode).derived.execute .cpuState : CpuM BaseMemory Unit) := step_execute hvalid
  have hconsumed := hstep.consumes s () t h
  by_cases hcls : (decode s.opcode).derived.cls = .bitShift
  · obtain ⟨f, hf⟩ := Derived.eq_bitShift_of_cls hcls
    have hext : ¬(extSize f.addrMode .word).isSome := fun hext =>
      hshift ((memoryShift_iff (P := fun mode => (extSize mode .word).isSome) (by decide) hf).2
        hext)
    rw [hf] at h hvalid hconsumed ⊢
    refine ⟨fetchable_of_bitShift hvalid h, ?_, hconsumed.memSize⟩
    have hlength : (Part.operand f.addrMode f.addrReg f.dataSize).length = 0 := by
      rw [extSize_isSome f.dataSize, Option.not_isSome_iff_eq_none] at hext
      rw [Part.length, hext]
      rfl
    rw [hconsumed.moved _ named_regPC List.not_mem_nil, delta_listed_bitShift, hlength]
    rfl
  · have hpc := regPC_not_mem_written hvalid hctl
    rw [Derived.consumed_eq_listed hcls] at hconsumed
    exact ⟨hconsumed.fetched hpc, hconsumed.moved _ named_regPC hpc, hconsumed.memSize⟩

/-- A listing at the same address, in a memory with the same opcode there, steps over
what the step executes. -/
theorem StraightLine.lists (h : StraightLine mem s) (hpc : u.reg regPC = s.reg regPC)
    (hmem : u.memory = mem) (hsize : s.memory.memSize = mem.memSize) :
    u.opcode = s.opcode ∧ ∃ text v t, listCurrent u = .ok text v ∧ step s = .ok () t ∧
    v.memory = mem ∧ v.reg regPC = t.reg regPC ∧ t.memory.memSize = mem.memSize := by
  have hopcode : u.opcode = s.opcode := by
    rw [CPUState.opcode, hpc, hmem, h.kept]
    rfl
  obtain ⟨t, ht⟩ := h.completes
  obtain ⟨opcode, s', hfetch, hexecute⟩ := bind_eq_ok.1 ht
  have hacc : s.memory.Accessible (s.reg regPC) .word := by
    rw [fetchOpcode, bind_of_ok (getReg_long named_regPC)] at hfetch
    obtain ⟨word, w, hword, -⟩ := bind_eq_ok.1 hfetch
    exact (memGet_eq_ok.1 hword).1
  obtain ⟨rfl, rfl⟩ := EStateM.Result.ok.inj ((fetchOpcode_apply hacc).symm.trans hfetch)
  have hstraight := h.straight
  rw [CPUState.current_eq] at hstraight
  obtain ⟨hfetchable, hmoved, hkept⟩ := listed_of_execute hstraight h.length hexecute
  have hacc' : u.memory.Accessible (u.reg regPC) .word := by
    rw [hpc, hmem]
    exact (BaseMemory.accessible_congr hsize).1 hacc
  have hfetchable' : Fetchable u.memory (u.reg regPC) (decode s.opcode).derived.listed := by
    rw [hpc, hmem]
    exact (fetchable_congr hsize).1 hfetchable
  obtain ⟨text, v, hlist, hvmem, hvpc⟩ :=
    (listStep_disassembly (valid_decode s.opcode)).lists u hfetchable'
  refine ⟨hopcode, text, v, t, ?_, ht, hvmem.trans hmem, ?_, hkept.trans hsize⟩
  · rw [listCurrent, bind_of_ok (fetchOpcode_apply hacc'), hopcode]
    exact hlist
  · rw [hvpc, hpc, hmoved]

/-- What holds after as many listings as steps. -/
structure Abreast (mem : BaseMemory) (u s : CPUState BaseMemory) : Prop where
  pc : u.reg regPC = s.reg regPC
  memory : u.memory = mem
  memSize : s.memory.memSize = mem.memSize

theorem StraightLine.abreast (h : StraightLine mem s) (hu : Abreast mem u s) :
    Abreast mem (after listCurrent u) (after step s) := by
  obtain ⟨-, text, v, t, hlist, hstep, hvmem, hvpc, hsize⟩ := h.lists hu.pc hu.memory hu.memSize
  rw [after_of_ok hlist, after_of_ok hstep]
  exact ⟨hvpc, hvmem, hsize⟩

theorem abreast_iterate (n : ℕ) (hrun : ∀ k < n, StraightLine s.memory ((after step)^[k] s)) :
    Abreast s.memory ((after listCurrent)^[n] s) ((after step)^[n] s) := by
  induction n with
  | zero =>
    rw [Function.iterate_zero_apply, Function.iterate_zero_apply]
    exact ⟨rfl, rfl, rfl⟩
  | succ n ih =>
    rw [Function.iterate_succ_apply', Function.iterate_succ_apply']
    have habreast := ih fun k hk => hrun k (Nat.lt_succ_of_lt hk)
    exact (hrun n n.lt_succ_self).abreast habreast

end Sweep

/-- The listing of a program from its first instruction on follows every run without a branch
instruction: it does not throw, the instructions that it lists one after the other have the opcodes
that the run executes one after the other, and they stand at the same addresses. -/
theorem sweep_follows_run (s : CPUState BaseMemory) (n : ℕ)
    (hrun : ∀ k < n, StraightLine s.memory ((after step)^[k] s)) :
    (∀ k ≤ n, ((after listCurrent)^[k] s).reg regPC = ((after step)^[k] s).reg regPC) ∧
      ∀ k < n, ((after listCurrent)^[k] s).opcode = ((after step)^[k] s).opcode ∧
        ∃ text v, listCurrent ((after listCurrent)^[k] s) = .ok text v := by
  have habreast (k : ℕ) (hk : k ≤ n) :
      Abreast s.memory ((after listCurrent)^[k] s) ((after step)^[k] s) :=
    abreast_iterate k fun j hj => hrun j (hj.trans_le hk)
  refine ⟨fun k hk => (habreast k hk).pc, fun k hk => ?_⟩
  have hk' := habreast k hk.le
  obtain ⟨hopcode, text, v, -, hlist, -⟩ := (hrun k hk).lists hk'.pc hk'.memory hk'.memSize
  exact ⟨hopcode, text, v, hlist⟩

theorem straightLine_moveq_seven {mem : BaseMemory} {s : CPUState BaseMemory}
    (hfetch : fetchOpcode s = .ok 0x7007 s)
    (hopcode : s.opcode = 0x7007) (hmem : mem = s.memory) : StraightLine mem s where
  completes := ⟨_, step_moveq_seven hfetch⟩
  kept := by rw [hmem]
  straight := by
    rw [CPUState.current_eq, hopcode, decode_moveq_seven]
    exact id
  length := by
    rw [hopcode]
    decide

/-- `moveq #7, D0`, twice. -/
def moveqTwice : CPUState BaseMemory := .simple [0x70, 0x07, 0x70, 0x07] fun _ => 0

theorem sweep_follows_moveqTwice :
    ((after listCurrent)^[2] moveqTwice).reg regPC = ((after step)^[2] moveqTwice).reg regPC ∧
      ∃ text v, listCurrent (after listCurrent moveqTwice) = .ok text v := by
  have hfirst : fetchOpcode moveqTwice = .ok 0x7007 moveqTwice := rfl
  have hstep : after step moveqTwice = (moveqTwice.withReg regPC (moveqTwice.reg regPC + 2)).moved 0
      7 false false :=
    after_of_ok (step_moveq_seven hfirst)
  have hrun : ∀ k < 2, StraightLine moveqTwice.memory ((after step)^[k] moveqTwice) := by
    intro k hk
    obtain rfl | rfl : k = 0 ∨ k = 1 := by omega
    · rw [Function.iterate_zero_apply]
      exact straightLine_moveq_seven hfirst rfl rfl
    · rw [Function.iterate_one, hstep]
      exact straightLine_moveq_seven rfl rfl rfl
  obtain ⟨hpc, hlisted⟩ := sweep_follows_run moveqTwice 2 hrun
  obtain ⟨-, text, v, hlist⟩ := hlisted 1 (by decide)
  rw [Function.iterate_one] at hlist
  exact ⟨hpc 2 le_rfl, text, v, hlist⟩

end M68kEmu
