import M68kEmu.Frame.Bytes
import M68kEmu.Frame.Classes

/-!
# Calls and returns

A call pushes a return address; what a later `RTS` needs is that the stack still holds it
(`StackHolds`), which every state with the same top of stack inherits.  `JSR` pushes the address of
the next instruction.  `BSR` pushes the end of its opcode word, which is the next instruction only
if the displacement is in the opcode word.
-/

namespace M68kEmu

open Outcome

variable {s t t' u : CPUState BaseMemory} {sp data : BitVec 32}

/-! ### The stack -/

/-- The long word `data` has been pushed onto a stack that ended at `sp`. -/
structure StackHolds (t : CPUState BaseMemory) (sp data : BitVec 32) : Prop where
  top : t.reg regUSP = sp - 4
  accessible : t.memory.Accessible (sp - 4) .long
  value : t.memory.read (sp - 4) .long = data

/-- The active stack pointer, the supervisor bit and the four bytes at the stack pointer are the
same, in a memory of the same length. -/
structure StackKept (t t' : CPUState BaseMemory) : Prop where
  supervisor : t'.registers.supervisor = t.registers.supervisor
  top : t'.reg regUSP = t.reg regUSP
  memSize : t'.memory.memSize = t.memory.memSize
  bytes : ∀ i < 4, t'.memory.baseAddr (maskAddr (t.reg regUSP).toNat + i) =
    t.memory.baseAddr (maskAddr (t.reg regUSP).toNat + i)

theorem StackHolds.congr (h : StackHolds t sp data) (hkept : StackKept t t') :
    StackHolds t' sp data where
  top := hkept.top.trans h.top
  accessible := (BaseMemory.accessible_congr hkept.memSize).2 h.accessible
  value := by
    rw [← h.value, BaseMemory.read, BaseMemory.read]
    refine readRealMem_congr fun i hi hi' => ?_
    have hbyte :=
      hkept.bytes (i - maskAddr (sp - 4).toNat) (by simp only [DataSize.bytes] at hi'; omega)
    rwa [h.top, Nat.add_sub_cancel' hi] at hbyte

theorem StackHolds.jump (h : StackHolds t sp data) (pc : BitVec 32) :
    StackHolds (t.withReg regPC pc) sp data where
  top := (CPUState.reg_withReg_of_ne named_regPC named_regUSP (by decide)).trans h.top
  accessible := h.accessible
  value := h.value

/-- A push. -/
theorem stackHolds_of_stackPush {a : Unit} (h : CPUState.stackPush .long data s = .ok a t) :
    StackHolds t (s.reg regUSP) data := by
  simp [CPUState.stackPush] at h
  obtain ⟨hacc, rfl⟩ := h
  exact ⟨CPUState.reg_withReg_self named_regUSP, hacc, readRealMem_writeRealMem⟩

/-- A return. -/
theorem rts_of_stackHolds (h : StackHolds t sp data) :
    Rts.execute t = .ok () ((t.withReg regUSP sp).withReg regPC data) := by
  have hpop : CPUState.stackPop .long t = .ok data (t.withReg regUSP sp) := by
    have hsp : sp - 4 + 4 = sp := BitVec.sub_add_cancel sp 4
    rw [CPUState.stackPop, bind_of_ok (getReg_long named_regUSP), h.top,
      bind_of_ok (memGet_of_accessible h.accessible),
      bind_of_ok (setReg_long named_regUSP), h.value]
    exact congrArg (fun v => EStateM.Result.ok data (t.withReg regUSP v)) hsp
  rw [Rts.execute, bind_of_ok hpop, setReg_long named_regPC]

/-! ### The calls -/

namespace Derived

/-- `JSR` and `BSR`. -/
def IsCall : Derived → Prop
  | .jsr _ => True
  | .bcc f => f.condition = .false
  | _ => False

/-- `BSR` with a displacement in extension words. -/
def IsLongBsr : Derived → Prop
  | .bcc f => f.condition = .false ∧ f.dataSize ≠ .byte
  | _ => False

/-- The address that a call at `pc` pushes. -/
def pushed (d : Derived) (pc : BitVec 32) : BitVec 32 :=
  match d with
  | .bcc _ => pc + 2
  | d => pc + delta regPC d.listed

end Derived

/-- No operand of a call moves the stack pointer. -/
theorem delta_regUSP_of_control {mode : AddressingMode} {reg : ℕ} {size : DataSize}
    (h : isControlAddr mode) : delta regUSP [.operand mode reg size] = 0 := by
  have hmoves : ¬MovesBase mode := by
    rintro (rfl | rfl) <;> cases h
  simp [delta, Part.delta, baseStep_of_not_movesBase hmoves, regUSP, regPC]

theorem stackHolds_of_jsr {f : OneOperand} {a : Unit} (hf : (Derived.jsr f).Valid)
    (h : Jsr.execute .cpuState f s = .ok a t) :
    StackHolds t (s.reg regUSP) ((Derived.jsr f).pushed (s.reg regPC)) := by
  obtain ⟨hop, hsome⟩ := hf
  obtain ⟨size, hsize⟩ := Option.isSome_iff_exists.1 hsome
  obtain ⟨_, s₁, hskip, h⟩ := bind_eq_ok.1 h
  obtain ⟨size', s₂, hread, h⟩ := bind_eq_ok.1 h
  obtain ⟨destAddr, s₃, haddr, h⟩ := bind_eq_ok.1 h
  obtain ⟨pc, s₄, hpc, h⟩ := bind_eq_ok.1 h
  obtain ⟨_, s₅, hpush, hjump⟩ := bind_eq_ok.1 h
  rw [hsize] at hread
  cases hread
  rw [getReg_long named_regPC] at hpc
  cases hpc
  rw [setReg_long named_regPC] at hjump
  obtain ⟨-, rfl⟩ := EStateM.Result.ok.inj hjump
  -- the operand has been consumed, so the pushed address is the end of the instruction
  have hconsumed : Consumed (fun _ => False) [.opcode, f.destPart] s s₃ := by
    rw [OneOperand.destPart_eq hsize]
    exact (consumes_skipOpcode _ _ _ hskip).trans
      (consumes_getControlAddress hop.1.lt hop.2 _ _ _ haddr)
  have hsp : s₃.reg regUSP = s.reg regUSP := by
    rw [hconsumed.moved _ named_regUSP id, delta_opcode (by decide), OneOperand.destPart_eq hsize,
      delta_regUSP_of_control hop.2]
    exact BitVec.add_zero _
  have hholds := stackHolds_of_stackPush hpush
  rw [hsp, hconsumed.moved _ named_regPC id] at hholds
  exact hholds.jump destAddr

theorem stackHolds_of_bsr {f : BccOperand} {a : Unit} (hf : f.condition = .false)
    (h : Bcc.execute .cpuState f s = .ok a t) :
    StackHolds t (s.reg regUSP) ((Derived.bcc f).pushed (s.reg regPC)) := by
  obtain ⟨opcodePc, s₁, hpc, h⟩ := bind_eq_ok.1 h
  rw [getReg_long named_regPC] at hpc
  cases hpc
  obtain ⟨_, s₂, hset, h⟩ := bind_eq_ok.1 h
  rw [setReg_long named_regPC] at hset
  cases hset
  obtain ⟨displacement, s₃, hdisp, h⟩ := bind_eq_ok.1 h
  rw [hf] at h
  obtain ⟨_, s₄, hpush, hjump⟩ := bind_eq_ok.1 h
  rw [setReg_long named_regPC] at hjump
  obtain ⟨-, rfl⟩ := EStateM.Result.ok.inj hjump
  have hread :
      ReadStep (fun _ => False) f.parts (Bcc.displacement (CPUState.getData .immediate regD0) f)
      (Bcc.displacement (CPUState.getData .immediate regD0) f : CpuM BaseMemory _) :=
      readStep_displacement f
  have hconsumed := hread.consumes _ _ _ hdisp
  have hparts : delta regUSP f.parts = 0 := by
    rw [BccOperand.parts]
    split_ifs
    · rfl
    · simp [delta, Part.delta, regUSP, regPC, regD0]
  have hsp : s₃.reg regUSP = s.reg regUSP := by
    rw [hconsumed.moved _ named_regUSP id, hparts, CPUState.reg_withReg_of_ne named_regPC
      named_regUSP (by decide)]
    exact BitVec.add_zero _
  have hholds := stackHolds_of_stackPush hpush
  rw [hsp] at hholds
  exact hholds.jump _

/-- A call leaves its return address on the stack. -/
theorem stackHolds_of_call {d : Derived} {a : Unit} (hd : d.Valid) (hcall : d.IsCall)
    (h : d.execute .cpuState s = .ok a t) :
    StackHolds t (s.reg regUSP) (d.pushed (s.reg regPC)) := by
  cases d with
  | jsr f => exact stackHolds_of_jsr hd h
  | bcc f => exact stackHolds_of_bsr hcall h
  | _ => exact hcall.elim

/-- The pushed address is that of the next instruction, unless the displacement is in
extension words. -/
theorem pushed_eq_iff {d : Derived} (hcall : d.IsCall) (pc : BitVec 32) :
    d.pushed pc = pc + delta regPC d.listed ↔ ¬d.IsLongBsr := by
  cases d with
  | jsr f => exact iff_of_true rfl id
  | bcc f =>
    have hcond : f.condition = .false := hcall
    rcases hsize : f.dataSize with _ | _ | _ <;>
      simp [Derived.pushed, Derived.listed, Derived.IsLongBsr, BccOperand.parts, hcond, hsize,
        delta, Part.delta_regPC, Part.length, extSize, DataSize.toWord, DataSize.bytes]
  | _ => exact hcall.elim

/-- Call and return match: after a call, `RTS` in any state with the same top of stack continues at
the instruction that follows the call and restores the stack pointer.  This holds of every call but
the `BSR` whose displacement is in extension words. -/
theorem rts_after_call_iff (opcode : BitVec 16) (hcall : (decode opcode).derived.IsCall)
    (s t t' : CPUState BaseMemory) (a : Unit)
    (h : (decode opcode).derived.execute .cpuState s = .ok a t) (hkept : StackKept t t') :
    (∃ u, Rts.execute t' = .ok () u ∧ u.reg regPC = s.reg regPC +
      delta regPC (decode opcode).derived.listed ∧
      u.reg regUSP = s.reg regUSP) ↔ ¬(decode opcode).derived.IsLongBsr := by
  have hholds := (stackHolds_of_call (valid_decode opcode) hcall h).congr hkept
  have hrts := rts_of_stackHolds hholds
  rw [← pushed_eq_iff hcall (s.reg regPC)]
  constructor
  · rintro ⟨u, hu, hpc, -⟩
    rw [hrts] at hu
    obtain ⟨-, rfl⟩ := EStateM.Result.ok.inj hu
    rwa [CPUState.reg_withReg_self named_regPC] at hpc
  · intro hpushed
    refine ⟨_, hrts, ?_, ?_⟩
    · rw [CPUState.reg_withReg_self named_regPC, hpushed]
    · rw [CPUState.reg_withReg_of_ne named_regPC named_regUSP (by decide),
        CPUState.reg_withReg_self named_regUSP]

/-- `bsr.w` at address 0: the return address is 2, inside the instruction, which is 4 bytes long. -/
theorem bsr_word_returns_into_itself :
    let s := CPUState.simple [0x61, 0x00, 0x00, 0x10] fun i => if i = regUSP then 0x100 else 0
    (decode 0x6100).derived.IsCall ∧ delta regPC (decode 0x6100).derived.listed = 4 ∧
      ∃ t u, (decode 0x6100).derived.execute .cpuState s = .ok () t ∧ Rts.execute t = .ok () u ∧
        s.reg regPC = 0 ∧ u.reg regPC = 2 := by
  have hdecode :
      (decode 0x6100).derived =
      .bcc { condition := .false, displacement8 := 0, dataSize := .word } := by
    rw [decode_eq_opcodeEntry]
    rfl
  rw [hdecode]
  exact ⟨rfl, by decide, _, _, rfl, rfl, rfl, rfl⟩

/-- `jsr (A0)` at address 0, and the return from it. -/
theorem rts_after_jsr_indirect :
    ∃ t u, (decode 0x4E90).derived.execute .cpuState
        (CPUState.simple [0x4E, 0x90] fun i => if i = regUSP then 0x100 else 0) = .ok () t ∧
      Rts.execute t = .ok () u ∧ u.reg regPC = 2 ∧ u.reg regUSP = 0x100 := by
  have hdecode :
      (decode 0x4E90).derived =
      .jsr { destMode := .indirect, destReg := 8, dataSize := some .long } := by
    rw [decode_eq_opcodeEntry]
    rfl
  obtain ⟨t, ht⟩ : ∃ t, (decode 0x4E90).derived.execute .cpuState
      (CPUState.simple [0x4E, 0x90] fun i => if i = regUSP then 0x100 else 0) = .ok () t := by
    rw [hdecode]
    exact ⟨_, rfl⟩
  obtain ⟨u, hu, hpc, hsp⟩ := (rts_after_call_iff 0x4E90 (by rw [hdecode]; trivial) _ t t () ht
    ⟨rfl, rfl, rfl, fun _ _ => rfl⟩).2 (by rw [hdecode]; exact id)
  exact ⟨t, u, ht, hu, hpc.trans (by rw [hdecode]; rfl), hsp.trans rfl⟩

end M68kEmu
