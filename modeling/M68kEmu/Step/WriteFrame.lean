import M68kEmu.Decode.MemoryShift
import M68kEmu.Frame.Bytes
import M68kEmu.Frame.Simulation
import M68kEmu.Step.Isolation

/-!
# The write frame of a step

What a step may change.  The calls of `IMemory::set` are counted by a memory that logs them
(`Traced`): a step over it goes as the step over the memory itself, and logs at most one call,
inside which all changed bytes lie.  The registers that change are those that the instruction
assigns and the base registers of its operands `(An)+` and `-(An)`; only the shifts of such a memory
operand leave the base register where it was.
-/

namespace M68kEmu

open Outcome

/-! ### Counting the writes -/

/-- A call of `IMemory::set`. -/
structure SetCall where
  address : ℕ
  size : DataSize
  deriving DecidableEq, Repr

/-- A memory that logs the calls of its `set`, whether they return or throw. -/
structure Traced (M : Type) where
  memory : M
  sets : List SetCall

instance {M : Type} [IMemory M] : IMemory (Traced M) where
  get address size := fun traced =>
    match IMemory.get address size traced.memory with
    | .ok v mem => .ok v { traced with memory := mem }
    | .error e mem => .error e { traced with memory := mem }
  set address size data := fun traced =>
    let sets := traced.sets ++ [⟨address, size⟩]
    match IMemory.set address size data traced.memory with
    | .ok u mem => .ok u ⟨mem, sets⟩
    | .error e mem => .error e ⟨mem, sets⟩

/-- The state with an empty log. -/
def CPUState.traced {M : Type} (s : CPUState M) : CPUState (Traced M) :=
  ⟨⟨s.memory, []⟩, s.registers⟩

/-- The calls of `IMemory::set` that a step makes. -/
def setCalls {M : Type} [IMemory M] (s : CPUState M) : List SetCall :=
  (after step s.traced).memory.sets

/-- Bytes that differ between the two memories lie in the operand of one of the calls. -/
structure Inside (calls : List SetCall) (mem mem' : BaseMemory) : Prop where
  memSize : mem'.memSize = mem.memSize
  bytes : ∀ i,
    (∀ call ∈ calls, i < maskAddr call.address ∨ maskAddr call.address + call.size.bytes ≤ i) →
    mem'.baseAddr i = mem.baseAddr i

theorem Inside.refl (calls : List SetCall) (mem : BaseMemory) : Inside calls mem mem :=
  ⟨rfl, fun _ _ => rfl⟩

/-- Before the store: the log is empty, and the memory is the one that the step started with. -/
def Untouched (mem₀ mem : BaseMemory) (traced : Traced BaseMemory) : Prop :=
  mem = mem₀ ∧ traced = ⟨mem, []⟩

/-- From the store on: at most one call is logged, and the bytes that differ lie inside it. -/
structure TouchedOnce (mem₀ mem : BaseMemory) (traced : Traced BaseMemory) : Prop where
  memory : traced.memory = mem
  atMostOne : traced.sets.length ≤ 1
  inside : Inside traced.sets mem₀ mem

theorem Untouched.touchedOnce {mem₀ mem : BaseMemory} {traced : Traced BaseMemory}
    (h : Untouched mem₀ mem traced) : TouchedOnce mem₀ mem traced := by
  obtain ⟨rfl, rfl⟩ := h
  exact ⟨rfl, by simp, .refl [] mem⟩

theorem after_get (address : ℕ) (size : DataSize) (mem : BaseMemory) :
    after (BaseMemory.get address size) mem = mem := by
  rw [after, BaseMemory.get]
  rcases mem.check (maskAddr address) size with e | _ <;> rfl

theorem related_get_traced (mem₀ : BaseMemory) (address : ℕ) (size : DataSize) :
    Related (Untouched mem₀) (Untouched mem₀) (TouchedOnce mem₀)
      (IMemory.get address size : EStateM Fault BaseMemory _) (IMemory.get address size) := by
  rintro mem _ ⟨rfl, rfl⟩
  have hafter := after_get address size mem
  rcases hget : BaseMemory.get address size mem with ⟨v, mem'⟩ | ⟨e, mem'⟩
  · rw [after_of_ok hget] at hafter
    subst hafter
    exact .inl ⟨v, _, _, hget, by simp only [IMemory.get, hget], rfl, rfl⟩
  · rw [after_of_error hget] at hafter
    subst hafter
    exact .inr ⟨e, _, _, hget, by simp only [IMemory.get, hget], Untouched.touchedOnce ⟨rfl, rfl⟩⟩

theorem inside_set (mem : BaseMemory) (address : ℕ) (size : DataSize) (data : BitVec 32) :
    Inside [⟨address, size⟩] mem (after (BaseMemory.set address size data) mem) := by
  rw [after, BaseMemory.set]
  rcases mem.check (maskAddr address) size with e | _
  · exact .refl _ mem
  · exact ⟨rfl, fun i hi => writeRealMem_of_outside (hi _ List.mem_cons_self)⟩

theorem related_set_traced (mem₀ : BaseMemory) (address : ℕ) (size : DataSize) (data : BitVec 32) :
    Related (Untouched mem₀) (TouchedOnce mem₀) (TouchedOnce mem₀)
      (IMemory.set address size data : EStateM Fault BaseMemory _)
        (IMemory.set address size data) := by
  rintro mem _ ⟨rfl, rfl⟩
  have hinside := inside_set mem address size data
  rcases hset : BaseMemory.set address size data mem with ⟨u, mem'⟩ | ⟨e, mem'⟩
  · rw [after_of_ok hset] at hinside
    exact .inl ⟨u, _, _, hset, by simp only [IMemory.set, hset]; rfl, rfl, by simp, hinside⟩
  · rw [after_of_error hset] at hinside
    exact .inr ⟨e, _, _, hset, by simp only [IMemory.set, hset]; rfl, rfl, by simp, hinside⟩

/-- The step with a log goes as the step without, and makes at most one call. -/
theorem touchedOnce_step (s : CPUState BaseMemory) :
    Over (TouchedOnce s.memory) (after step s) (after step s.traced) := by
  have hrelated :=
    step_simulates (fun _ _ h => h.touchedOnce) (fun _ _ h => h) (related_get_traced s.memory)
    (related_set_traced s.memory)
  obtain ⟨u, t, t', hs, hs', ht⟩ | ⟨e, t, t', hs, hs', ht⟩ := hrelated s s.traced ⟨rfl, rfl, rfl⟩
  · rwa [after_of_ok hs, after_of_ok hs']
  · rwa [after_of_error hs, after_of_error hs']

/-! ### The registers -/

/-- What an instruction may change in the registers: the status flags, the program counter, the
registers that it assigns, and the base registers of its operands, each by what its operands move
it.  The stack pointer that is not active is not among them. -/
structure RegistersFramed (d : Derived) (s t : CPUState BaseMemory) : Prop where
  status : t.registers.regBuffer regSR &&& systemBits = s.registers.regBuffer regSR &&& systemBits
  inactive : t.registers.regBuffer s.registers.inactive = s.registers.regBuffer s.registers.inactive
  moved : ∀ r < 16, r ∉ d.written → t.reg r = s.reg r + delta r d.listed

/-- The opcode of a shift of a memory operand `(An)+` or `-(An)`. -/
def MemoryShiftMovingBase : BitVec 16 → Prop := MemoryShift MovesBase

instance : DecidablePred MemoryShiftMovingBase := fun opcode =>
  inferInstanceAs (Decidable (MemoryShift MovesBase opcode))

theorem baseStep_ne_zero {mode : AddressingMode} {reg : ℕ} {size : DataSize} (h : MovesBase mode) :
    baseStep mode reg size ≠ 0 := by
  obtain rfl | rfl :=
    h <;> simp only [baseStep, incremented, decremented] <;> split_ifs <;> cases size <;> decide

/-- The operand of a shift is the only part of its listing that moves a register. -/
theorem delta_listed_bitShift_of_ne {f : BitShiftOperand} {r : ℕ} (h : r ≠ regPC) :
    delta r (Derived.bitShift f).listed = if r = f.addrReg then baseStep f.addrMode f.addrReg
      f.dataSize else 0 := by
  rw [Derived.listed]
  split_ifs <;> simp_all [delta, Part.delta, baseStep]

/-- A shift moves no register, so its registers are framed exactly if its operand
would not have moved one. -/
theorem registersFramed_bitShift_iff {f : BitShiftOperand} (hf : (Derived.bitShift f).Valid)
    {s t : CPUState BaseMemory} (hisolated : Isolated s t) (h : Consumed (· ∈ []) [.opcode] s t) :
    RegistersFramed (.bitShift f) s t ↔ ¬MovesBase f.addrMode := by
  have hkept (r : ℕ) (hr : r < 16) : t.reg r = s.reg r := by
    have hpc : r ≠ regPC := by simp only [regPC]; omega
    rw [h.moved r (named_of_lt hr) List.not_mem_nil]
    simp [delta, Part.delta, hpc]
  constructor
  · intro hframed hmoves
    have hpc : f.addrReg ≠ regPC := by have := hf.1.lt; simp only [regPC]; omega
    have hmoved := hframed.moved f.addrReg hf.1.lt List.not_mem_nil
    rw [hkept _ hf.1.lt, delta_listed_bitShift_of_ne hpc, if_pos rfl] at hmoved
    exact baseStep_ne_zero hmoves (by simpa using hmoved.symm)
  · refine fun hmoves => ⟨hisolated.status, hisolated.inactive, fun r hr _ => ?_⟩
    have hpc : r ≠ regPC := by simp only [regPC]; omega
    rw [hkept r hr, delta_listed_bitShift_of_ne hpc, baseStep_of_not_movesBase hmoves]
    simp

theorem registersFramed_of_consumed {d : Derived} (hlisted : d.consumed = d.listed)
    {s t : CPUState BaseMemory} (hisolated : Isolated s t)
    (h : Consumed (· ∈ d.written) d.consumed s t) : RegistersFramed d s t where
  status := hisolated.status
  inactive := hisolated.inactive
  moved r hr hwritten := by rw [h.moved r (named_of_lt hr) hwritten, hlisted]

/-- The write frame of a step: at most one write, the bytes that differ inside it, and the registers
that differ those of the instruction, unless it shifts a memory operand `(An)+` or `-(An)`. -/
theorem step_write_frame_iff (s : CPUState BaseMemory) :
    (setCalls s).length ≤ 1 ∧
    ∀ opcode u t, fetchOpcode s = .ok opcode s → step s = .ok u t →
      (Inside (setCalls s) s.memory t.memory ∧ RegistersFramed (decode opcode).derived s t ↔
        ¬MemoryShiftMovingBase opcode) := by
  have htouched := (touchedOnce_step s).2
  refine ⟨htouched.atMostOne, fun opcode u t hfetch h => ?_⟩
  have hisolated := step_isolated s
  rw [after_of_ok h] at htouched hisolated
  have hexecute : (decode opcode).derived.execute .cpuState s = .ok u t := by
    rwa [step, stepWith, bind_of_ok hfetch] at h
  have hstep : Step (· ∈ (decode opcode).derived.written) (decode opcode).derived.consumed
      ((decode opcode).derived.execute .cpuState)
      ((decode opcode).derived.execute .cpuState : CpuM BaseMemory Unit) :=
    step_execute (valid_decode opcode)
  have hconsumed := hstep.consumes s u t hexecute
  refine (and_iff_right htouched.inside).trans ?_
  by_cases hcls : (decode opcode).derived.cls = .bitShift
  · obtain ⟨f, hf⟩ := Derived.eq_bitShift_of_cls hcls
    have hiff : MemoryShiftMovingBase opcode ↔ MovesBase f.addrMode :=
      memoryShift_iff (by decide) hf
    have hvalid := valid_decode opcode
    rw [hf] at hconsumed hvalid ⊢
    rw [hiff, registersFramed_bitShift_iff hvalid hisolated hconsumed]
  · exact iff_of_true (registersFramed_of_consumed (Derived.consumed_eq_listed hcls)
      hisolated hconsumed) (not_memoryShift (cls_ne_illegal_of_execute hexecute) hcls)

/-- A shift of `(A0)+` leaves `A0` where it was. -/
theorem shift_postincrement_keeps_base :
    ∃ t, step (CPUState.simple [0xE0, 0xD8] fun _ => 0) = .ok () t ∧
      t.reg 8 = (CPUState.simple [0xE0, 0xD8] fun _ => 0).reg 8 ∧
      ¬RegistersFramed (decode 0xE0D8).derived (CPUState.simple [0xE0, 0xD8] fun _ => 0) t := by
  have hdecode : (decode 0xE0D8).derived =
      .bitShift { addrMode := .indirectPostincrement, addrReg := 8, shiftReg := 0, immShift := 1,
                  directionLeft := false,
                  isImm := false, isMemory := true, instructionType := .ro, instructionStr := "ror",
                  dataSize := .word } := by
    rw [decode_eq_opcodeEntry]
    rfl
  have hfetch : fetchOpcode (CPUState.simple [0xE0, 0xD8] fun _ => 0) =
      .ok 0xE0D8 (CPUState.simple [0xE0, 0xD8] fun _ => 0) := rfl
  rw [step, stepWith, bind_of_ok hfetch, hdecode]
  refine ⟨_, rfl, by decide, fun h => ?_⟩
  exact absurd (h.moved 8 (by decide) (by decide)) (by decide)

/-- `move.w (A0)+, D1` moves `A0` by two and assigns `D1`. -/
theorem move_postincrement_framed :
    ∃ t, step (CPUState.simple [0x32, 0x18] fun _ => 0) = .ok () t ∧
      Inside (setCalls (CPUState.simple [0x32, 0x18] fun _ => 0))
        (CPUState.simple [0x32, 0x18] fun _ => 0).memory t.memory ∧
      RegistersFramed (decode 0x3218).derived (CPUState.simple [0x32, 0x18] fun _ => 0) t := by
  have hdecode : (decode 0x3218).derived =
      .move { destMode := .directData, destReg := 1, dataSize := some .word,
              srcMode := .indirectPostincrement,
              srcReg := 8, isMovea := false } := by
    rw [decode_eq_opcodeEntry]
    rfl
  have hfetch : fetchOpcode (CPUState.simple [0x32, 0x18] fun _ => 0) =
      .ok 0x3218 (CPUState.simple [0x32, 0x18] fun _ => 0) := rfl
  obtain ⟨t, ht⟩ : ∃ t, step (CPUState.simple [0x32, 0x18] fun _ => 0) = .ok () t := by
    rw [step, stepWith, bind_of_ok hfetch, hdecode]
    exact ⟨_, rfl⟩
  exact ⟨t, ht, ((step_write_frame_iff _).2 0x3218 () t hfetch ht).2 (by decide)⟩

end M68kEmu
