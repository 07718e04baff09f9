import M68kEmu.Decode.Valid
import M68kEmu.Frame.Calls

/-!
# The requests of a step

Every register index that a step passes to `Registers` is below `REGS_COUNT`, whatever the memory
supplies: the indices are fields of the instruction object, fields of an extension word, or
constants.  A size is `SIZE_BYTE`, `SIZE_WORD` or `SIZE_LONG` unless it is read from a field that no
constructor has set, and the objects of the decode table have theirs set.  So a step throws only
what its memory throws, and what an instruction throws itself.

The model's `DataSize` has no other values.  A variable of the enumeration may hold one in the
source, so the functions that switch on a size are also given on any value of it, with the
`default` that throws.
-/

namespace M68kEmu

open Outcome

/-! ### Requests of any size -/

/-- What a request throws for its index or its size. -/
inductive RequestError where
  /-- the `assert` of `Registers` -/
  | registerIndex
  /-- `std::length_error`, thrown by the `default` of the `switch` -/
  | invalidSize (size : ℕ)
  deriving DecidableEq, Repr

/-- `Registers::get(RegisterType, DataSize)`, on any value of the size. -/
def Registers.getValue (regs : Registers) (regInd size : ℕ) : Except RequestError (BitVec 32) :=
  if regInd < regsCount then
    let outputData := regs.regBuffer (regs.bank regInd)
    match size with
    | 1 => .ok (mask8 outputData)
    | 2 => .ok (mask16 outputData)
    | 4 => .ok outputData
    | _ => .error (.invalidSize size)
  else .error .registerIndex

/-- `Registers::set(RegisterType, DataSize, uint32_t)`, on any value of the size. -/
def Registers.setValue (regs : Registers) (regInd size : ℕ) (data : BitVec 32) :
    Except RequestError Registers :=
  if regInd < regsCount then
    let ind := regs.bank regInd
    let regValue := regs.regBuffer ind
    let store (value : BitVec 32) : Registers :=
      regs.put ind (if ind = regSR then mask16 value else value)
    match size with
    | 1 => .ok (store (maskAbove8 regValue ||| mask8 data))
    | 2 => .ok (store (maskAbove16 regValue ||| mask16 data))
    | 4 => .ok (store (maskAbove32 regValue ||| mask32 data))
    | _ => .error (.invalidSize size)
  else .error .registerIndex

/-- `IMemory::read_real_mem`, on any value of the size. -/
def readValue (bytes : ℕ → BitVec 8) (addr size : ℕ) : Except RequestError (BitVec 32) :=
  match size with
  | 1 => .ok (readRealMem bytes addr .byte)
  | 2 => .ok (readRealMem bytes addr .word)
  | 4 => .ok (readRealMem bytes addr .long)
  | _ => .error (.invalidSize size)

/-- `IMemory::write_real_mem`, on any value of the size. -/
def writeValue (bytes : ℕ → BitVec 8) (addr size : ℕ) (data : BitVec 32) :
    Except RequestError (ℕ → BitVec 8) :=
  match size with
  | 1 => .ok (writeRealMem bytes addr data .byte)
  | 2 => .ok (writeRealMem bytes addr data .word)
  | 4 => .ok (writeRealMem bytes addr data .long)
  | _ => .error (.invalidSize size)

/-- A request for the register at the size passes the `assert` and every `switch`, and does
what the model does. -/
structure Served (r : ℕ) (size : DataSize) : Prop where
  get : ∀ regs : Registers, ∃ v, regs.getValue r size.bytes = .ok v ∧ regs.get r size = .ok v
  set : ∀ (regs : Registers) (data : BitVec 32),
    ∃ regs', regs.setValue r size.bytes data = .ok regs' ∧ regs.set r size data = .ok regs'
  read : ∀ bytes addr, readValue bytes addr size.bytes = .ok (readRealMem bytes addr size)
  write : ∀ bytes addr data, writeValue bytes addr size.bytes data =
    .ok (writeRealMem bytes addr data size)

theorem served_of_lt {r : ℕ} (h : r < regsCount) (size : DataSize) : Served r size := by
  refine ⟨fun regs => ?_, fun regs data => ?_, fun bytes addr => ?_, fun bytes addr data => ?_⟩
  · rw [Registers.get, Registers.getValue, if_pos h, if_pos h]
    cases size <;> exact ⟨_, rfl, rfl⟩
  · rw [Registers.set, Registers.setValue, if_pos h, if_pos h]
    cases size <;> exact ⟨_, rfl, rfl⟩
  · cases size <;> rfl
  · cases size <;> rfl

variable {M : Type} [IMemory M] {α : Type}

/-! ### Requests in range -/

/-- The calls that pass a register index in range, and the exceptions that
instructions throw themselves. -/
inductive Request : Calls Fault (CPUState M)
  | member {α : Type} {x : CpuM M α} (h : MemberCall (· < regsCount) x) : Request x
  | invalidOpcode {α : Type} : Request (throw .invalidOpcode : CpuM M α)
  | divideByZero {α : Type} : Request (throw .divideByZero : CpuM M α)

/-- Computations that make such calls only. -/
abbrev Requests : Calls Fault (CPUState M) := Built Request

/-- Register indices are in range, and the size is set. -/
def Limits.inRange : Limits where
  Reg r := r < regsCount
  Mode _ := True
  Size dataSize := dataSize.isSome
  regPC := by decide
  regUSP := by decide
  regD0 := by decide
  immediate := trivial
  directData := trivial
  directAddr := trivial

section Fields

theorem regsCount_of_lt {r : ℕ} (h : r < 16) : r < regsCount := (named_of_lt h).lt

theorem OneOperand.Valid.inRange {f : OneOperand} (h : f.Valid) : f.Within .inRange :=
  ⟨trivial, regsCount_of_lt h.dest.lt, h.sized⟩

theorem TwoOperand.Valid.inRange {f : TwoOperand} (h : f.Valid) : f.Within .inRange :=
  ⟨h.toValid.inRange, trivial, regsCount_of_lt h.src.lt⟩

theorem Derived.Valid.inRange {d : Derived} (h : d.Valid) : d.Within .inRange := by
  cases d with
  | add | adda | addx | and | cmp | cmpa | eor | or | sub | suba | subx =>
    exact TwoOperand.Valid.inRange h
  | addi | andi | clr | cmpi | eori | neg | ori | subi => exact OneOperand.Valid.inRange h
  | addq | moveq | subq => exact OneOperand.Valid.inRange h
  | div | mul | move => exact TwoOperand.Valid.inRange h.1
  | ext => exact OneOperand.Valid.inRange h.1
  | bitManip => exact TwoOperand.Valid.inRange h
  | jmp | jsr | pea => exact ⟨trivial, regsCount_of_lt h.1.1.lt, h.2⟩
  | tst => exact ⟨trivial, regsCount_of_lt h.1.lt, h.2⟩
  | bitShift => exact ⟨trivial, regsCount_of_lt h.1.lt, regsCount_of_lt h.2⟩
  | lea => exact ⟨trivial, regsCount_of_lt h.1.1.lt, regsCount_of_lt h.2⟩
  | link | unlk => exact regsCount_of_lt h
  | scc => exact ⟨trivial, regsCount_of_lt h.1.lt⟩
  | bcc | illegal | nop | rts => trivial

/-- The objects of the decode table have their registers in range and their size set. -/
theorem inRange_decode (opcode : BitVec 16) : (decode opcode).derived.Within .inRange :=
  (valid_decode opcode).inRange

end Fields

section Calls

theorem requests_of_members {x : CpuM M α} (h : MemberCalls (· < regsCount) x) : Requests x := by
  apply h.trans
  intro _ _ hcall
  exact .call (.member hcall)

/-- The accessors pass on a register in range, the program counter, and the index register
of an extension word. -/
theorem requests_of_call {x : CpuM M α} (hx : ExecuteCall .cpuState .inRange x) : Requests x := by
  have hpc : regPC < regsCount := by decide
  have hindex : ∀ r < 16, r < regsCount := fun r => regsCount_of_lt
  cases hx with
  | member h => exact .call (.member h)
  | getControlAddress _ hreg size =>
    exact requests_of_members (members_getControlAddress hpc hindex _ hreg size)
  | getData _ hreg size => exact requests_of_members (members_getData hpc hindex _ hreg size)
  | getDataSilent _ hreg size =>
    exact requests_of_members (members_getDataSilent hpc hindex _ hreg size)
  | setData _ hreg size data =>
    exact requests_of_members (members_setData hpc hindex _ hreg size data)
  | readSize h =>
    obtain ⟨size, rfl⟩ := Option.isSome_iff_exists.1 h
    exact .pure size
  | invalidOpcode => exact .call .invalidOpcode
  | divideByZero => exact .call .divideByZero

/-- A step makes no other calls, whatever the word at the program counter. -/
theorem requests_step : Requests (step : CpuM M Unit) := by
  unfold step stepWith
  refine .bind (requests_of_members (members_fetchOpcode (by decide))) fun opcode => ?_
  exact (calls_execute (inRange_decode opcode)).trans requests_of_call

end Calls

/-! ### What a step throws -/

/-- The exceptions of the memory. -/
inductive RaisedBy (M : Type) [IMemory M] : Fault → Prop
  | get {address : ℕ} {size : DataSize} {mem mem' : M} {e : Fault}
      (h : IMemory.get address size mem = .error e mem') : RaisedBy M e
  | set {address : ℕ} {size : DataSize} {data : BitVec 32} {mem mem' : M} {e : Fault}
      (h : IMemory.set address size data mem = .error e mem') : RaisedBy M e

/-- The exceptions of a call: those of the memory, and those that instructions throw themselves. -/
def StepFault (M : Type) [IMemory M] (e : Fault) : Prop :=
  RaisedBy M e ∨ e = .invalidOpcode ∨ e = .divideByZero

section Faults

theorem throwsOnly_of_request {x : CpuM M α} (hx : Request x) : ThrowsOnly (StepFault M) x := by
  intro s e t h
  cases hx with
  | member hcall =>
    cases hcall with
    | getReg hr size =>
      rw [getReg, Registers.get, if_pos hr] at h
      cases h
    | setReg hr size data =>
      rw [setReg, Registers.set, if_pos hr] at h
      cases h
    | getFlag | setFlag => cases h
    | memGet addr size =>
      unfold memGet at h
      split at h
      · cases h
      · rename_i hget
        cases h
        exact .inl (.get hget)
    | memSet addr size data =>
      unfold memSet at h
      split at h
      · cases h
      · rename_i hset
        cases h
        exact .inl (.set hset)
  | invalidOpcode =>
    cases h
    exact .inr (.inl rfl)
  | divideByZero =>
    cases h
    exact .inr (.inr rfl)

theorem throwsOnly_step : ThrowsOnly (StepFault M) (step : CpuM M Unit) :=
  requests_step.throwsOnly throwsOnly_of_request

/-- `BaseMemory` throws for an odd address and for an address out of range. -/
theorem BaseMemory.check_of_raisedBy {e : Fault} (h : RaisedBy BaseMemory e) :
    ∃ (mem : BaseMemory) (address : ℕ) (size : DataSize), mem.check address size = .error e := by
  cases h with
  | @get address size mem mem' e h =>
    refine ⟨mem, maskAddr address, size, ?_⟩
    simp only [IMemory.get, BaseMemory.get] at h
    split at h
    · cases h
      assumption
    · cases h
  | @set address size data mem mem' e h =>
    refine ⟨mem, maskAddr address, size, ?_⟩
    simp only [IMemory.set, BaseMemory.set] at h
    split at h
    · cases h
      assumption
    · cases h

end Faults

/-! ### Every step -/

/-- What the steps over a memory pass to `Registers` and to `IMemory` is in range. -/
structure RequestsInRange (M : Type) [IMemory M] : Prop where
  /-- The objects of the decode table have their registers in range and their size set. -/
  fields : ∀ (opcode : BitVec 16) (instruction : Instruction), decode opcode = instruction →
    instruction.derived.Within .inRange
  /-- A step only makes calls with a register index in range and with a size that is set. -/
  calls : Requests (step : CpuM M Unit)
  /-- So what it throws is thrown by the memory, or by an instruction itself. -/
  faults : ThrowsOnly (StepFault M) (step : CpuM M Unit)

/-- Over any memory, the requests of every step are in range, and a request in range is served; over
a `BaseMemory` no step from any state fails an assertion or reads an unset field. -/
theorem requests_in_range :
    (∀ (M : Type) [IMemory M], RequestsInRange M) ∧
      (∀ r < regsCount, ∀ size : DataSize, Served r size) ∧
      ∀ (s t : CPUState BaseMemory) (e : Fault), (step : CpuM BaseMemory Unit) s = .error e t →
        (∀ which, e ≠ .assertion which) ∧ e ≠ .uninitialised := by
  refine ⟨fun M _ => ⟨?_, requests_step, throwsOnly_step⟩, fun r hr size =>
    served_of_lt hr size, ?_⟩
  · rintro opcode _ rfl
    exact inRange_decode opcode
  intro s t e h
  obtain hraised | rfl | rfl := throwsOnly_step s e t h
  · obtain ⟨mem, address, size, hcheck⟩ := BaseMemory.check_of_raisedBy hraised
    rw [BaseMemory.check] at hcheck
    split_ifs at hcheck <;> cases hcheck <;> simp
  · simp
  · simp

end M68kEmu
