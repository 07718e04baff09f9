import M68kEmu.Lib.Rotation
import M68kEmu.Decode.MemoryShift
import M68kEmu.Frame.Classes
import M68kEmu.Frame.Invariants
import M68kEmu.Semantics.Operand

/-!
# What the shifts should do, and when nothing is enough

`BitShift::execute` computes a result and drops it: the flags and the program counter change, the
destination does not.  The operation that the 68000 defines is a function of the opcode, the count,
the operand and the flag `X`.  So the destination is right where that operation keeps the operand,
which `BitShiftType.Keeps` says in closed form, and the program counter is right where the operand
has no extension words.
-/

namespace M68kEmu

open Outcome BitVec

/-! ### The operations of the 68000 -/

/-- The value of an operation, for an operand of any width. -/
def BitShiftType.value {w : ℕ} (type : BitShiftType) (left extend : Bool) (n : ℕ) (x : BitVec w) :
    BitVec w :=
  match type, left with
  | .as, true | .ls, true => x <<< n
  | .as, false => x.sshiftRight n
  | .ls, false => x >>> n
  | .rox, true => ((cons extend x).rotateLeft n).setWidth w
  | .rox, false => ((cons extend x).rotateRight n).setWidth w
  | .ro, true => x.rotateLeft n
  | .ro, false => x.rotateRight n

/-- The operands that an operation keeps: by a count of zero all, by another the ones that
consist of what is shifted in; of the rotations those that repeat with the period that the count
has around the operand. -/
def BitShiftType.Keeps {w : ℕ} (type : BitShiftType) (left extend : Bool) (n : ℕ) (x : BitVec w) :
    Prop :=
  match type, left with
  | .as, true | .ls, _ => n = 0 ∨ x = 0#w
  | .as, false => n = 0 ∨ x = 0#w ∨ x = allOnes w
  | .rox, _ => Repeats (cons extend x) (n.gcd (w + 1))
  | .ro, _ => Repeats x (n.gcd w)

theorem BitShiftType.value_eq_self_iff {w : ℕ} (type : BitShiftType) (left extend : Bool) (n : ℕ)
    (x : BitVec w) : type.value left extend n x = x ↔ type.Keeps left extend n x := by
  have hcons : (cons extend x).setWidth w = x := setWidth_cons
  cases type with
  | as =>
    cases left with
    | false => exact sshiftRight_eq_self_iff
    | true => exact shiftLeft_eq_self_iff
  | ls =>
    cases left with
    | false => exact ushiftRight_eq_self_iff
    | true => exact shiftLeft_eq_self_iff
  | rox =>
    cases left with
    | false => exact (Eq.congr_right hcons.symm).trans setWidth_rotateRight_iff
    | true => exact (Eq.congr_right hcons.symm).trans setWidth_rotateLeft_iff
  | ro =>
    cases left with
    | false => exact rotateRight_eq_self_iff
    | true => exact rotateLeft_eq_self_iff

/-! ### The fields of the opcode -/

/-- The type is in bits 3 and 4 for a register, in bits 9 and 10 for a memory operand. -/
def definedType (opcode : BitVec 16) : BitShiftType :=
  .ofPart ((opcode >>> (if (opcode >>> 6) &&& 0x3 = 3 then 9 else 3)) &&& 0x3)

def definedLeft (opcode : BitVec 16) : Bool := opcode.getLsbD 8

/-- A memory operand is shifted by one; a register by 1 to 8 from the opcode, or by a
data register modulo 64. -/
def definedCount (opcode : BitVec 16) (s : CPUState BaseMemory) : ℕ :=
  let part := ((opcode >>> 9) &&& 0x7).toNat
  if (opcode >>> 6) &&& 0x3 = 3 then 1
  else if opcode.getLsbD 5 then (s.reg part).toNat % 64
  else if part = 0 then 8 else part

namespace BitShiftOperand

variable (f : BitShiftOperand) (s t : CPUState BaseMemory)

/-- The destination: a data register, or the memory operand whose extension words
follow the opcode. -/
def destination : Location :=
  (s.withReg regPC (s.reg regPC + 2)).locate f.addrMode f.addrReg f.dataSize

/-- The destination in the state `t` of a shift that starts in the state `s`. -/
def operandIn : BitVec f.dataSize.bits :=
  ((f.destination s).value t f.dataSize).setWidth f.dataSize.bits

/-- From `s` to `t`, the destination is shifted, and the instruction stepped over. -/
structure TakesEffect (opcode : BitVec 16) : Prop where
  value : f.operandIn s t = (definedType opcode).value (definedLeft opcode)
    (s.registers.getFlag .extend) (definedCount opcode s) (f.operandIn s s)
  pc : t.reg regPC = s.reg regPC + delta regPC [.opcode, .operand f.addrMode f.addrReg f.dataSize]

/-- The operand has no extension words, and the operation keeps it. -/
structure NothingToDo (opcode : BitVec 16) : Prop where
  length : extSize f.addrMode f.dataSize = none
  keeps : (definedType opcode).Keeps (definedLeft opcode) (s.registers.getFlag .extend)
    (definedCount opcode s) (f.operandIn s s)

end BitShiftOperand

/-! ### What `execute` leaves -/

section Execute

variable {f : BitShiftOperand} {s t : CPUState BaseMemory} {u : Unit}

/-- A shift changes no byte of the memory. -/
theorem memory_of_bitShift (h : BitShift.execute .cpuState f s = .ok u t) :
    t.memory = s.memory := by
  rw [BitShift.execute, bind_of_ok (skipOpcode_apply s)] at h
  obtain ⟨addrData, s₁, hread, h⟩ := bind_eq_ok.1 h
  have hs₁ : after (Accessors.cpuState.getDataSilent f.addrMode f.addrReg f.dataSize)
      (s.withReg regPC (s.reg regPC + 2)) = s.withReg regPC (s.reg regPC + 2) :=
      after_getDataSilent _ _ _ _
  rw [after_of_ok hread] at hs₁
  have hmem : s₁.memory = s.memory := by rw [hs₁, CPUState.memory_withReg]
  rw [← hmem]
  split_ifs at h
  · obtain ⟨shiftData, s₂, hcount, h⟩ := bind_eq_ok.1 h
    rw [← eq_of_getReg_eq_ok hcount]
    exact memory_of_commits (commitStep_shiftRest (F := fun _ => False) f _ _).phase h
  · exact memory_of_commits (commitStep_shiftRest (F := fun _ => False) f _ _).phase h

/-- A shift changes no register but the program counter, which steps over the opcode. -/
theorem reg_of_bitShift (hf : (Derived.bitShift f).Valid)
    (h : BitShift.execute .cpuState f s = .ok u t) {r : ℕ}
    (hr : Named r) : t.reg r = s.reg r + delta r [.opcode] := by
  have hstep : Step (fun _ => False) [.opcode] (BitShift.execute .cpuState f)
      (BitShift.execute .cpuState f : CpuM BaseMemory Unit) := step_bitShift hf.2
  exact (hstep.consumes s u t h).moved r hr id

theorem operandIn_of_bitShift (hf : (Derived.bitShift f).Valid)
    (h : BitShift.execute .cpuState f s = .ok u t) : f.operandIn s t = f.operandIn s s := by
  rw [BitShiftOperand.operandIn, BitShiftOperand.operandIn]
  rcases hloc : f.destination s with r | addr
  · have hlt : f.addrReg < 16 := hf.1.lt
    have hr : r = f.addrReg := eq_of_locate hloc
    rw [Location.value, Location.value, hr, reg_of_bitShift hf h (named_of_lt hlt)]
    simp [delta, Part.delta, ne_regPC_of_lt hlt]
  · rw [Location.value, Location.value, memory_of_bitShift h]

end Execute

/-- A shift takes effect exactly where there was nothing to do. -/
theorem shift_takes_effect_iff (opcode : BitVec 16) (f : BitShiftOperand)
    (hd : (decode opcode).derived = .bitShift f)
    (s t : CPUState BaseMemory) (h : (decode opcode).derived.execute .cpuState s = .ok () t) :
    f.TakesEffect s t opcode ↔ f.NothingToDo s opcode := by
  have hvalid := valid_decode opcode
  rw [hd] at h hvalid
  replace h : BitShift.execute .cpuState f s = .ok () t := h
  have hpc : t.reg regPC = s.reg regPC + delta regPC [.opcode] :=
    reg_of_bitShift hvalid h named_regPC
  have hlength :
      t.reg regPC = s.reg regPC + delta regPC [.opcode, .operand f.addrMode f.addrReg f.dataSize] ↔
      extSize f.addrMode f.dataSize = none := by
    rw [hpc]
    rcases hext : extSize f.addrMode f.dataSize with _ | e
    · simp [delta, Part.delta, Part.length, hext]
    · rcases e with _ | _ | _ <;> simp [delta, Part.delta, Part.length, hext, DataSize.toWord,
        DataSize.bytes]
  have hvalue := BitShiftType.value_eq_self_iff (definedType opcode) (definedLeft opcode)
    (s.registers.getFlag .extend) (definedCount opcode s) (f.operandIn s s)
  constructor
  · rintro ⟨h₁, h₂⟩
    rw [operandIn_of_bitShift hvalid h] at h₁
    exact ⟨hlength.1 h₂, hvalue.1 h₁.symm⟩
  · rintro ⟨h₁, h₂⟩
    refine ⟨?_, hlength.2 h₁⟩
    rw [operandIn_of_bitShift hvalid h]
    exact (hvalue.2 h₂).symm

/-- `lsl.b #1, d0`, which the decoder takes for a shift by `d1`. -/
def lslByOne : BitShiftOperand where
  addrMode := .directData
  addrReg := 0
  shiftReg := 1
  immShift := 0
  directionLeft := true
  isImm := false
  isMemory := false
  instructionType := .ls
  instructionStr := "lsl"
  dataSize := .byte

theorem decode_lslByOne : (decode 0xE308).derived = .bitShift lslByOne := by
  rw [decode_eq_opcodeEntry]
  rfl

/-- With 1 in `D0`, where 2 should be after it. -/
theorem lsl_of_one_keeps_it : (decode 0xE308).derived = .bitShift lslByOne ∧
    ∃ t, (decode 0xE308).derived.execute .cpuState (CPUState.simple [0xE3, 0x08] fun i =>
      if i = 0 then 1 else 0) = .ok () t ∧
      ¬lslByOne.TakesEffect (CPUState.simple [0xE3, 0x08] fun i => if i = 0 then 1 else 0)
        t 0xE308 := by
  refine ⟨decode_lslByOne, ?_⟩
  rw [decode_lslByOne]
  exact ⟨_, rfl, fun h => absurd h.value (by decide)⟩

/-- With 0 in `D0`. -/
theorem lsl_of_zero_takes_effect :
    ∃ t, (decode 0xE308).derived.execute .cpuState (CPUState.simple [0xE3, 0x08] fun _ =>
      0) = .ok () t ∧ lslByOne.TakesEffect (CPUState.simple [0xE3, 0x08] fun _ => 0) t 0xE308 := by
  have hrun :
      ∃ t, (decode 0xE308).derived.execute .cpuState (CPUState.simple [0xE3, 0x08] fun _ => 0) =
      .ok () t := by
    rw [decode_lslByOne]
    exact ⟨_, rfl⟩
  obtain ⟨t, ht⟩ := hrun
  refine ⟨t, ht, (shift_takes_effect_iff 0xE308 lslByOne decode_lslByOne _ t ht).2 ⟨rfl, ?_⟩⟩
  exact .inr rfl

end M68kEmu
