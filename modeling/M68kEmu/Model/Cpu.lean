import M68kEmu.Model.Decoder

/-!
# `CPU` (`cpu.cpp`)

One step fetches the word at the program counter, decodes it and runs the instruction object.
-/

namespace M68kEmu

variable {M : Type} [IMemory M]

/-- `this->instruction_decoder.Decode(opcode)`. -/
def decode (opcode : BitVec 16) : Instruction := InstructionDecoder.new.decode opcode

theorem decode_eq_opcodeEntry (opcode : BitVec 16) :
    decode opcode = opcodeEntry (opcode.setWidth 32) :=
  InstructionDecoder.decode_new opcode

-- no proof should evaluate the whole table
attribute [irreducible] decode

/-- The fetch at the head of `CPU::step`. -/
def fetchOpcode : CpuM M (BitVec 16) := do
  let pc ← getReg regPC .long
  let opcode ← memGet pc .word
  return opcode.setWidth 16

/-- `CPU::step`, on a choice of accessors. -/
def stepWith (A : Accessors M) : CpuM M Unit := do
  let opcode ← fetchOpcode
  (decode opcode).derived.execute A

/-- `CPU::step`. -/
def step : CpuM M Unit := stepWith Accessors.cpuState

end M68kEmu
