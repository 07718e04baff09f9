import M68kEmu.Model.Registers
import M68kEmu.Model.Memory
import M68kEmu.Model.Encoding

/-!
# `CPUState` (`cpu_state.cpp`)

A method of `CPUState` is a computation `CpuM M α` over the registers and the memory; a C++
exception is an error result that keeps the state reached when it was thrown.  `M` is any
implementation of `IMemory`.

The four accessors are written out separately, as in the source: each of them has its own copy of
the address computation of every addressing mode, and the copies are not the same.  Signed sums are
taken in two's complement.

`Accessors` collects the four, so that `execute` can be run on the accessors of the source
(`Accessors.cpuState`) and on the same accessors with an assertion in front that the mode is known
(`Accessors.checked`).
-/

namespace M68kEmu

/-- `CPUState`. -/
structure CPUState (M : Type) where
  memory : M
  registers : Registers

/-- A state over a `SimpleMemory` that starts with the given bytes and is zero from there on. -/
def CPUState.simple (bytes : List (BitVec 8)) (regBuffer : ℕ → BitVec 32) : CPUState BaseMemory :=
  ⟨simpleMemory fun i => bytes.getD i 0, ⟨regBuffer⟩⟩

/-- A computation on the CPU state that may throw. -/
abbrev CpuM (M : Type) := EStateM Fault (CPUState M)

variable {M : Type} [IMemory M]

/-! ### The calls on the members `registers` and `memory` -/

/-- `this->registers.get(reg, size)`. -/
def getReg (reg : ℕ) (size : DataSize) : CpuM M (BitVec 32) := fun s =>
  match s.registers.get reg size with
  | .ok v => .ok v s
  | .error e => .error e s

/-- `this->registers.set(reg, size, data)`. -/
def setReg (reg : ℕ) (size : DataSize) (data : BitVec 32) : CpuM M Unit := fun s =>
  match s.registers.set reg size data with
  | .ok regs => .ok () { s with registers := regs }
  | .error e => .error e s

/-- `this->registers.get(flag)`. -/
def getFlag (flag : StatusRegisterFlag) : CpuM M Bool := fun s => .ok (s.registers.getFlag flag) s

/-- `this->registers.set(flag, value)`. -/
def setFlag (flag : StatusRegisterFlag) (value : Bool) : CpuM M Unit := fun s =>
  .ok () { s with registers := s.registers.setFlag flag value }

/-- `this->memory.get(addr, size)`. -/
def memGet (addr : BitVec 32) (size : DataSize) : CpuM M (BitVec 32) := fun s =>
  match IMemory.get addr.toNat size s.memory with
  | .ok v mem => .ok v { s with memory := mem }
  | .error e mem => .error e { s with memory := mem }

/-- `this->memory.set(addr, size, data)`. -/
def memSet (addr : BitVec 32) (size : DataSize) (data : BitVec 32) : CpuM M Unit := fun s =>
  match IMemory.set addr.toNat size data s.memory with
  | .ok _ mem => .ok () { s with memory := mem }
  | .error e mem => .error e { s with memory := mem }

/-! ### Fragments that the accessors share -/

/-- `addr += size; if (reg == REG_A7 && (size & 1) != 0) ++addr;` -/
def incremented (reg : ℕ) (size : DataSize) (addr : BitVec 32) : BitVec 32 :=
  if reg = regA7 ∧ size.bytes &&& 1 ≠ 0 then addr + size.toWord + 1 else addr + size.toWord

/-- `addr -= size; if (reg == REG_A7 && (size & 1) != 0) --addr;` -/
def decremented (reg : ℕ) (size : DataSize) (addr : BitVec 32) : BitVec 32 :=
  if reg = regA7 ∧ size.bytes &&& 1 ≠ 0 then addr - size.toWord - 1 else addr - size.toWord

/-- The index register that an extension word names. -/
def extReg (extWord : BitVec 32) : ℕ :=
  let word := extWord.setWidth 16
  getRegisterType (word &&& 0x8000) ((word >>> 12) &&& 0x7)

/-- The size at which the index register is read. -/
def extRegSize (extWord : BitVec 32) : DataSize :=
  if (extWord.setWidth 16 >>> 11) &&& 0x1 ≠ 0 then .long else .word

/-- The lines that read the index register into `int32_t ext_reg_offset`. -/
def getExtRegOffset (extWord : BitVec 32) : CpuM M (BitVec 32) := do
  let extRegOffset ← getReg (extReg extWord) (extRegSize extWord)
  return if extRegSize extWord = .word then castInt16 extRegOffset else extRegOffset

namespace CPUState

/-- `CPUState::stackPop`. -/
def stackPop (size : DataSize) : CpuM M (BitVec 32) := do
  let stackPtr ← getReg regUSP .long
  let data ← memGet stackPtr size
  setReg regUSP .long (stackPtr + size.toWord)
  return data

/-- `CPUState::stackPush`. -/
def stackPush (size : DataSize) (data : BitVec 32) : CpuM M Unit := do
  let stackPtr ← getReg regUSP .long
  setReg regUSP .long (stackPtr - size.toWord)
  memSet (stackPtr - size.toWord) size data

/-- `CPUState::getControlAddress`. -/
def getControlAddress (mode : AddressingMode) (reg : ℕ) (_size : DataSize) : CpuM M (BitVec 32) :=
  match mode with
  | .indirect => getReg reg .long
  | .indirectDisplacement => do
    let addr ← getReg reg .long
    let pc ← getReg regPC .long
    let offset ← memGet pc .word
    setReg regPC .long (pc + 2)
    return addr + castInt16 offset
  | .indirectIndex => do
    let addr ← getReg reg .long
    let pc ← getReg regPC .long
    let extWord ← memGet pc .word
    let extRegOffset ← getExtRegOffset extWord
    setReg regPC .long (pc + 2)
    -- `addr += ext_reg_offset + ext_offset`: the inner sum is an `int`
    return addr + (extRegOffset + castInt8 extWord)
  | .pcDisplacement => do
    let pc ← getReg regPC .long
    let offset ← memGet pc .word
    setReg regPC .long (pc + 2)
    return pc + castInt16 offset
  | .pcIndex => do
    let pc ← getReg regPC .long
    let extWord ← memGet pc .word
    let extRegOffset ← getExtRegOffset extWord
    setReg regPC .long (pc + 2)
    return pc + extRegOffset + castInt8 extWord
  | .absWord => do
    let pc ← getReg regPC .long
    setReg regPC .long (pc + 2)
    memGet pc .word
  | .absLong => do
    let pc ← getReg regPC .long
    setReg regPC .long (pc + 4)
    memGet pc .long
  | .immediate | .indirectPostincrement | .indirectPredecrement | .directAddr
  | .directData | .unknown =>
    return 0

/-- `CPUState::getData`. -/
def getData (mode : AddressingMode) (reg : ℕ) (size : DataSize) : CpuM M (BitVec 32) :=
  match mode with
  | .directAddr | .directData => getReg reg size
  | .indirect => do
    let addr ← getReg reg .long
    memGet addr size
  | .indirectPostincrement => do
    let addr ← getReg reg .long
    let data ← memGet addr size
    setReg reg .long (incremented reg size addr)
    return data
  | .indirectPredecrement => do
    let addr ← getReg reg .long
    let data ← memGet (decremented reg size addr) size
    setReg reg .long (decremented reg size addr)
    return data
  | .indirectDisplacement => do
    let addr ← getReg reg .long
    let pc ← getReg regPC .long
    let offset ← memGet pc .word
    setReg regPC .long (pc + 2)
    memGet (addr + castInt16 offset) size
  | .indirectIndex => do
    let addr ← getReg reg .long
    let pc ← getReg regPC .long
    let extWord ← memGet pc .word
    let extRegOffset ← getExtRegOffset extWord
    setReg regPC .long (pc + 2)
    memGet (addr + extRegOffset + castInt8 extWord) size
  | .pcDisplacement => do
    let pc ← getReg regPC .long
    let offset ← memGet pc .word
    setReg regPC .long (pc + 2)
    memGet (pc + castInt16 offset) size
  | .pcIndex => do
    let pc ← getReg regPC .long
    let extWord ← memGet pc .word
    let extRegOffset ← getExtRegOffset extWord
    setReg regPC .long (pc + 2)
    memGet (pc + extRegOffset + castInt8 extWord) size
  | .absWord => do
    let pc ← getReg regPC .long
    let addr ← memGet pc .word
    setReg regPC .long (pc + 2)
    memGet addr size
  | .absLong => do
    let pc ← getReg regPC .long
    let addr ← memGet pc .long
    setReg regPC .long (pc + 4)
    memGet addr size
  | .immediate => do
    let memorySize : DataSize := if size = .long then .long else .word
    let pc ← getReg regPC .long
    let value ← memGet pc memorySize
    setReg regPC .long (pc + memorySize.toWord)
    return if size = .byte then mask8 value else value
  | .unknown => return 0

/-- `CPUState::getDataSilent`. -/
def getDataSilent (mode : AddressingMode) (reg : ℕ) (size : DataSize) : CpuM M (BitVec 32) :=
  match mode with
  | .directAddr | .directData => getReg reg size
  | .indirect => do
    let addr ← getReg reg .long
    memGet addr size
  | .indirectPostincrement => do
    let addr ← getReg reg .long
    memGet addr size
  | .indirectPredecrement => do
    let addr ← getReg reg .long
    memGet (decremented reg size addr) size
  | .indirectDisplacement => do
    let addr ← getReg reg .long
    let pc ← getReg regPC .long
    let offset ← memGet pc .word
    memGet (addr + castInt16 offset) size
  | .indirectIndex => do
    let addr ← getReg reg .long
    let pc ← getReg regPC .long
    let extWord ← memGet pc .word
    let extRegOffset ← getExtRegOffset extWord
    memGet (addr + extRegOffset + castInt8 extWord) size
  | .pcDisplacement => do
    let pc ← getReg regPC .long
    let offset ← memGet pc .word
    memGet (pc + castInt16 offset) size
  | .pcIndex => do
    let pc ← getReg regPC .long
    let extWord ← memGet pc .word
    let extRegOffset ← getExtRegOffset extWord
    memGet (pc + extRegOffset + castInt8 extWord) size
  | .absWord => do
    let pc ← getReg regPC .long
    let signedWord ← memGet pc .word
    memGet (castInt16 signedWord) size
  | .absLong => do
    let pc ← getReg regPC .long
    let addr ← memGet pc .long
    memGet addr size
  | .immediate => do
    let memorySize : DataSize := if size = .long then .long else .word
    let pc ← getReg regPC .long
    let value ← memGet pc memorySize
    return if size = .byte then mask8 value else value
  | .unknown => return 0

/-- `CPUState::setData`. -/
def setData (mode : AddressingMode) (reg : ℕ) (size : DataSize) (data : BitVec 32) : CpuM M Unit :=
  match mode with
  | .directAddr | .directData => setReg reg size data
  | .indirect => do
    let addr ← getReg reg .long
    memSet addr size data
  | .indirectPostincrement => do
    let addr ← getReg reg .long
    memSet addr size data
    setReg reg .long (incremented reg size addr)
  | .indirectPredecrement => do
    let addr ← getReg reg .long
    memSet (decremented reg size addr) size data
    setReg reg .long (decremented reg size addr)
  | .indirectDisplacement => do
    let addr ← getReg reg .long
    let pc ← getReg regPC .long
    let offset ← memGet pc .word
    setReg regPC .long (pc + 2)
    memSet (addr + castInt16 offset) size data
  | .indirectIndex => do
    let addr ← getReg reg .long
    let pc ← getReg regPC .long
    let extWord ← memGet pc .word
    let extRegOffset ← getExtRegOffset extWord
    setReg regPC .long (pc + 2)
    memSet (addr + extRegOffset + castInt8 extWord) size data
  | .absWord => do
    let pc ← getReg regPC .long
    let signedWord ← memGet pc .word
    memSet (castInt16 signedWord) size data
    setReg regPC .long (pc + 2)
  | .absLong => do
    let pc ← getReg regPC .long
    let addr ← memGet pc .long
    setReg regPC .long (pc + 4)
    memSet addr size data
  | .pcDisplacement | .pcIndex | .immediate | .unknown => return ()

/-- `CPUState::checkCondition`. -/
def checkCondition (cond : Condition) : CpuM M Bool := do
  let negative ← getFlag .negative
  let zero ← getFlag .zero
  let overflow ← getFlag .overflow
  let carry ← getFlag .carry
  return match cond with
  | .true => true
  | .false => false
  | .higher => !carry && !zero
  | .lowerSame => carry || zero
  | .carryClear => !carry
  | .carrySet => carry
  | .notEqual => !zero
  | .equal => zero
  | .overflowClear => !overflow
  | .overflowSet => overflow
  | .plus => !negative
  | .minus => negative
  | .greaterEqual => (negative && overflow) || (!negative && !overflow)
  | .lessThan => (negative && !overflow) || (!negative && overflow)
  | .greaterThan => (negative && overflow && !zero) || (!negative && !overflow && !zero)
  | .lessEqual => (negative && !overflow) || ((!negative && overflow) || zero)

end CPUState

/-! ### The accessors as a record -/

/-- The four accessors that `execute` calls with an addressing mode. -/
structure Accessors (M : Type) where
  getControlAddress : AddressingMode → ℕ → DataSize → CpuM M (BitVec 32)
  getData : AddressingMode → ℕ → DataSize → CpuM M (BitVec 32)
  getDataSilent : AddressingMode → ℕ → DataSize → CpuM M (BitVec 32)
  setData : AddressingMode → ℕ → DataSize → BitVec 32 → CpuM M Unit

/-- The accessors of `CPUState`. -/
def Accessors.cpuState : Accessors M where
  getControlAddress := CPUState.getControlAddress
  getData := CPUState.getData
  getDataSilent := CPUState.getDataSilent
  setData := CPUState.setData

/-- `assert(mode != ADDR_MODE_UNKNOWN)`. -/
def assertKnown (mode : AddressingMode) : CpuM M Unit :=
  if mode = .unknown then throw (.assertion .knownMode) else pure ()

/-- The accessors of `CPUState` behind the assertion that the mode is known. -/
def Accessors.checked : Accessors M where
  getControlAddress mode reg size := do assertKnown mode; CPUState.getControlAddress mode reg size
  getData mode reg size := do assertKnown mode; CPUState.getData mode reg size
  getDataSilent mode reg size := do assertKnown mode; CPUState.getDataSilent mode reg size
  setData mode reg size data := do assertKnown mode; CPUState.setData mode reg size data

end M68kEmu
