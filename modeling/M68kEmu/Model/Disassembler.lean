import M68kEmu.Model.CpuState

/-!
# The disassembler's printers (`disassembler.cpp`)

`DISASSEMBLER::effectiveAddress` prints an operand and advances the program counter over its
extension words.  A value streamed through `std::hex` is printed as the unsigned number of its C++
type: `hex16` for an `int16_t`, `hex32` for an `int` or a `uint32_t`.
-/

namespace M68kEmu

/-- `std::hex` of an unsigned number. -/
def hexText (n : ℕ) : String := String.ofList (Nat.toDigits 16 n)

/-- `std::hex << v` for an `int16_t`. -/
def hex16 (v : BitVec 32) : String := hexText (v.setWidth 16).toNat

/-- `std::hex << v` for an `int` or a `uint32_t`. -/
def hex32 (v : BitVec 32) : String := hexText v.toNat

namespace Disassembler

/-- `DISASSEMBLER::reg`. -/
def reg (r : ℕ) : String :=
  match r with
  | 0 => "d0"
  | 1 => "d1"
  | 2 => "d2"
  | 3 => "d3"
  | 4 => "d4"
  | 5 => "d5"
  | 6 => "d6"
  | 7 => "d7"
  | 8 => "a0"
  | 9 => "a1"
  | 10 => "a2"
  | 11 => "a3"
  | 12 => "a4"
  | 13 => "a5"
  | 14 => "a6"
  | 15 => "a7"
  | 17 => "pc"
  | 18 => "sr"
  | _ => "unknown reg"

/-- `DISASSEMBLER::sizeSuffix`. -/
def sizeSuffix : DataSize → String
  | .byte => ".b"
  | .word => ".w"
  | .long => ".l"

/-- `DISASSEMBLER::conditionSuffix`. -/
def conditionSuffix : Condition → String
  | .true => "t"
  | .false => "f"
  | .higher => "hi"
  | .lowerSame => "ls"
  | .carryClear => "cc"
  | .carrySet => "cs"
  | .notEqual => "ne"
  | .equal => "eq"
  | .overflowClear => "vc"
  | .overflowSet => "vs"
  | .plus => "pl"
  | .minus => "mi"
  | .greaterEqual => "ge"
  | .lessThan => "lt"
  | .greaterThan => "gt"
  | .lessEqual => "le"

variable {M : Type} [IMemory M]

/-- `DISASSEMBLER::effectiveAddress`. -/
def effectiveAddress (mode : AddressingMode) (r : ℕ) (size : DataSize) : CpuM M String :=
  match mode with
  | .directAddr | .directData => return reg r
  | .indirect => return "(" ++ reg r ++ ")"
  | .indirectPostincrement => return "(" ++ reg r ++ ")+"
  | .indirectPredecrement => return "-(" ++ reg r ++ ")"
  | .indirectDisplacement => do
    let pc ← getReg regPC .long
    let offset ← memGet pc .word
    setReg regPC .long (pc + 2)
    return "($" ++ hex16 offset ++ "," ++ reg r ++ ")"
  | .indirectIndex => do
    let pc ← getReg regPC .long
    let extWord ← memGet pc .word
    setReg regPC .long (pc + 2)
    return "($" ++ hex16 (castInt8 extWord) ++ "," ++ reg r ++ "," ++ reg (extReg extWord) ++ ")"
  | .pcDisplacement => do
    let pc ← getReg regPC .long
    let offset ← memGet pc .word
    setReg regPC .long (pc + 2)
    return "($" ++ hex32 (castInt16 offset + 2) ++ "," ++ reg regPC ++ ")"
  | .pcIndex => do
    let pc ← getReg regPC .long
    let extWord ← memGet pc .word
    setReg regPC .long (pc + 2)
    return "($" ++ hex32 (castInt8 extWord + 2) ++ "," ++ reg regPC ++ "," ++
      reg (extReg extWord) ++ ")"
  | .absWord => do
    let pc ← getReg regPC .long
    let addr ← memGet pc .word
    setReg regPC .long (pc + 2)
    return "($" ++ hex32 addr ++ ").w"
  | .absLong => do
    let pc ← getReg regPC .long
    let addr ← memGet pc .long
    setReg regPC .long (pc + 4)
    return "($" ++ hex32 addr ++ ").l"
  | .immediate => do
    let memorySize : DataSize := if size = .long then .long else .word
    let pc ← getReg regPC .long
    let value ← memGet pc memorySize
    let data := if size = .byte then mask8 value else value
    setReg regPC .long (pc + memorySize.toWord)
    return "#$" ++ hex32 data
  | .unknown => return "addreass mode unknown"

end Disassembler

end M68kEmu
