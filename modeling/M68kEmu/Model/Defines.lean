import Mathlib.Tactic.Common
import Mathlib.Tactic.Ring
import Mathlib.Data.Nat.Notation

/-!
# The enumerations of `defines.hpp` and `registers.hpp`, and the ways a computation can stop

* `DataSize`, `AddressingMode`, `Condition`: the enumerations of `defines.hpp`;
* `regD0`, …: the enumerators of `RegisterType` that the source names.  It casts opcode and
  extension-word fields to this enumeration, so here the type is `ℕ`, an index into `reg_buffer`;
  `regsCount` is the length of the buffer;
* `StatusRegisterFlag`: the flag masks of the status register;
* `Fault`: the exceptions the source throws, its one assertion, and the two undefined evaluations
  that have no result at all (an unset field, a zero divisor).
-/

namespace M68kEmu

/-- `DataSize`. -/
inductive DataSize where
  | byte | word | long
  deriving DecidableEq, Repr

/-- The value of the enumerator, which the source also uses as the number of bytes. -/
def DataSize.bytes : DataSize → ℕ
  | .byte => 1
  | .word => 2
  | .long => 4

/-- The width of an operand in bits. -/
def DataSize.bits (size : DataSize) : ℕ := 8 * size.bytes

/-- The value of the enumerator as a `uint32_t`. -/
def DataSize.toWord (size : DataSize) : BitVec 32 := BitVec.ofNat 32 size.bytes

/-- `AddressingMode`. -/
inductive AddressingMode where
  | directData
  | directAddr
  | indirect
  | indirectPostincrement
  | indirectPredecrement
  | indirectDisplacement
  | indirectIndex
  | pcDisplacement
  | pcIndex
  | absWord
  | absLong
  | immediate
  | unknown
  deriving DecidableEq, Repr

/-- `Condition`. -/
inductive Condition where
  | true
  | false
  | higher
  | lowerSame
  | carryClear
  | carrySet
  | notEqual
  | equal
  | overflowClear
  | overflowSet
  | plus
  | minus
  | greaterEqual
  | lessThan
  | greaterThan
  | lessEqual
  deriving DecidableEq, Repr

/-- `MEMORY_SIZE`, 16 MB. -/
def memorySize : BitVec 32 := 0x01000000

/-! ### `RegisterType` -/

def regD0 : ℕ := 0
def regA7 : ℕ := 15
def regUSP : ℕ := 15
def regSSP : ℕ := 16
def regPC : ℕ := 17
def regSR : ℕ := 18
def regsCount : ℕ := 19

/-- `StatusRegisterFlag`: the flags that the source names. -/
inductive StatusRegisterFlag where
  | carry | overflow | zero | negative | extend | supervisor | trace
  deriving DecidableEq, Repr

/-- The position of the flag in the status register; the enumerator is `1 << bit`. -/
def StatusRegisterFlag.bit : StatusRegisterFlag → ℕ
  | .carry => 0
  | .overflow => 1
  | .zero => 2
  | .negative => 3
  | .extend => 4
  | .supervisor => 13
  | .trace => 15

/-- `uint32_t(flag)`. -/
def StatusRegisterFlag.mask (flag : StatusRegisterFlag) : BitVec 32 := 1#32 <<< flag.bit

/-- The assertions a run can meet: the one of `Registers::get/set`, and the check that the accessors
of `Accessors.checked` add. -/
inductive Assertion where
  | registerIndex
  | knownMode
  deriving DecidableEq, Repr

/-- The ways a computation stops without a result. -/
inductive Fault where
  /-- `std::length_error`, thrown for a word or long access at an odd address -/
  | addressOdd
  /-- `std::out_of_range` of `BaseMemory` -/
  | addressOutOfRange (address : ℕ) (memSize : ℕ)
  /-- `std::invalid_argument`, thrown by `Illegal::execute` -/
  | invalidOpcode
  /-- a failed `assert` -/
  | assertion (which : Assertion)
  /-- an unset field is read -/
  | uninitialised
  /-- the right operand of an integer `/` or `%` is zero -/
  | divideByZero
  deriving DecidableEq, Repr

end M68kEmu
