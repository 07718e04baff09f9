import M68kEmu.Model.Helpers

/-!
# The register file (`registers.cpp`)

`reg_buffer` is the union of the named registers and an array of 19 words; the bit-field
`sr.supervisor` is bit 13 of its last word.  Index 15 is `REG_A7` and `REG_USP` at once, and both
`get` and `set` redirect it to `REG_SSP` in supervisor mode.
-/

namespace M68kEmu

/-- `Registers`; the entries from `regsCount` on are never read or written. -/
structure Registers where
  regBuffer : ℕ → BitVec 32

namespace Registers

/-- The bit-field `sr.supervisor`. -/
def supervisor (regs : Registers) : Bool := (regs.regBuffer regSR).getLsbD 13

/-- `if (reg_ind == REG_A7 && sr.supervisor) reg_ind = REG_SSP;` -/
def bank (regs : Registers) (regInd : ℕ) : ℕ :=
  if regInd = regA7 ∧ regs.supervisor then regSSP else regInd

/-- The assignment `reg_buffer[reg_ind] = value`. -/
def put (regs : Registers) (regInd : ℕ) (value : BitVec 32) : Registers :=
  ⟨fun i => if i = regInd then value else regs.regBuffer i⟩

/-- The value of the register at a size. -/
def sized (value : BitVec 32) : DataSize → BitVec 32
  | .byte => mask8 value
  | .word => mask16 value
  | .long => value

/-- The new value of a register of which a part is overwritten. -/
def merge (value data : BitVec 32) : DataSize → BitVec 32
  | .byte => maskAbove8 value ||| mask8 data
  | .word => maskAbove16 value ||| mask16 data
  | .long => maskAbove32 value ||| mask32 data

/-- `Registers::get(RegisterType, DataSize)`. -/
def get (regs : Registers) (regInd : ℕ) (size : DataSize) : Except Fault (BitVec 32) :=
  if regInd < regsCount then .ok (sized (regs.regBuffer (regs.bank regInd)) size)
  else .error (.assertion .registerIndex)

/-- `Registers::set(RegisterType, DataSize, uint32_t)`. -/
def set (regs : Registers) (regInd : ℕ) (size : DataSize) (data : BitVec 32) :
    Except Fault Registers :=
  if regInd < regsCount then
    let ind := regs.bank regInd
    let value := merge (regs.regBuffer ind) data size
    .ok (regs.put ind (if ind = regSR then mask16 value else value))
  else .error (.assertion .registerIndex)

/-- `Registers::get(StatusRegisterFlag)`. -/
def getFlag (regs : Registers) (flag : StatusRegisterFlag) : Bool :=
  regs.regBuffer regSR &&& flag.mask != 0

/-- `Registers::set(StatusRegisterFlag, bool)`. -/
def setFlag (regs : Registers) (flag : StatusRegisterFlag) (value : Bool) : Registers :=
  let cleared := regs.regBuffer regSR &&& ~~~flag.mask
  regs.put regSR (if value then cleared ||| flag.mask else cleared)

end Registers

end M68kEmu
