import M68kEmu.Lib.Watch
import M68kEmu.Frame.Classes
import M68kEmu.Decode.MemoryShift
import M68kEmu.Decode.Regular

/-!
# The counts of the 64-bit shifts

`BitShift::execute` once more, with the count of every `<<` and `>>` that it evaluates on a
`uint64_t`, in the order of the source: those of the operation, those inside `ROL_n` and `ROR_n`,
and those in the arguments of the flags.

A count of 64 or more is undefined in C++.  The counts `shift - 1`, `n - shift`, `8 - shift` and
`9 - shift` wrap around below zero, so each operation has its own range of counts in which all its
shifts are defined.
-/

namespace M68kEmu

open Outcome Watched

/-- A computation that records the counts of its shifts. -/
abbrev CountM (M : Type) := Watched (BitVec 64) Fault (CPUState M)

variable {M : Type}

namespace CountM

/-! ### The helpers -/

/-- `LSL(a, b)` and `a << b`. -/
def lsl (a b : BitVec 64) : CountM M (BitVec 64) := do
  record [b]
  return M68kEmu.lsl a b

/-- `LSR(a, b)` and `a >> b`. -/
def lsr (a b : BitVec 64) : CountM M (BitVec 64) := do
  record [b]
  return M68kEmu.lsr a b

/-- `ROL_n(a, b)`, with the mask of the helper. -/
def rolWith (mask : BitVec 64 → BitVec 64) (n a b : BitVec 64) : CountM M (BitVec 64) := do
  let high ← lsl a b
  let low ← lsr a (n - b)
  return mask (high ||| low)

/-- `ROR_n(a, b)`, with the mask of the helper. -/
def rorWith (mask : BitVec 64 → BitVec 64) (n a b : BitVec 64) : CountM M (BitVec 64) := do
  let low ← lsr a b
  let high ← lsl a (n - b)
  return mask (low ||| high)

def rol (a b : BitVec 64) : DataSize → CountM M Bool
  | .byte => do return (← rolWith mask8 8 a b) != 0
  | .word => do return (← rolWith mask16 16 a b) != 0
  | .long => do return (← rolWith mask32 32 a b) != 0

def ror (a b : BitVec 64) : DataSize → CountM M Bool
  | .byte => do return (← rorWith mask8 8 a b) != 0
  | .word => do return (← rorWith mask16 16 a b) != 0
  | .long => do return (← rorWith mask32 32 a b) != 0

/-- The flags `C` and `X`, each set from its own evaluation of the value. -/
def setCarryExtend (value : CountM M (BitVec 64)) : CountM M Unit := do
  let carry ← value
  lift (setFlag .carry (carry != 0))
  let extend ← value
  lift (setFlag .extend (extend != 0))

/-! ### The operations -/

def rotateExtended (f : BitShiftOperand) (addrData shift : BitVec 64) : CountM M (BitVec 64) := do
  let flag ← lift (getFlag .carry)
  let carry : BitVec 64 := if flag then 1 else 0
  if f.directionLeft then
    match f.dataSize with
    | .byte => do
      let result ← rolWith mask9 9 (addrData ||| (← lsl carry 8)) shift
      setCarryExtend (return result)
      return result
    | .word => do
      let result ← rolWith mask17 17 (addrData ||| (← lsl carry 16)) shift
      setCarryExtend (lsr result 8)
      return result
    | .long => do
      let result ← rolWith mask33 33 (addrData ||| (← lsl carry 32)) shift
      setCarryExtend (lsr result 24)
      return result
  else
    match f.dataSize with
    | .byte => do
      let result ← rorWith mask9 9 (0 ||| (← lsl carry 8)) shift
      setCarryExtend (return result)
      return result
    | .word => do
      let result ← rorWith mask17 17 (0 ||| (← lsl carry 16)) shift
      setCarryExtend (lsr result 8)
      return result
    | .long => do
      let result ← rorWith mask33 33 (0 ||| (← lsl carry 32)) shift
      setCarryExtend (lsr result 24)
      return result

def shifted (f : BitShiftOperand) (addrData shift : BitVec 64) : CountM M (BitVec 64) :=
  match f.instructionType with
  | .as =>
    if f.directionLeft then do
      let result ← lsl addrData shift
      setCarryExtend (do return (← lsl addrData shift) &&& 1)
      return result
    else do
      let result ← if isNegative addrData f.dataSize then do
          pure ((← lsr addrData shift) ||| ~~~(← lsr (~~~0) shift))
        else lsr addrData shift
      setCarryExtend (do return (← lsr addrData (shift - 1)) &&& 1)
      return result
  | .ls =>
    if f.directionLeft then do
      let result ← lsl addrData shift
      setCarryExtend (do return (← lsl addrData shift) &&& 1)
      return result
    else do
      let result ← lsr addrData shift
      setCarryExtend (do return (← lsr addrData (shift - 1)) &&& 1)
      return result
  | .rox => rotateExtended f addrData shift
  | .ro =>
    if f.directionLeft then do
      let result ← rol addrData shift f.dataSize
      let carry ← lsr addrData (8 - shift)
      lift (setFlag .carry (carry != 0))
      return if result then 1 else 0
    else do
      let result ← ror addrData shift f.dataSize
      let carry ← lsl addrData (9 - shift)
      lift (setFlag .carry (carry != 0))
      return if result then 1 else 0

/-- `BitShift::execute`. -/
def execute [IMemory M] (A : Accessors M) (f : BitShiftOperand) : CountM M Unit := do
  lift skipOpcode
  let addrData ← lift (A.getDataSilent f.addrMode f.addrReg f.dataSize)
  let shift ← lift <| if !f.isMemory && !f.isImm then do
      let shiftData ← A.getData .directData f.shiftReg f.dataSize
      pure ((shiftData % 64).setWidth 64)
    else pure (f.immShift.setWidth 64)
  let result ← shifted f (addrData.setWidth 64) shift
  lift (setFlag .negative (isNegative result f.dataSize))
  lift (setFlag .zero (isZero result f.dataSize))
  lift (setFlag .overflow false)

end CountM

/-! ### Without the records it is `execute` -/

section Erase

variable (a b : BitVec 64) {f : BitShiftOperand}

@[simp] theorem erase_lsl : erase (CountM.lsl a b : CountM M (BitVec 64)) = pure (lsl a b) := rfl

@[simp] theorem erase_lsr : erase (CountM.lsr a b : CountM M (BitVec 64)) = pure (lsr a b) := rfl

@[simp] theorem erase_rolWith (mask : BitVec 64 → BitVec 64) (n : BitVec 64) :
    erase (CountM.rolWith mask n a b : CountM M (BitVec 64)) =
    pure (mask (lsl a b ||| lsr a (n - b))) := rfl

@[simp] theorem erase_rorWith (mask : BitVec 64 → BitVec 64) (n : BitVec 64) :
    erase (CountM.rorWith mask n a b : CountM M (BitVec 64)) =
    pure (mask (lsr a b ||| lsl a (n - b))) := rfl

@[simp] theorem erase_rol (size : DataSize) :
    erase (CountM.rol a b size : CountM M Bool) = pure (rol a b size) := by
  cases size <;> rfl

@[simp] theorem erase_ror (size : DataSize) :
    erase (CountM.ror a b size : CountM M Bool) = pure (ror a b size) := by
  cases size <;> rfl

@[simp] theorem erase_setCarryExtend (value : CountM M (BitVec 64)) :
    erase (CountM.setCarryExtend value) = (do
      let carry ← erase value
      setFlag .carry (carry != 0)
      let extend ← erase value
      setFlag .extend (extend != 0)) := by
  simp [CountM.setCarryExtend]

theorem erase_rotateExtended :
    erase (CountM.rotateExtended f a b : CountM M (BitVec 64)) = BitShift.rotateExtended f a b := by
  unfold CountM.rotateExtended BitShift.rotateExtended
  rw [erase_bind]
  refine congrArg _ (funext fun flag => ?_)
  split_ifs <;> rcases f.dataSize with _ | _ | _ <;>
    simp [BitShift.setCarryExtend, rol9, rol17, rol33, ror9, ror17, ror33]

theorem erase_shifted :
    erase (CountM.shifted f a b : CountM M (BitVec 64)) = BitShift.shifted f a b := by
  unfold CountM.shifted BitShift.shifted
  rcases f.instructionType with _ | _ | _ | _
  case rox => exact erase_rotateExtended a b
  all_goals
    rcases f.directionLeft with _ | _ <;> simp [BitShift.setCarryExtend]
  case as.false =>
    split_ifs <;> rfl

theorem erase_execute [IMemory M] (A : Accessors M) (f : BitShiftOperand) :
    erase (CountM.execute A f) = BitShift.execute A f := by
  by_cases hcount : f.isMemory = false ∧ f.isImm = false <;>
    simp [CountM.execute, BitShift.execute, erase_shifted, hcount]

end Erase

/-! ### The counts of an operation -/

/-- The counts at which `<<` and `>>` are defined. -/
def InWidth (b : BitVec 64) : Prop := b.toNat < 64

instance : DecidablePred InWidth := fun b => inferInstanceAs (Decidable (b.toNat < 64))

/-- The counts that an operation shifts by with all its shifts defined. -/
def BitShiftOperand.Fits (f : BitShiftOperand) (n : ℕ) : Prop :=
  match f.instructionType, f.directionLeft with
  | .as, true | .ls, true => True
  | .as, false | .ls, false => n ≠ 0
  | .rox, _ => n ≤ f.dataSize.bits + 1
  | .ro, true => n ≤ 8
  | .ro, false => n ≤ if f.dataSize = .byte then 8 else 9

section Counts

variable {a b n : BitVec 64} {f : BitShiftOperand} {s : CPUState M}

theorem inWidth_sub (hb : InWidth b) (hn : n.toNat < 64) : InWidth (n - b) ↔ b.toNat ≤ n.toNat := by
  simp only [InWidth] at hb ⊢
  bv_omega

theorem inWidth_pred (hb : InWidth b) : InWidth (b - 1#64) ↔ b.toNat ≠ 0 := by
  simp only [InWidth] at hb ⊢
  bv_omega

@[simp] theorem always_lsl : Always InWidth (CountM.lsl a b) s ↔ InWidth b := by
  simp [CountM.lsl]

@[simp] theorem always_lsr : Always InWidth (CountM.lsr a b) s ↔ InWidth b := by
  simp [CountM.lsr]

@[simp] theorem always_rolWith {mask : BitVec 64 → BitVec 64} :
    Always InWidth (CountM.rolWith mask n a b) s ↔ InWidth b ∧ InWidth (n - b) := by
  simp [CountM.rolWith, always_bind]

@[simp] theorem always_rorWith {mask : BitVec 64 → BitVec 64} :
    Always InWidth (CountM.rorWith mask n a b) s ↔ InWidth b ∧ InWidth (n - b) := by
  simp [CountM.rorWith, always_bind]

theorem always_rotateExtended (hb : InWidth b) :
    Always InWidth (CountM.rotateExtended f a b) s ↔ b.toNat ≤ f.dataSize.bits + 1 := by
  have hconst : InWidth 8#64 ∧ InWidth 16#64 ∧ InWidth 24#64 ∧ InWidth 32#64 := by decide
  have hflag : getFlag .carry s = .ok (s.registers.getFlag .carry) s := rfl
  rw [CountM.rotateExtended, always_lift_bind hflag]
  rcases f.directionLeft with _ | _ <;> rcases f.dataSize with _ | _ | _ <;>
    simp [CountM.setCarryExtend, always_bind, inWidth_sub hb, hb, hconst, DataSize.bits,
      DataSize.bytes]

/-- The shifts of an operation are defined at a count that fits. -/
theorem always_shifted (hb : InWidth b) : Always InWidth (CountM.shifted f a b) s ↔
    f.Fits b.toNat := by
  unfold CountM.shifted BitShiftOperand.Fits
  rcases f.instructionType with _ | _ | _ | _
  case rox => exact always_rotateExtended hb
  case as =>
    rcases f.directionLeft with _ | _
    · simp only [Bool.false_eq_true, if_false]
      split_ifs <;> simp [CountM.setCarryExtend, always_bind, inWidth_pred hb, hb]
    · simp [CountM.setCarryExtend, always_bind, hb]
  case ls =>
    rcases f.directionLeft with _ | _ <;>
      simp [CountM.setCarryExtend, always_bind, inWidth_pred hb, hb]
  case ro =>
    rcases f.directionLeft with _ | _ <;> rcases f.dataSize with _ | _ | _ <;>
      simp [CountM.rol, CountM.ror, always_bind, inWidth_sub hb, hb] <;> omega

/-- The lines from the switch on. -/
theorem always_rest (hb : InWidth b) :
    Always InWidth (do
      let result ← CountM.shifted f a b
      lift (setFlag .negative (isNegative result f.dataSize))
      lift (setFlag .zero (isZero result f.dataSize))
      lift (setFlag .overflow false)) s ↔ f.Fits b.toNat := by
  simp [always_bind, always_shifted hb]

end Counts

/-! ### The count of an instruction -/

/-- The count that `execute` shifts by. -/
def BitShiftOperand.count (f : BitShiftOperand) (s : CPUState M) : ℕ :=
  if f.isMemory = false ∧ f.isImm = false then
    (Registers.sized (s.reg f.shiftReg) f.dataSize).toNat % 64
  else f.immShift.toNat

theorem BitShiftOperand.fits_of_le {f : BitShiftOperand} {n : ℕ} (h : 1 ≤ n) (h' : n ≤ 8) :
    f.Fits n := by
  unfold Fits
  rcases f.instructionType with _ | _ | _ | _ <;> rcases f.directionLeft with _ | _ <;>
    rcases f.dataSize with _ | _ | _ <;> simp [DataSize.bits, DataSize.bytes] <;> omega

section Execute

variable [IMemory M] {f : BitShiftOperand} {s : CPUState M}

/-- With a count from a register. -/
theorem always_execute_register (hcount : f.isMemory = false ∧ f.isImm = false)
    (hmode : f.addrMode = .directData) (haddr : f.addrReg < 16) (hreg : f.shiftReg < 16) :
    Always InWidth (CountM.execute .cpuState f) s ↔ f.Fits (f.count s) := by
  have hread (t : CPUState M) : Accessors.cpuState.getDataSilent f.addrMode f.addrReg f.dataSize t =
      .ok (Registers.sized (t.reg f.addrReg) f.dataSize) t := by
    rw [hmode]
    exact getReg_apply (named_of_lt haddr) _
  have hshift (t : CPUState M) : (do
      let shiftData ← Accessors.cpuState.getData .directData f.shiftReg f.dataSize
      pure ((shiftData % 64).setWidth 64)) t =
        .ok ((Registers.sized (t.reg f.shiftReg) f.dataSize % 64).setWidth 64) t :=
    bind_of_ok (getReg_apply (named_of_lt hreg) _)
  have hbits (v : BitVec 32) : ((v % 64).setWidth 64).toNat = v.toNat % 64 := by
    rw [BitVec.toNat_setWidth, BitVec.toNat_umod]
    have hlt : v.toNat % 64 < 64 := Nat.mod_lt _ (by decide)
    exact Nat.mod_eq_of_lt (hlt.trans (by decide))
  have hwidth (v : BitVec 32) : InWidth ((v % 64).setWidth 64) := by
    rw [InWidth, hbits]
    exact Nat.mod_lt _ (by decide)
  have hdata : (s.withReg regPC (s.reg regPC + 2)).reg f.shiftReg = s.reg f.shiftReg :=
    CPUState.reg_withReg_of_ne named_regPC (named_of_lt hreg) (ne_regPC_of_lt hreg)
  rw [CountM.execute, always_lift_bind (skipOpcode_apply s), always_lift_bind (hread _),
    BitShiftOperand.count, if_pos hcount, if_pos (by simp [hcount]), always_lift_bind (hshift _),
    always_rest (hwidth _), hbits, hdata]

/-- With a count from the opcode, which always fits. -/
theorem always_execute_immediate (hcount : ¬(f.isMemory = false ∧ f.isImm = false))
    (h : 1 ≤ f.immShift.toNat) (h' : f.immShift.toNat ≤ 8) :
    Always InWidth (CountM.execute .cpuState f) s ↔ f.Fits (f.count s) := by
  have hbits : (f.immShift.setWidth 64).toNat = f.immShift.toNat := by
    rw [BitVec.toNat_setWidth]
    exact Nat.mod_eq_of_lt (by omega)
  have hwidth : InWidth (f.immShift.setWidth 64) := by
    rw [InWidth, hbits]
    omega
  have hfits : f.Fits f.immShift.toNat := BitShiftOperand.fits_of_le h h'
  rw [BitShiftOperand.count, if_neg hcount]
  refine iff_of_true ?_ hfits
  rw [CountM.execute, always_lift_bind (skipOpcode_apply s),
    if_neg (by simpa using hcount), always_bind]
  refine ⟨always_lift _, fun addrData t _ => ?_⟩
  rw [always_lift_bind (pure_apply _ t), always_rest hwidth, hbits]
  exact hfits

end Execute

/-- The shifts of an instruction are defined exactly where its count fits the operation. -/
theorem shift_counts_defined_iff {M : Type} [IMemory M] (opcode : BitVec 16) (f : BitShiftOperand)
    (hd : (decode opcode).derived = .bitShift f) (s : CPUState M) :
    Always InWidth (CountM.execute .cpuState f) s ↔ f.Fits (f.count s) := by
  have hvalid := valid_decode opcode
  have hregular := regular_decode opcode
  rw [hd] at hvalid hregular
  obtain ⟨⟨haddr, -⟩, hreg⟩ : ValidOperand f.addrMode f.addrReg ∧ f.shiftReg < 16 := hvalid
  replace hregular : f.Regular := hregular
  by_cases hcount : f.isMemory = false ∧ f.isImm = false
  · exact always_execute_register hcount (directData_of_bitShift hd hcount.1) haddr hreg
  · rcases himm : f.isImm with _ | _
    · have hmemory : f.isMemory = true := by simpa [himm] using hcount
      have hone : f.immShift = 1 := by rw [hregular.noImm himm, if_pos hmemory]
      exact always_execute_immediate hcount (by simp [hone]) (by simp [hone])
    · obtain ⟨-, h, h'⟩ := hregular.imm himm
      exact always_execute_immediate hcount h h'

/-- `lsr.b d1, d2`. -/
def lsrByRegister : BitShiftOperand where
  addrMode := .directData
  addrReg := 2
  shiftReg := 1
  immShift := 0
  directionLeft := false
  isImm := false
  isMemory := false
  instructionType := .ls
  instructionStr := "lsr"
  dataSize := .byte

theorem decode_lsrByRegister : (decode 0xE20A).derived = .bitShift lsrByRegister := by
  rw [decode_eq_opcodeEntry]
  rfl

/-- With 3 in `D1`. -/
theorem lsr_by_three_counts : Always InWidth (CountM.execute .cpuState lsrByRegister)
    (CPUState.simple [0xE2, 0x0A] fun i => if i = 1 then 3 else 0) :=
  (shift_counts_defined_iff 0xE20A lsrByRegister decode_lsrByRegister _).2 (Nat.succ_ne_zero 2)

/-- With 0 in `D1`, the flags are taken from a shift by -1. -/
theorem lsr_by_zero_counts : (decode 0xE20A).derived = .bitShift lsrByRegister ∧
    ¬Always InWidth (CountM.execute .cpuState lsrByRegister)
      (CPUState.simple [0xE2, 0x0A] fun _ => 0) := by
  refine ⟨decode_lsrByRegister, fun h => ?_⟩
  have hcount := h (-1) (by decide)
  exact absurd hcount (by decide)

end M68kEmu
