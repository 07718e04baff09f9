import M68kEmu.Lib.Watch
import M68kEmu.Frame.Consumption

/-!
# The `int` arithmetic of the accessors

The accessors once more, with the exact value of every operation that C++ evaluates in `int`: those
on the extension word, which is a `uint16_t` and is promoted, the test `size & 1`, and the one sum
of two offsets in `getControlAddress`.  All other sums have a `uint32_t` operand and wrap.

The values stay in the range of `int`, but for that sum: `getControlAddress` adds the displacement
to the index register before the base register, and its siblings after it.
-/

namespace M68kEmu

open Outcome Watched

/-- The range of `int`. -/
def InInt (z : ℤ) : Prop := -2 ^ 31 ≤ z ∧ z < 2 ^ 31

instance : DecidablePred InInt := fun z => inferInstanceAs (Decidable (-2 ^ 31 ≤ z ∧ z < 2 ^ 31))

/-- A computation that records the values of its `int` operations. -/
abbrev IntM (M : Type) := Watched ℤ Fault (CPUState M)

/-! ### The operations of the shared fragments -/

/-- The operations on `uint16_t ext_word`, among them the sum in `Instruction::getRegisterType`. -/
def extWordInts (extWord : BitVec 32) : List ℤ :=
  let word := (extWord.setWidth 16).toNat
  let partReg := word >>> 12 &&& 0x7
  let sums := if word &&& 0x8000 = 0 then [] else [partReg + 8]
  ([word &&& 0x8000, word >>> 12, partReg] ++ sums ++
    [word >>> 11, word >>> 11 &&& 0x1, word &&& 0xFF]).map (↑)

section Fragments

variable {M : Type} {reg : ℕ} {size : DataSize} {s : CPUState M}

namespace IntM

/-- The lines that read the index register into `int32_t ext_reg_offset`. -/
def getExtRegOffset (extWord : BitVec 32) : IntM M (BitVec 32) := do
  record (extWordInts extWord)
  lift (M68kEmu.getExtRegOffset extWord)

/-- The condition `reg == REG_A7 && (size & 1) != 0`. -/
def testSize (reg : ℕ) (size : DataSize) : IntM M Unit :=
  record (if reg = regA7 then [↑(size.bytes &&& 1)] else [])

end IntM

@[simp] theorem erase_getExtRegOffset (extWord : BitVec 32) :
    erase (IntM.getExtRegOffset extWord : IntM M (BitVec 32)) = getExtRegOffset extWord := by
  simp [IntM.getExtRegOffset]

@[simp] theorem erase_testSize : erase (IntM.testSize reg size : IntM M Unit) = pure () := rfl

theorem inInt_of_lt {n : ℕ} (h : n < 2 ^ 31) : InInt n := by
  constructor <;> omega

/-- Every operation on the extension word is at most the word, but for the sum with 8. -/
theorem le_of_mem_extWordInts {extWord : BitVec 32} {z : ℤ} (h : z ∈ extWordInts extWord) :
    ∃ n : ℕ, z = n ∧ n ≤ (extWord.setWidth 16).toNat + 8 := by
  simp only [extWordInts, List.mem_map] at h
  obtain ⟨n, hn, rfl⟩ := h
  refine ⟨n, rfl, ?_⟩
  generalize (extWord.setWidth 16).toNat = word at hn ⊢
  have hand (a b : ℕ) : a &&& b ≤ a := Nat.and_le_left
  have hshift (k : ℕ) : word >>> k ≤ word := Nat.shiftRight_le word k
  have hpart : word >>> 12 &&& 0x7 ≤ word := (hand _ _).trans (hshift 12)
  have hlong : word >>> 11 &&& 0x1 ≤ word := (hand _ _).trans (hshift 11)
  have hmode := hand word 0x8000
  have hlow := hand word 0xFF
  simp only [List.mem_append, List.mem_cons, List.not_mem_nil, or_false] at hn
  obtain ((rfl | rfl | rfl) | hn) | rfl | rfl | rfl := hn
  case inl.inr =>
    split_ifs at hn
    · cases hn
    · obtain rfl := List.mem_singleton.1 hn
      exact Nat.add_le_add_right hpart 8
  all_goals grind

theorem inInt_of_mem_extWordInts {extWord : BitVec 32} {z : ℤ} (h : z ∈ extWordInts extWord) :
    InInt z := by
  obtain ⟨n, rfl, hn⟩ := le_of_mem_extWordInts h
  have hword : (extWord.setWidth 16).toNat < 2 ^ 16 := BitVec.isLt _
  exact inInt_of_lt (by omega)

@[simp] theorem always_getExtRegOffset (extWord : BitVec 32) :
    Always InInt (IntM.getExtRegOffset extWord) s := by
  simp only [IntM.getExtRegOffset, always_record_bind, always_lift, and_true]
  exact fun _ => inInt_of_mem_extWordInts

@[simp] theorem always_testSize : Always InInt (IntM.testSize reg size) s := by
  unfold IntM.testSize
  rw [always_record]
  split_ifs
  · rw [List.forall_mem_singleton]
    cases size <;> decide
  · nofun

/-! ### The sum of two offsets -/

theorem toInt_castInt8 (v : BitVec 32) :
    -2 ^ 7 ≤ (castInt8 v).toInt ∧ (castInt8 v).toInt < 2 ^ 7 := by
  rw [castInt8, BitVec.toInt_signExtend_of_le (by decide)]
  exact ⟨BitVec.le_toInt _, BitVec.toInt_lt⟩

theorem toInt_castInt16 (v : BitVec 32) :
    -2 ^ 15 ≤ (castInt16 v).toInt ∧ (castInt16 v).toInt < 2 ^ 15 := by
  rw [castInt16, BitVec.toInt_signExtend_of_le (by decide)]
  exact ⟨BitVec.le_toInt _, BitVec.toInt_lt⟩

/-- The index register read as a long word leaves the range of `int` when the
displacement is added to it. -/
def ExtSumOverflows (s : CPUState M) (extWord : BitVec 32) : Prop :=
  extRegSize extWord = .long ∧ ¬InInt ((s.reg (extReg extWord)).toInt + (castInt8 extWord).toInt)

/-- An index word is too short for the sum to leave the range. -/
theorem inInt_extSum (extWord : BitVec 32) :
    InInt ((s.extOffset extWord).toInt + (castInt8 extWord).toInt) ↔
    ¬ExtSumOverflows s extWord := by
  obtain hsize | hsize := extRegSize_cases extWord
  · have hindex := toInt_castInt16 (Registers.sized (s.reg (extReg extWord)) .word)
    have hdisplacement := toInt_castInt8 extWord
    have hsum : InInt ((s.extOffset extWord).toInt + (castInt8 extWord).toInt) := by
      rw [CPUState.extOffset, if_pos hsize]
      constructor <;> omega
    simp [ExtSumOverflows, hsize, hsum]
  · simp [ExtSumOverflows, hsize, CPUState.extOffset]

end Fragments

/-! ### The accessors -/

section Accessors

variable {M : Type} [IMemory M]

namespace IntM

/-- `CPUState::getControlAddress`. -/
def getControlAddress (mode : AddressingMode) (reg : ℕ) (size : DataSize) : IntM M (BitVec 32) :=
  match mode with
  | .indirectIndex => do
    let addr ← lift (getReg reg .long)
    let pc ← lift (getReg regPC .long)
    let extWord ← lift (memGet pc .word)
    let extRegOffset ← getExtRegOffset extWord
    lift (setReg regPC .long (pc + 2))
    -- `ext_reg_offset + ext_offset`
    record [extRegOffset.toInt + (castInt8 extWord).toInt]
    return addr + (extRegOffset + castInt8 extWord)
  | .pcIndex => do
    let pc ← lift (getReg regPC .long)
    let extWord ← lift (memGet pc .word)
    let extRegOffset ← getExtRegOffset extWord
    lift (setReg regPC .long (pc + 2))
    return pc + extRegOffset + castInt8 extWord
  | .directData | .directAddr | .indirect | .indirectPostincrement | .indirectPredecrement
  | .indirectDisplacement
  | .pcDisplacement | .absWord | .absLong | .immediate | .unknown =>
    lift (CPUState.getControlAddress mode reg size)

/-- `CPUState::getData`. -/
def getData (mode : AddressingMode) (reg : ℕ) (size : DataSize) : IntM M (BitVec 32) :=
  match mode with
  | .indirectPostincrement => do
    let addr ← lift (getReg reg .long)
    let data ← lift (memGet addr size)
    testSize reg size
    lift (setReg reg .long (incremented reg size addr))
    return data
  | .indirectPredecrement => do
    let addr ← lift (getReg reg .long)
    testSize reg size
    let data ← lift (memGet (decremented reg size addr) size)
    lift (setReg reg .long (decremented reg size addr))
    return data
  | .indirectIndex => do
    let addr ← lift (getReg reg .long)
    let pc ← lift (getReg regPC .long)
    let extWord ← lift (memGet pc .word)
    let extRegOffset ← getExtRegOffset extWord
    lift (setReg regPC .long (pc + 2))
    lift (memGet (addr + extRegOffset + castInt8 extWord) size)
  | .pcIndex => do
    let pc ← lift (getReg regPC .long)
    let extWord ← lift (memGet pc .word)
    let extRegOffset ← getExtRegOffset extWord
    lift (setReg regPC .long (pc + 2))
    lift (memGet (pc + extRegOffset + castInt8 extWord) size)
  | .directData | .directAddr | .indirect | .indirectDisplacement | .pcDisplacement
  | .absWord | .absLong
  | .immediate | .unknown => lift (CPUState.getData mode reg size)

/-- `CPUState::getDataSilent`. -/
def getDataSilent (mode : AddressingMode) (reg : ℕ) (size : DataSize) : IntM M (BitVec 32) :=
  match mode with
  | .indirectPredecrement => do
    let addr ← lift (getReg reg .long)
    testSize reg size
    lift (memGet (decremented reg size addr) size)
  | .indirectIndex => do
    let addr ← lift (getReg reg .long)
    let pc ← lift (getReg regPC .long)
    let extWord ← lift (memGet pc .word)
    let extRegOffset ← getExtRegOffset extWord
    lift (memGet (addr + extRegOffset + castInt8 extWord) size)
  | .pcIndex => do
    let pc ← lift (getReg regPC .long)
    let extWord ← lift (memGet pc .word)
    let extRegOffset ← getExtRegOffset extWord
    lift (memGet (pc + extRegOffset + castInt8 extWord) size)
  | .directData | .directAddr | .indirect | .indirectPostincrement | .indirectDisplacement
  | .pcDisplacement
  | .absWord | .absLong | .immediate | .unknown => lift (CPUState.getDataSilent mode reg size)

/-- `CPUState::setData`. -/
def setData (mode : AddressingMode) (reg : ℕ) (size : DataSize) (data : BitVec 32) : IntM M Unit :=
  match mode with
  | .indirectPostincrement => do
    let addr ← lift (getReg reg .long)
    lift (memSet addr size data)
    testSize reg size
    lift (setReg reg .long (incremented reg size addr))
  | .indirectPredecrement => do
    let addr ← lift (getReg reg .long)
    testSize reg size
    lift (memSet (decremented reg size addr) size data)
    lift (setReg reg .long (decremented reg size addr))
  | .indirectIndex => do
    let addr ← lift (getReg reg .long)
    let pc ← lift (getReg regPC .long)
    let extWord ← lift (memGet pc .word)
    let extRegOffset ← getExtRegOffset extWord
    lift (setReg regPC .long (pc + 2))
    lift (memSet (addr + extRegOffset + castInt8 extWord) size data)
  | .directData | .directAddr | .indirect | .indirectDisplacement | .pcDisplacement | .pcIndex
  | .absWord | .absLong
  | .immediate | .unknown => lift (CPUState.setData mode reg size data)

end IntM

/-! ### Without the records they are the accessors -/

section Erase

variable {mode : AddressingMode} {reg : ℕ} {size : DataSize}

theorem erase_getControlAddress :
    erase (IntM.getControlAddress mode reg size : IntM M (BitVec 32)) = CPUState.getControlAddress
      mode reg size := by
  cases mode <;> simp [IntM.getControlAddress, CPUState.getControlAddress]

theorem erase_getData :
    erase (IntM.getData mode reg size : IntM M (BitVec 32)) = CPUState.getData mode reg size := by
  cases mode <;> simp [IntM.getData, CPUState.getData]

theorem erase_getDataSilent :
    erase (IntM.getDataSilent mode reg size : IntM M (BitVec 32)) = CPUState.getDataSilent mode
      reg size := by
  cases mode <;> simp [IntM.getDataSilent, CPUState.getDataSilent]

theorem erase_setData (data : BitVec 32) :
    erase (IntM.setData mode reg size data : IntM M Unit) = CPUState.setData mode reg
      size data := by
  cases mode <;> simp [IntM.setData, CPUState.setData]

end Erase

/-! ### The accessors stay in range -/

variable {mode : AddressingMode} {reg : ℕ} {size : DataSize} {s : CPUState M}

theorem always_getData : Always InInt (IntM.getData mode reg size) s := by
  cases mode <;> simp [IntM.getData, always_bind]

theorem always_getDataSilent : Always InInt (IntM.getDataSilent mode reg size) s := by
  cases mode <;> simp [IntM.getDataSilent, always_bind]

theorem always_setData (data : BitVec 32) : Always InInt (IntM.setData mode reg size data) s := by
  cases mode <;> simp [IntM.setData, always_bind]

/-! ### The sum in `getControlAddress` -/

/-- The mode is `(d8,An,Xn)`, its extension word is read, and the sum of its two
offsets leaves the range. -/
def IndexSumOverflows (mode : AddressingMode) (reg : ℕ) (s : CPUState M) : Prop :=
  mode = .indirectIndex ∧ reg < regsCount ∧
    ∃ extWord mem, IMemory.get (s.reg regPC).toNat .word s.memory = .ok extWord mem ∧
    ExtSumOverflows s extWord

theorem always_getControlAddress_indirectIndex :
    Always InInt (IntM.getControlAddress .indirectIndex reg size) s ↔
    ¬IndexSumOverflows .indirectIndex reg s := by
  have hpc : getReg regPC .long s = .ok (s.reg regPC) s := getReg_long named_regPC
  by_cases hreg : reg < regsCount
  case neg =>
    have hthrow : getReg reg .long s = .error (.assertion .registerIndex) s := by
      simp only [getReg, Registers.get, if_neg hreg]
    exact iff_of_true (always_lift_bind_of_error hthrow) fun h => hreg h.2.1
  have hbase : getReg reg .long s = .ok (s.reg reg) s := by
    simp only [getReg, Registers.get, if_pos hreg, CPUState.reg, Registers.sized]
  simp only [IntM.getControlAddress]
  rw [always_lift_bind hbase, always_lift_bind hpc]
  rcases hmem : IMemory.get (s.reg regPC).toNat .word s.memory with ⟨extWord, mem⟩ | ⟨e, mem⟩
  · have hget : memGet (s.reg regPC) .word s = .ok extWord ⟨mem, s.registers⟩ := by
      simp only [memGet, hmem]
    have hoffset : CPUState.extOffset ⟨mem, s.registers⟩ extWord = s.extOffset extWord := rfl
    rw [always_lift_bind hget, always_bind]
    simp [always_bind, IndexSumOverflows, hreg, hmem, hoffset, inInt_extSum]
  · have hget : memGet (s.reg regPC) .word s = .error e ⟨mem, s.registers⟩ := by
      simp only [memGet, hmem]
    exact iff_of_true (always_lift_bind_of_error hget) (by simp [IndexSumOverflows, hmem])

theorem always_getControlAddress :
    Always InInt (IntM.getControlAddress mode reg size) s ↔ ¬IndexSumOverflows mode reg s := by
  by_cases hmode : mode = .indirectIndex
  · subst hmode
    exact always_getControlAddress_indirectIndex
  · refine iff_of_true ?_ fun h => hmode h.1
    cases mode <;> simp [IntM.getControlAddress, always_bind] at hmode ⊢

/-- No `int` operation of the four accessors leaves the range. -/
structure NoSignedOverflow (mode : AddressingMode) (reg : ℕ) (size : DataSize) (data : BitVec 32)
    (s : CPUState M) : Prop where
  getControlAddress : Always InInt (IntM.getControlAddress mode reg size) s
  getData : Always InInt (IntM.getData mode reg size) s
  getDataSilent : Always InInt (IntM.getDataSilent mode reg size) s
  setData : Always InInt (IntM.setData mode reg size data) s

/-- The accessors overflow exactly where `getControlAddress` adds the two offsets first. -/
theorem no_signed_overflow_iff (mode : AddressingMode) (reg : ℕ) (size : DataSize)
    (data : BitVec 32)
    (s : CPUState M) : NoSignedOverflow mode reg size data s ↔ ¬IndexSumOverflows mode reg s :=
  ⟨fun h => always_getControlAddress.1 h.getControlAddress,
    fun h => ⟨always_getControlAddress.2 h, always_getData, always_getDataSilent,
      always_setData data⟩⟩

end Accessors

/-- `(1,A0,D0.L)` with `0x7FFFFFFF` in `D0`. -/
theorem index_sum_overflows :
    ¬NoSignedOverflow .indirectIndex 8 .long 0 (.simple [0x08, 0x01] fun i =>
      if i = 0 then 0x7FFFFFFF else 0) := by
  intro h
  have hsum := h.getControlAddress (2 ^ 31) (by decide)
  exact absurd hsum (by decide)

end M68kEmu
