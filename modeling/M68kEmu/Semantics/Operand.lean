import M68kEmu.Semantics.EffectiveAddress

/-!
# The location of a destination

A destination is in a register or in memory.  `CPUState.locate` says where, from the mode and the
extension words, and `CPUState.advanced` what the operand moves.  `getDataSilent` is a read of that
location, and `setData` a write to it followed by the movement: the two accessors that the
read-modify-write instructions combine agree on every mode that can be written.
-/

namespace M68kEmu

open Outcome

/-! ### Locations -/

/-- Where an operand is. -/
inductive Location where
  | register (r : ℕ)
  | memory (addr : BitVec 32)
  deriving DecidableEq, Repr

namespace Location

/-- A read of the location. -/
def read (loc : Location) (size : DataSize) : CpuM BaseMemory (BitVec 32) :=
  match loc with
  | .register r => getReg r size
  | .memory addr => memGet addr size

/-- The location can be read and written. -/
def Accessible (loc : Location) (s : CPUState BaseMemory) (size : DataSize) : Prop :=
  match loc with
  | .register r => Named r
  | .memory addr => s.memory.Accessible addr size

/-- The value of the location. -/
def value (loc : Location) (s : CPUState BaseMemory) (size : DataSize) : BitVec 32 :=
  match loc with
  | .register r => Registers.sized (s.reg r) size
  | .memory addr => s.memory.read addr size

/-- The state with the location written. -/
def written (loc : Location) (s : CPUState BaseMemory) (size : DataSize) (data : BitVec 32) :
    CPUState BaseMemory :=
  match loc with
  | .register r => s.withReg r (Registers.merge (s.reg r) data size)
  | .memory addr => s.stored addr size data

/-- From `s` to `t`, nothing changed in memory outside the location, nor in its
register above the operand. -/
def Around (loc : Location) (size : DataSize) (s t : CPUState BaseMemory) : Prop :=
  match loc with
  | .register r => t.memory = s.memory ∧ t.reg r >>> size.bits = s.reg r >>> size.bits
  | .memory addr => t.memory.memSize = s.memory.memSize ∧
      ∀ i, i < maskAddr addr.toNat ∨ maskAddr addr.toNat + size.bytes ≤ i →
      t.memory.baseAddr i = s.memory.baseAddr i

variable {loc : Location} {s t u : CPUState BaseMemory} {size : DataSize}

/-- A location looks at the memory and at the named registers only. -/
theorem value_congr (hloc : ∀ r, loc = .register r → Named r) (hmem : t.memory = s.memory)
    (hreg : ∀ r, Named r → t.reg r = s.reg r) : loc.value t size = loc.value s size := by
  cases loc with
  | register r => rw [value, value, hreg r (hloc r rfl)]
  | memory addr => rw [value, value, hmem]

theorem Around.congr (h : loc.Around size s t) (hloc : ∀ r, loc = .register r → Named r)
    (hmem : u.memory = t.memory)
    (hreg : ∀ r, Named r → u.reg r = t.reg r) : loc.Around size s u := by
  cases loc with
  | register r => exact ⟨hmem.trans h.1, by rw [hreg r (hloc r rfl), h.2]⟩
  | memory addr =>
    rw [Around, hmem]
    exact h

end Location

/-! ### Parts of a register -/

theorem toNat_sized (v : BitVec 32) (size : DataSize) :
    (Registers.sized v size).toNat = v.toNat % 2 ^ size.bits := by
  cases size with
  | byte => exact (BitVec.toNat_and v _).trans (Nat.and_two_pow_sub_one_eq_mod v.toNat 8)
  | word => exact (BitVec.toNat_and v _).trans (Nat.and_two_pow_sub_one_eq_mod v.toNat 16)
  | long => exact (Nat.mod_eq_of_lt v.isLt).symm

/-- The low bits after an assignment under a mask. -/
theorem assign_and_mask (v d m : BitVec 32) : (v &&& ~~~m ||| d &&& m) &&& m = d &&& m := by
  ext i hi
  simp only [BitVec.getElem_and, BitVec.getElem_or, BitVec.getElem_not]
  cases m[i] <;> simp

/-- The bits above the mask after the assignment. -/
theorem assign_ushiftRight (v d : BitVec 32) {m : BitVec 32} {k : ℕ} (hm : m >>> k = 0) :
    (v &&& ~~~m ||| d &&& m) >>> k = v >>> k := by
  ext i hi
  have hbit : m.getLsbD (k + i) = false := by
    have := congrArg (BitVec.getLsbD · i) hm
    simpa using this
  by_cases hk : k + i < 32
  · rw [BitVec.getLsbD_eq_getElem hk] at hbit
    simp [hbit, hk]
  · simp [BitVec.getLsbD_of_ge _ _ (Nat.not_lt.1 hk)]

theorem sized_merge (v data : BitVec 32) (size : DataSize) :
    Registers.sized (Registers.merge v data size) size = Registers.sized data size := by
  cases size with
  | byte => exact assign_and_mask v data 0xff
  | word => exact assign_and_mask v data 0xffff
  | long => exact Registers.merge_long v data

theorem merge_ushiftRight (v data : BitVec 32) (size : DataSize) :
    Registers.merge v data size >>> size.bits = v >>> size.bits := by
  cases size with
  | byte => exact assign_ushiftRight v data (by decide : (0xff : BitVec 32) >>> 8 = 0)
  | word => exact assign_ushiftRight v data (by decide : (0xffff : BitVec 32) >>> 16 = 0)
  | long => exact assign_ushiftRight v data (by decide : (0xffffffff : BitVec 32) >>> 32 = 0)

/-! ### The operand of a state -/

/-- The location of the operand, when its extension words can be fetched. -/
def CPUState.locate (s : CPUState BaseMemory) (mode : AddressingMode) (reg : ℕ) (size : DataSize) :
    Location :=
  match mode with
  | .directData | .directAddr => .register reg
  | .indirect | .indirectPostincrement => .memory (s.reg reg)
  | .indirectPredecrement => .memory (decremented reg size (s.reg reg))
  | .indirectDisplacement => .memory (s.reg reg + castInt16 s.extWord)
  | .indirectIndex => .memory (s.reg reg + s.extOffset s.extWord + castInt8 s.extWord)
  | .pcDisplacement => .memory (s.reg regPC + castInt16 s.extWord)
  | .pcIndex => .memory (s.reg regPC + s.extOffset s.extWord + castInt8 s.extWord)
  | .absWord => .memory (castInt16 s.extWord)
  | .absLong => .memory (s.memory.read (s.reg regPC) .long)
  | .immediate | .unknown => .memory (s.reg regPC)

/-- The state after the operand has moved the program counter and its base register. -/
def CPUState.advanced (s : CPUState BaseMemory) (mode : AddressingMode) (reg : ℕ)
    (size : DataSize) : CPUState BaseMemory :=
  match extSize mode size with
  | some e => s.withReg regPC (s.reg regPC + e.toWord)
  | none => if MovesBase mode then s.withReg reg (s.reg reg + baseStep mode reg size) else s

section Accessors

variable {mode : AddressingMode} {reg : ℕ} {size : DataSize} {s t : CPUState BaseMemory}
    {v data : BitVec 32}

theorem Location.read_eq_ok {loc : Location} (hreg : ∀ r, loc = .register r → Named r) :
    loc.read size s = .ok v t ↔ loc.Accessible s size ∧ loc.value s size = v ∧ s = t := by
  cases loc with
  | register r =>
    have hr := hreg r rfl
    simp [Location.read, Location.Accessible, Location.value, getReg_apply hr, hr]
  | memory addr => exact memGet_eq_ok

theorem eq_of_locate {r : ℕ} (h : s.locate mode reg size = .register r) : r = reg := by
  cases mode <;> cases h <;> rfl

theorem named_of_locate (hreg : reg < 16) (r : ℕ) (h : s.locate mode reg size = .register r) :
    Named r := by
  rw [eq_of_locate h]
  exact named_of_lt hreg

/-- `getDataSilent` is a read of the location. -/
theorem getDataSilent_eq_read (hreg : reg < 16) (hmode : isMemoryAlterable mode)
    (h : (Part.operand mode reg size).Fetchable s.memory (s.reg regPC)) :
    CPUState.getDataSilent mode reg size s = (s.locate mode reg size).read size s := by
  have hn : Named reg := named_of_lt hreg
  cases mode <;> simp [isMemoryAlterable] at hmode
  case directData | directAddr => rfl
  case indirect | indirectPostincrement | indirectPredecrement =>
    rw [CPUState.getDataSilent, bind_of_ok (getReg_long hn)]
    rfl
  case indirectDisplacement =>
    rw [CPUState.getDataSilent, bind_of_ok (getReg_long hn), fetchExt_apply (h .word rfl)]
    rfl
  case indirectIndex =>
    rw [CPUState.getDataSilent, bind_of_ok (getReg_long hn), fetchExt_apply (h .word rfl),
      bind_of_ok (getExtRegOffset_apply _ _)]
    rfl
  case absWord =>
    rw [CPUState.getDataSilent, fetchExt_apply (h .word rfl)]
    rfl
  case absLong =>
    rw [CPUState.getDataSilent, fetchExt_apply (h .long rfl)]
    rfl

theorem getDataSilent_eq_ok (hreg : reg < 16) (hmode : isMemoryAlterable mode) :
    CPUState.getDataSilent mode reg size s = .ok v t ↔
      (Part.operand mode reg size).Fetchable s.memory (s.reg regPC) ∧
        (s.locate mode reg size).Accessible s size ∧
        (s.locate mode reg size).value s size = v ∧ s = t := by
  constructor
  · intro h
    have hfetch : (Part.operand mode reg size).Fetchable s.memory (s.reg regPC) := fun e he =>
      accessible_of_getDataSilent hreg he h
    rw [getDataSilent_eq_read hreg hmode hfetch, Location.read_eq_ok (named_of_locate hreg)] at h
    exact ⟨hfetch, h⟩
  · rintro ⟨hfetch, h⟩
    rwa [getDataSilent_eq_read hreg hmode hfetch, Location.read_eq_ok (named_of_locate hreg)]

/-- `setData` writes the location and moves the operand. -/
theorem setData_eq_ok {u : Unit} (hreg : reg < 16) (hmode : isMemoryAlterable mode) :
    CPUState.setData mode reg size data s = .ok u t ↔
      (Part.operand mode reg size).Fetchable s.memory (s.reg regPC) ∧
        (s.locate mode reg size).Accessible s size ∧
        ((s.locate mode reg size).written s size data).advanced mode reg size = t := by
  have hn : Named reg := named_of_lt hreg
  cases mode <;> simp [isMemoryAlterable] at hmode <;>
    simp only [Part.Fetchable, extSize, CPUState.locate, Location.Accessible, Location.written,
      CPUState.advanced]
  case directData | directAddr => simp [CPUState.setData, setReg_apply hn, MovesBase, hn]
  case indirect => simp [CPUState.setData, hn, MovesBase]
  case indirectPostincrement => simp [CPUState.setData, hn, MovesBase, incremented_eq]
  case indirectPredecrement => simp [CPUState.setData, hn, MovesBase, ← decremented_eq]
  case absLong =>
    simp [CPUState.setData]
    exact fun _ _ => Iff.rfl
  all_goals
    simp [CPUState.setData, hn]
    exact fun _ => Iff.rfl

theorem sub_ofNat_add (v : BitVec 32) (m n : ℕ) :
    v - BitVec.ofNat 32 (m + n) = v - BitVec.ofNat 32 m - BitVec.ofNat 32 n := by
  rw [BitVec.ofNat_add, BitVec.sub_eq_add_neg, BitVec.neg_add, BitVec.sub_eq_add_neg,
    BitVec.sub_eq_add_neg, BitVec.sub_eq_add_neg, BitVec.add_assoc]

theorem getData_predecrement (hn : Named reg)
    (h : s.memory.Accessible (decremented reg size (s.reg reg)) size) :
    CPUState.getData .indirectPredecrement reg size s =
      .ok (s.memory.read (decremented reg size (s.reg reg)) size)
        (s.withReg reg (decremented reg size (s.reg reg))) := by
  rw [CPUState.getData, bind_of_ok (getReg_long hn), bind_of_ok (memGet_of_accessible h),
    bind_of_ok (setReg_long hn)]
  rfl

theorem getData_postincrement (hn : Named reg) (h : s.memory.Accessible (s.reg reg) size) :
    CPUState.getData .indirectPostincrement reg size s =
      .ok (s.memory.read (s.reg reg) size) (s.withReg reg (incremented reg size (s.reg reg))) := by
  rw [CPUState.getData, bind_of_ok (getReg_long hn), bind_of_ok (memGet_of_accessible h),
    bind_of_ok (setReg_long hn)]
  rfl

theorem setData_predecrement (hn : Named reg)
    (h : s.memory.Accessible (decremented reg size (s.reg reg)) size) :
    CPUState.setData .indirectPredecrement reg size data s =
      .ok () ((s.stored (decremented reg size (s.reg reg)) size data).withReg reg
        (decremented reg size (s.reg reg))) := by
  rw [CPUState.setData, bind_of_ok (getReg_long hn), bind_of_ok (memSet_of_accessible h),
    setReg_long hn]

/-! ### The location after a write -/

theorem memory_advanced : (s.advanced mode reg size).memory = s.memory := by
  rw [CPUState.advanced]
  rcases extSize mode size with _ | e
  · dsimp only
    split_ifs <;> rfl
  · rfl

/-- A register operand moves nothing. -/
theorem advanced_of_direct (h : mode = .directData ∨ mode = .directAddr) :
    s.advanced mode reg size = s := by
  obtain rfl | rfl := h <;> rfl

/-- A store through an operand leaves the status register. -/
theorem status_of_setData {u : Unit} (hreg : reg < 16) (hmode : isMemoryAlterable mode)
    (h : CPUState.setData mode reg size data s = .ok u t) :
    t.registers.regBuffer regSR = s.registers.regBuffer regSR := by
  obtain ⟨-, -, rfl⟩ := (setData_eq_ok hreg hmode).1 h
  have hwritten : ((s.locate mode reg size).written s size data).registers.regBuffer regSR =
      s.registers.regBuffer regSR := by
    rcases hloc : s.locate mode reg size with r | addr
    · exact CPUState.status_withReg (named_of_locate hreg r hloc)
    · rfl
  rw [← hwritten, CPUState.advanced]
  rcases extSize mode size with _ | e
  · dsimp only
    split_ifs
    · exact CPUState.status_withReg (named_of_lt hreg)
    · rfl
  · exact CPUState.status_withReg named_regPC

theorem CPUState.locate_cases (s : CPUState BaseMemory) (mode : AddressingMode) (reg : ℕ)
    (size : DataSize) :
    ((mode = .directData ∨ mode = .directAddr) ∧ s.locate mode reg size = .register reg) ∨
      ∃ addr, s.locate mode reg size = .memory addr := by
  cases mode
  case directData | directAddr => exact .inl ⟨by decide, rfl⟩
  all_goals exact .inr ⟨_, rfl⟩

/-- The location holds the low bits of what was written to it. -/
theorem value_advanced_written (hreg : reg < 16) (s : CPUState BaseMemory) (data : BitVec 32) :
    ((s.locate mode reg size).value (((s.locate mode reg size).written s size data).advanced
      mode reg size) size).toNat = data.toNat % 2 ^ size.bits := by
  obtain ⟨hdirect, hloc⟩ | ⟨addr, hloc⟩ := s.locate_cases mode reg size <;> rw [hloc]
  · rw [advanced_of_direct hdirect, Location.value, Location.written,
      CPUState.reg_withReg_self (named_of_lt hreg), sized_merge, toNat_sized]
  · rw [Location.value, memory_advanced]
    exact toNat_readRealMem_writeRealMem

/-- A write changes nothing around the location. -/
theorem around_advanced_written (hreg : reg < 16) (s : CPUState BaseMemory) (data : BitVec 32) :
    (s.locate mode reg size).Around size s
      (((s.locate mode reg size).written s size data).advanced mode reg size) := by
  obtain ⟨hdirect, hloc⟩ | ⟨addr, hloc⟩ := s.locate_cases mode reg size <;> rw [hloc]
  · rw [advanced_of_direct hdirect, Location.written]
    refine ⟨rfl, ?_⟩
    rw [CPUState.reg_withReg_self (named_of_lt hreg), merge_ushiftRight]
  · rw [Location.Around, memory_advanced]
    exact ⟨rfl, fun i hi => writeRealMem_of_outside hi⟩

/-! ### Consistency -/

/-- What a store of `w` does to the operand that `getDataSilent` reads before it. -/
structure Rewritten (mode : AddressingMode) (reg : ℕ) (size : DataSize) (w : BitVec 32)
    (s t : CPUState BaseMemory) (loc : Location) : Prop where
  read : CPUState.getDataSilent mode reg size s = loc.read size s
  value : (loc.value t size).toNat = w.toNat % 2 ^ size.bits
  around : loc.Around size s t
  pc : t.reg regPC = s.reg regPC + (Part.operand mode reg size).length
  base : MovesBase mode → t.reg reg = s.reg reg + baseStep mode reg size
  others : ∀ r < 16, loc ≠ .register r → ¬(r = reg ∧ MovesBase mode) → t.reg r = s.reg r

theorem rewritten_of_setData {w : BitVec 32} {u : Unit} (hreg : reg < 16)
    (hmode : isMemoryAlterable mode) (h : CPUState.setData mode reg size w s = .ok u t) :
    Rewritten mode reg size w s t (s.locate mode reg size) := by
  have hconsumed :
      Consumed (fun r => s.locate mode reg size = .register r) [.operand mode reg size] s t := by
    refine consumes_setData hreg hmode (fun hdirect => ?_) w s u t h
    obtain rfl | rfl := hdirect <;> rfl
  have hmoved (r : ℕ) (hr : Named r) (hloc : s.locate mode reg size ≠ .register r) :
      t.reg r = s.reg r + (Part.operand mode reg size).delta r := by
    rw [hconsumed.moved r hr hloc, delta, delta]
    exact congrArg _ (BitVec.add_zero _)
  have hregister {r : ℕ} (hloc : s.locate mode reg size = .register r) :
      r = reg ∧ ¬MovesBase mode := by
    refine ⟨eq_of_locate hloc, ?_⟩
    cases mode <;> cases hloc <;> decide
  obtain ⟨hfetch, hacc, rfl⟩ := (setData_eq_ok hreg hmode).1 h
  refine ⟨getDataSilent_eq_read hreg hmode hfetch, value_advanced_written hreg s w,
    around_advanced_written hreg s w, ?_, fun hbase => ?_, fun r hr hloc hbase => ?_⟩
  · rw [hmoved regPC named_regPC fun hloc => ne_regPC_of_lt hreg (hregister hloc).1.symm,
      Part.delta_regPC]
  · rw [hmoved reg (named_of_lt hreg) fun hloc => (hregister hloc).2 hbase]
    simp [Part.delta, ne_regPC_of_lt hreg]
  · rw [hmoved r (named_of_lt hr) hloc, Part.delta, if_neg (ne_regPC_of_lt hr)]
    split_ifs with hr'
    · rw [baseStep_of_not_movesBase fun hmoves => hbase ⟨hr', hmoves⟩]
      exact BitVec.add_zero _
    · exact BitVec.add_zero _

/-- An accessor throws or returns. -/
theorem exists_error_iff {α : Type} {x : CpuM BaseMemory α} :
    (∃ e t, x s = .error e t) ↔ ¬∃ a t, x s = .ok a t := by
  rcases x s with ⟨a, t⟩ | ⟨e, t⟩ <;> simp

/-- Read-modify-write is consistent: the silent read changes nothing, the store throws exactly if
the read does, and it writes the location that the read has read, and nothing else in memory, and
moves the operand once. -/
theorem setData_rewrites_silent_operand (mode : AddressingMode) (reg : ℕ) (size : DataSize)
    (hreg : reg < 16) (hmode : isMemoryAlterable mode) (s : CPUState BaseMemory) (w : BitVec 32) :
    after (CPUState.getDataSilent mode reg size) s = s ∧
    ((∃ e t, CPUState.setData mode reg size w s = .error e t) ↔
      ∃ e t, CPUState.getDataSilent mode reg size s = .error e t) ∧
    ∀ u t, CPUState.setData mode reg size w s = .ok u t →
      Rewritten mode reg size w s t (s.locate mode reg size) := by
  refine ⟨after_getDataSilent mode reg size s, ?_, fun u t h => rewritten_of_setData hreg hmode h⟩
  · rw [exists_error_iff, exists_error_iff, not_iff_not]
    constructor
    · rintro ⟨u, t, h⟩
      obtain ⟨hfetch, hacc, -⟩ := (setData_eq_ok hreg hmode).1 h
      exact ⟨_, s, (getDataSilent_eq_ok hreg hmode).2 ⟨hfetch, hacc, rfl, rfl⟩⟩
    · rintro ⟨v, t, h⟩
      obtain ⟨hfetch, hacc, -⟩ := (getDataSilent_eq_ok hreg hmode).1 h
      exact ⟨(), _, (setData_eq_ok hreg hmode).2 ⟨hfetch, hacc, rfl⟩⟩

/-- `A0 = 0x102`, and the word at `0x100` is `0x1234`. -/
def wordAt : CPUState BaseMemory :=
  ⟨simpleMemory fun i => if i = 0x100 then 0x12 else if i = 0x101 then 0x34 else 0,
    ⟨fun i => if i = 8 then 0x102 else 0⟩⟩

/-- A word store through `-(A0)`: the silent read gives `0x1234` from `0x100`, and the store
writes the word there. -/
theorem setData_predecrement_rewrites :
    CPUState.getDataSilent .indirectPredecrement 8 .word wordAt = .ok 0x1234 wordAt ∧
    ∃ t, CPUState.setData .indirectPredecrement 8 .word 0xABCD wordAt = .ok () t ∧
      Rewritten .indirectPredecrement 8 .word 0xABCD wordAt t (.memory 0x100) := by
  have hrewrites :=
    setData_rewrites_silent_operand .indirectPredecrement 8 .word (by decide)
      (by decide) wordAt 0xABCD
  obtain ⟨t, ht⟩ : ∃ t, CPUState.setData .indirectPredecrement 8 .word 0xABCD wordAt = .ok () t :=
    ⟨_, rfl⟩
  exact ⟨rfl, t, ht, hrewrites.2.2 () t ht⟩

end Accessors

end M68kEmu
