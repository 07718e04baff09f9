import M68kEmu.Semantics.Operand

/-!
# Stacks

Stores through `-(An)` push operands of any sizes, and loads through `(An)+` pop them: `pop_of_push`
says that what was pushed comes back in the reverse order, and that the register ends where it
began.  Later pushes do not reach an earlier operand as long as the register moves over at most
`2 ^ 24` bytes in all, the length of the address space.
-/

namespace M68kEmu

open Outcome

/-! ### Pushing and popping -/

/-- Stores the values through `-(An)`, one after the other. -/
def pushAll (reg : ℕ) : List (DataSize × BitVec 32) → CpuM BaseMemory Unit
  | [] => pure ()
  | (size, value) :: rest => do
    CPUState.setData .indirectPredecrement reg size value
    pushAll reg rest

/-- Loads values of the sizes through `(An)+`, one after the other. -/
def popAll (reg : ℕ) : List DataSize → CpuM BaseMemory (List (BitVec 32))
  | [] => pure []
  | size :: rest => do
    let value ← CPUState.getData .indirectPostincrement reg size
    let values ← popAll reg rest
    return value :: values

/-- The number of bytes by which an operand moves the register: two for a byte through `A7`. -/
def stackStep (reg : ℕ) (size : DataSize) : ℕ :=
  if reg = regA7 ∧ size.bytes &&& 1 ≠ 0 then size.bytes + 1 else size.bytes

/-- The number of bytes that the register moves over. -/
def stackSpan (reg : ℕ) : List (DataSize × BitVec 32) → ℕ
  | [] => 0
  | (size, _) :: rest => stackStep reg size + stackSpan reg rest

section Steps

variable {reg : ℕ} {size : DataSize}

theorem decremented_eq_sub (v : BitVec 32) :
    decremented reg size v = v - BitVec.ofNat 32 (stackStep reg size) := by
  unfold decremented stackStep
  split_ifs
  · rw [sub_ofNat_add, DataSize.toWord]
    rfl
  · rfl

theorem incremented_decremented (v : BitVec 32) :
    incremented reg size (decremented reg size v) = v := by
  unfold incremented decremented
  split_ifs
  · rw [BitVec.add_assoc, BitVec.add_comm size.toWord, ← BitVec.add_assoc, BitVec.sub_add_cancel,
      BitVec.sub_add_cancel]
  · rw [BitVec.sub_add_cancel]

theorem bytes_le_stackStep (reg : ℕ) (size : DataSize) :
    0 < size.bytes ∧ size.bytes ≤ stackStep reg size := by
  unfold stackStep
  refine ⟨by cases size <;> decide, ?_⟩
  split_ifs
  · exact Nat.le_succ _
  · exact le_rfl

end Steps

/-! ### What pushes leave alone -/

section Frame

variable {reg : ℕ} {s t : CPUState BaseMemory}

/-- The state after a push. -/
def CPUState.pushed (s : CPUState BaseMemory) (reg : ℕ) (size : DataSize) (value : BitVec 32) :
    CPUState BaseMemory :=
  (s.stored (decremented reg size (s.reg reg)) size value).withReg reg
    (decremented reg size (s.reg reg))

/-- A push goes through if its operand can be written, and the others follow. -/
theorem pushAll_cons_eq_ok (hreg : reg < 16) {size : DataSize} {value : BitVec 32}
    {rest : List (DataSize × BitVec 32)} {u : Unit} :
    pushAll reg ((size, value) :: rest) s = .ok u t ↔
      s.memory.Accessible (decremented reg size (s.reg reg)) size ∧
        pushAll reg rest (s.pushed reg size value) = .ok u t := by
  constructor
  · intro h
    obtain ⟨_, s₁, hset, hrest⟩ := bind_eq_ok.1 h
    obtain ⟨-, hacc, -⟩ := (setData_eq_ok hreg rfl).1 hset
    rw [setData_predecrement (named_of_lt hreg) hacc] at hset
    obtain ⟨-, rfl⟩ := EStateM.Result.ok.inj hset
    exact ⟨hacc, hrest⟩
  · rintro ⟨hacc, hrest⟩
    exact (bind_of_ok (setData_predecrement (named_of_lt hreg) hacc)).trans hrest

/-- Pushes from a register `d` bytes below `v` do not reach the `len` bytes from `v` on,
unless they go around. -/
theorem pushAll_frame (hreg : reg < 16) (xs : List (DataSize × BitVec 32)) {u : Unit}
    (v : BitVec 32) (d len : ℕ)
    (hv : s.reg reg = v - BitVec.ofNat 32 d) (hspan : d + stackSpan reg xs + len ≤ 2 ^ 24)
    (h : pushAll reg xs s = .ok u t) :
    t.memory.memSize = s.memory.memSize ∧
      ∀ i, maskAddr v.toNat ≤ i → i < maskAddr v.toNat + len →
      t.memory.baseAddr i = s.memory.baseAddr i := by
  induction xs generalizing s d with
  | nil =>
    obtain ⟨-, rfl⟩ := EStateM.Result.ok.inj h
    exact ⟨rfl, fun _ _ _ => rfl⟩
  | cons x xs ih =>
    obtain ⟨size, value⟩ := x
    obtain ⟨-, hrest⟩ := (pushAll_cons_eq_ok hreg).1 h
    rw [stackSpan] at hspan
    obtain ⟨hpos, hle⟩ := bytes_le_stackStep reg size
    have hmoved :
        decremented reg size (s.reg reg) = v - BitVec.ofNat 32 (d + stackStep reg size) := by
      rw [decremented_eq_sub, hv, sub_ofNat_add]
    have hreg' :
        (s.pushed reg size value).reg reg = v - BitVec.ofNat 32 (d + stackStep reg size) := by
      rw [CPUState.pushed, CPUState.reg_withReg_self (named_of_lt hreg), hmoved]
    obtain ⟨hsize, hbytes⟩ := ih (d + stackStep reg size) hreg' (by omega) hrest
    refine ⟨hsize, fun i hi hi' => (hbytes i hi hi').trans ?_⟩
    -- the operand is below `v`, or at the other end of the address space
    refine writeRealMem_of_outside ?_
    have hmask : maskAddr v.toNat < 2 ^ 24 := by rw [maskAddr_eq_mod]; omega
    have haddr : maskAddr (decremented reg size (s.reg reg)).toNat =
        (maskAddr v.toNat + (2 ^ 24 - (d + stackStep reg size))) % 2 ^ 24 := by
      rw [hmoved, maskAddr_eq_mod, maskAddr_eq_mod, BitVec.toNat_sub, BitVec.toNat_ofNat]
      omega
    rw [haddr]
    omega

end Frame

/-! ### Popping what was pushed -/

section Pop

variable {reg : ℕ} {s t u : CPUState BaseMemory}

theorem popAll_concat {sizes : List DataSize} {size : DataSize} {values : List (BitVec 32)}
    {value : BitVec 32} (h : popAll reg sizes s = .ok values t)
    (hlast : CPUState.getData .indirectPostincrement reg size t = .ok value u) :
    popAll reg (sizes ++ [size]) s = .ok (values ++ [value]) u := by
  induction sizes generalizing s values with
  | nil =>
    obtain ⟨rfl, rfl⟩ := EStateM.Result.ok.inj h
    rw [List.nil_append, popAll, bind_of_ok hlast]
    rfl
  | cons first sizes ih =>
    obtain ⟨value', s₁, hfirst, hrest⟩ := bind_eq_ok.1 h
    obtain ⟨values', s₂, htail, hdone⟩ := bind_eq_ok.1 hrest
    obtain ⟨rfl, rfl⟩ := EStateM.Result.ok.inj hdone
    rw [List.cons_append, popAll, bind_of_ok hfirst, bind_of_ok (ih htail)]
    rfl

/-- A write to a register, and then the old value again. -/
theorem put_put_reg (regs : Registers) {r : ℕ} (hr : Named r) (v w : BitVec 32) :
    (regs.put (regs.bank r) v).put ((regs.put (regs.bank r) v).bank r) w =
    regs.put (regs.bank r) w := by
  have hbank : (regs.put (regs.bank r) v).bank = regs.bank :=
    Registers.bank_put_of_ne (Registers.bank_ne_regSR hr)
  rw [hbank, Registers.put, Registers.put, Registers.put]
  congr 1
  funext i
  split_ifs with hi
  · rfl
  · exact if_neg hi

theorem put_reg_self (s : CPUState BaseMemory) (r : ℕ) :
    s.registers.put (s.registers.bank r) (s.reg r) = s.registers := by
  rw [Registers.put]
  congr 1
  funext i
  split_ifs with h
  · rw [h, CPUState.reg]
  · rfl

/-- A pop from the registers that a push left, in a memory that still holds the operand. -/
theorem getData_of_pushed (hreg : reg < 16) {size : DataSize} {value : BitVec 32}
    (hacc : s.memory.Accessible (decremented reg size (s.reg reg)) size)
    (hmem : t.memory.memSize = s.memory.memSize)
    (hbytes : ∀ i, maskAddr (decremented reg size (s.reg reg)).toNat ≤ i →
      i < maskAddr (decremented reg size (s.reg reg)).toNat + size.bytes →
      t.memory.baseAddr i = (s.pushed reg size value).memory.baseAddr i) :
    ∃ v, CPUState.getData .indirectPostincrement reg size
      ⟨t.memory, (s.pushed reg size value).registers⟩ =
        .ok v ⟨t.memory, s.registers⟩ ∧ v.toNat = value.toNat % 2 ^ size.bits := by
  have hn : Named reg := named_of_lt hreg
  have htop : (CPUState.mk t.memory (s.pushed reg size value).registers).reg reg =
      decremented reg size (s.reg reg) :=
    CPUState.reg_withReg_self (s := s.stored _ size value) hn
  have hacc' : t.memory.Accessible (decremented reg size (s.reg reg)) size :=
    (BaseMemory.accessible_congr hmem).2 hacc
  refine ⟨t.memory.read (decremented reg size (s.reg reg)) size, ?_, ?_⟩
  · rw [getData_postincrement hn (htop.symm ▸ hacc'), htop, incremented_decremented]
    congr 1
    rw [CPUState.withReg]
    congr 1
    exact (put_put_reg s.registers hn _ _).trans (put_reg_self s reg)
  · rw [BaseMemory.read, readRealMem_congr hbytes]
    exact toNat_readRealMem_writeRealMem

/-- Everything that was pushed is popped, and the registers are as before. -/
theorem popAll_of_pushAll (hreg : reg < 16) (xs : List (DataSize × BitVec 32))
    (hspan : stackSpan reg xs ≤ 2 ^ 24) {a : Unit} (h : pushAll reg xs s = .ok a t) :
    ∃ values, popAll reg (xs.reverse.map Prod.fst) t = .ok values ⟨t.memory, s.registers⟩ ∧
      values.map BitVec.toNat = xs.reverse.map fun x => x.2.toNat % 2 ^ x.1.bits := by
  induction xs generalizing s with
  | nil =>
    obtain ⟨-, rfl⟩ := EStateM.Result.ok.inj h
    exact ⟨[], rfl, rfl⟩
  | cons x xs ih =>
    obtain ⟨size, value⟩ := x
    obtain ⟨hacc, hrest⟩ := (pushAll_cons_eq_ok hreg).1 h
    rw [stackSpan] at hspan
    have hle := (bytes_le_stackStep reg size).2
    obtain ⟨values, hpop, hvalues⟩ := ih (by omega) hrest
    have htop : (s.pushed reg size value).reg reg = decremented reg size (s.reg reg) -
        BitVec.ofNat 32 0 := by
      rw [CPUState.pushed, CPUState.reg_withReg_self (named_of_lt hreg)]
      exact (BitVec.sub_zero _).symm
    obtain ⟨hmem, hbytes⟩ := pushAll_frame hreg xs _ 0 size.bytes htop (by omega) hrest
    obtain ⟨v, hget, hv⟩ := getData_of_pushed hreg hacc hmem hbytes
    refine ⟨values ++ [v], ?_, ?_⟩
    · rw [List.reverse_cons, List.map_append]
      exact popAll_concat hpop hget
    · rw [List.reverse_cons, List.map_append, List.map_append, hvalues]
      simp [hv]

/-- A byte moves `A7` by two. -/
theorem moved_byte_A7 (v : BitVec 32) :
    decremented regA7 .byte v = v - 2 ∧ (v - 2).toNat % 2 = v.toNat % 2 ∧
      incremented regA7 .byte v = v + 2 ∧ (v + 2).toNat % 2 = v.toNat % 2 := by
  have hlt := v.isLt
  refine ⟨?_, ?_, ?_, ?_⟩
  · rw [decremented_eq_sub]
    rfl
  · rw [BitVec.toNat_sub]
    simp only [BitVec.reduceToNat]
    omega
  · rw [incremented, if_pos (by decide), BitVec.add_assoc]
    rfl
  · rw [BitVec.toNat_add]
    simp only [BitVec.reduceToNat]
    omega

/-- Stacks are last-in first-out: loads through `(An)+` return what stores through `-(An)` have
stored, in the reverse order, and put all registers back.  A byte moves `A7` by two. -/
theorem pop_of_push (reg : ℕ) (hreg : 8 ≤ reg ∧ reg < 16) (xs : List (DataSize × BitVec 32))
    (s t : CPUState BaseMemory)
    (a : Unit) (h : pushAll reg xs s = .ok a t) (hspan : stackSpan reg xs ≤ 2 ^ 24) :
    (∃ values, popAll reg (xs.reverse.map Prod.fst) t = .ok values ⟨t.memory, s.registers⟩ ∧
      values.map BitVec.toNat = xs.reverse.map fun x => x.2.toNat % 2 ^ (8 * x.1.bytes)) ∧
    (∀ (s t : CPUState BaseMemory) (value : BitVec 32) (a : Unit),
      CPUState.setData .indirectPredecrement regA7 .byte value s = .ok a t →
        t.reg regA7 = s.reg regA7 - 2 ∧ (t.reg regA7).toNat % 2 = (s.reg regA7).toNat % 2) ∧
    ∀ (s t : CPUState BaseMemory) (value : BitVec 32),
      CPUState.getData .indirectPostincrement regA7 .byte s = .ok value t →
        t.reg regA7 = s.reg regA7 + 2 ∧ (t.reg regA7).toNat % 2 = (s.reg regA7).toNat % 2 := by
  refine ⟨popAll_of_pushAll hreg.2 xs hspan h, fun s t value a hset => ?_, fun s t value hget => ?_⟩
  · obtain ⟨-, hacc, -⟩ := (setData_eq_ok (by decide) rfl).1 hset
    rw [setData_predecrement (by decide) hacc] at hset
    obtain ⟨-, rfl⟩ := EStateM.Result.ok.inj hset
    obtain ⟨hdec, hparity, -, -⟩ := moved_byte_A7 (s.reg regA7)
    rw [CPUState.reg_withReg_self (by decide), hdec]
    exact ⟨rfl, hparity⟩
  · obtain ⟨addr, s₁, haddr, hread⟩ := bind_eq_ok.1 hget
    obtain ⟨data, s₂, hdata, hmove⟩ := bind_eq_ok.1 hread
    rw [getReg_long (by decide)] at haddr
    obtain ⟨rfl, rfl⟩ := EStateM.Result.ok.inj haddr
    obtain ⟨hacc, -, -⟩ := memGet_eq_ok.1 hdata
    rw [getData_postincrement (by decide) hacc] at hget
    obtain ⟨-, rfl⟩ := EStateM.Result.ok.inj hget
    obtain ⟨-, -, hinc, hparity⟩ := moved_byte_A7 (s.reg regA7)
    rw [CPUState.reg_withReg_self (by decide), hinc]
    exact ⟨rfl, hparity⟩

/-- A byte, a word and a long word through `A7`, which starts at 16. -/
theorem pop_of_push_three :
    ∃ t, pushAll regA7 [(.byte, 0x1FF), (.word, 0x12345), (.long, 0xDEADBEEF)]
        (CPUState.simple [] fun i => if i = regA7 then 16 else 0) = .ok () t ∧
      ∃ values, popAll regA7 [.long, .word, .byte] t =
          .ok values
            ⟨t.memory, (CPUState.simple [] fun i => if i = regA7 then 16 else 0).registers⟩ ∧
        values.map BitVec.toNat = [0xDEADBEEF, 0x2345, 0xFF] := by
  obtain ⟨t, ht⟩ : ∃ t, pushAll regA7 [(.byte, 0x1FF), (.word, 0x12345), (.long, 0xDEADBEEF)]
      (CPUState.simple [] fun i => if i = regA7 then 16 else 0) = .ok () t := by
    have hreg : regA7 < 16 := by decide
    exact ⟨_, (pushAll_cons_eq_ok hreg).2 ⟨by decide, (pushAll_cons_eq_ok hreg).2 ⟨by decide,
      (pushAll_cons_eq_ok hreg).2 ⟨by decide, rfl⟩⟩⟩⟩
  exact ⟨t, ht, (pop_of_push regA7 (by decide) _ _ t () ht (by decide)).1⟩

end Pop

end M68kEmu
