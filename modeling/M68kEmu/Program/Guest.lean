import M68kEmu.Lib.Refine
import M68kEmu.Semantics.Flags

/-!
# What a program sees of the machine

A `Guest` has the program counter, the sixteen registers that an instruction can name, the condition
codes and the memory; which of the two stack pointers `A7` is, and the rest of the status register,
are not in it.  `Shows s g` says that the state `s` is seen as `g`, and `Does x g a g'` that `x`
takes every state seen as `g` to one seen as `g'` and returns `a`.

Addresses and the program counter are numbers here: `Points v a` says that an access at `v` is one
at the masked address `a`.
-/

namespace M68kEmu

open ConditionCodes Outcome Refine

/-! ### Long words of a memory -/

namespace BaseMemory

/-- The long word at an address. -/
def long (mem : BaseMemory) (a : ℕ) : BitVec 32 := readRealMem mem.baseAddr a .long

/-- The memory with a long word stored at an address. -/
def putLong (mem : BaseMemory) (a : ℕ) (v : BitVec 32) : BaseMemory :=
  { mem with baseAddr := writeRealMem mem.baseAddr a v .long }

/-- A long word can be accessed at the address. -/
def Room (mem : BaseMemory) (a : ℕ) : Prop := a % 2 = 0 ∧ a + 4 ≤ mem.memSize.toNat

variable {mem : BaseMemory} {a b i : ℕ} {v : BitVec 32}

@[simp] theorem memSize_putLong : (mem.putLong a v).memSize = mem.memSize := rfl

@[simp] theorem room_putLong : (mem.putLong a v).Room b ↔ mem.Room b := Iff.rfl

@[simp] theorem long_putLong_self : (mem.putLong a v).long a = v := readRealMem_writeRealMem

theorem baseAddr_putLong (h : i < a ∨ a + 4 ≤ i) :
    (mem.putLong a v).baseAddr i = mem.baseAddr i := by
  have hout : i < a ∨ a + DataSize.long.bytes ≤ i := h
  exact writeRealMem_of_outside hout

theorem long_congr {mem' : BaseMemory}
    (h : ∀ i, a ≤ i → i < a + 4 → mem.baseAddr i = mem'.baseAddr i) :
    mem.long a = mem'.long a :=
  readRealMem_congr h

theorem long_putLong (h : a + 4 ≤ b ∨ b + 4 ≤ a) : (mem.putLong a v).long b = mem.long b :=
  long_congr fun _ _ _ => baseAddr_putLong (by omega)

end BaseMemory

/-! ### Addresses -/

/-- An access at `v` is an access at the masked address `a`. -/
def Points (v : BitVec 32) (a : ℕ) : Prop := maskAddr v.toNat = a

section Points

variable {v x : BitVec 32} {a b : ℕ}

theorem points_iff : Points v a ↔ v.toNat % 2 ^ 24 = a := by rw [Points, maskAddr_eq_mod]

theorem points_ofNat (h : a < 2 ^ 24) : Points (BitVec.ofNat 32 a) a := by
  rw [points_iff, BitVec.toNat_ofNat]
  omega

theorem Points.lt (h : Points v a) : a < 2 ^ 24 := by
  rw [points_iff] at h
  omega

theorem difference_eq_zero_iff {x y : BitVec 32} : x - y = 0 ↔ x = y := by
  rw [BitVec.sub_eq_iff_eq_add, BitVec.ofNat_eq_ofNat, BitVec.zero_add]

/-- An address moves by a signed displacement, as long as it does not leave the address space. -/
theorem Points.offset {d : ℤ} (h : Points v a) (hx : x.toInt = d) (hb : (b : ℤ) = a + d)
    (hlt : b < 2 ^ 24) : Points (v + x) b := by
  rw [points_iff] at h ⊢
  have htoInt := BitVec.toInt_eq_toNat_cond x
  rw [BitVec.toNat_add]
  split_ifs at htoInt <;> omega

theorem Points.add {n : ℕ} (h : Points v a) (hn : n < 2 ^ 24) (hlt : a + n < 2 ^ 24) :
    Points (v + BitVec.ofNat 32 n) (a + n) := by
  rw [points_iff] at h ⊢
  rw [BitVec.toNat_add, BitVec.toNat_ofNat]
  omega

theorem Points.sub {n : ℕ} (h : Points v a) (hle : n ≤ a) :
    Points (v - BitVec.ofNat 32 n) (a - n) := by
  rw [points_iff] at h ⊢
  rw [BitVec.toNat_sub, BitVec.toNat_ofNat]
  omega

/-- A branch displacement, from one number to another. -/
theorem ofNat_add_of_toInt {m n : ℕ} (h : (m : ℤ) + x.toInt = n) :
    BitVec.ofNat 32 m + x = BitVec.ofNat 32 n := by
  have htoInt := BitVec.toInt_eq_toNat_cond x
  refine BitVec.eq_of_toNat_eq ?_
  rw [BitVec.toNat_add, BitVec.toNat_ofNat, BitVec.toNat_ofNat]
  split_ifs at htoInt <;> omega

end Points

/-! ### Guest states -/

/-- What a program sees. -/
structure Guest where
  pc : ℕ
  reg : ℕ → BitVec 32
  codes : Codes
  memory : BaseMemory

namespace Guest

/-- The state at another place of the program. -/
def goto (g : Guest) (pc : ℕ) : Guest := { g with pc }

/-- The state with a register replaced. -/
def withReg (g : Guest) (r : ℕ) (v : BitVec 32) : Guest :=
  { g with reg := fun q => if q = r then v else g.reg q }

/-- The state with other condition codes. -/
def withCodes (g : Guest) (codes : Codes) : Guest := { g with codes }

/-- The state with a long word stored. -/
def putLong (g : Guest) (a : ℕ) (v : BitVec 32) : Guest := { g with memory := g.memory.putLong a v }

variable {g : Guest} {pc r q a : ℕ} {v : BitVec 32} {codes : Codes}

@[simp] theorem pc_goto : (g.goto pc).pc = pc := rfl
@[simp] theorem reg_goto : (g.goto pc).reg r = g.reg r := rfl
@[simp] theorem codes_goto : (g.goto pc).codes = g.codes := rfl
@[simp] theorem memory_goto : (g.goto pc).memory = g.memory := rfl
@[simp] theorem pc_withReg : (g.withReg r v).pc = g.pc := rfl
@[simp] theorem reg_withReg : (g.withReg r v).reg q = if q = r then v else g.reg q := rfl
@[simp] theorem codes_withReg : (g.withReg r v).codes = g.codes := rfl
@[simp] theorem memory_withReg : (g.withReg r v).memory = g.memory := rfl
@[simp] theorem pc_withCodes : (g.withCodes codes).pc = g.pc := rfl
@[simp] theorem reg_withCodes : (g.withCodes codes).reg r = g.reg r := rfl
@[simp] theorem codes_withCodes : (g.withCodes codes).codes = codes := rfl
@[simp] theorem memory_withCodes : (g.withCodes codes).memory = g.memory := rfl
@[simp] theorem pc_putLong : (g.putLong a v).pc = g.pc := rfl
@[simp] theorem reg_putLong : (g.putLong a v).reg r = g.reg r := rfl
@[simp] theorem codes_putLong : (g.putLong a v).codes = g.codes := rfl
@[simp] theorem memory_putLong : (g.putLong a v).memory = g.memory.putLong a v := rfl

end Guest

/-- The machine state `s` is seen as `g`. -/
structure Shows (s : CPUState BaseMemory) (g : Guest) : Prop where
  pc : s.reg regPC = BitVec.ofNat 32 g.pc
  reg : ∀ r < 16, s.reg r = g.reg r
  codes : s.codes = g.codes
  memory : s.memory = g.memory

/-- The guest state that a machine state is seen as. -/
def CPUState.guest (s : CPUState BaseMemory) : Guest :=
  ⟨(s.reg regPC).toNat, s.reg, s.codes, s.memory⟩

/-- A computation in terms of guest states. -/
abbrev Does {α : Type} (x : CpuM BaseMemory α) (g : Guest) (a : α) (g' : Guest) : Prop :=
  Turns Shows x g a g'

/-! ### The calls on the members -/

section Members

variable {g : Guest} {r : ℕ} {v : BitVec 32} {size : DataSize}

theorem does_getReg (h : r < 16) : Does (getReg r .long) g (g.reg r) g := by
  intro s hs
  rw [getReg_long (named_of_lt h), hs.reg r h]
  exact ⟨s, rfl, hs⟩

theorem does_getPC : Does (getReg regPC .long) g (BitVec.ofNat 32 g.pc) g := by
  intro s hs
  rw [getReg_long named_regPC, hs.pc]
  exact ⟨s, rfl, hs⟩

theorem codes_withReg {s : CPUState BaseMemory} (h : Named r) :
    (s.withReg r v).codes = s.codes := by
  unfold CPUState.codes
  simp only [getFlag_eq_getLsbD, CPUState.status_withReg h]

theorem does_setReg (h : r < 16) : Does (setReg r .long v) g () (g.withReg r v) := by
  intro s hs
  have hn : Named r := named_of_lt h
  refine ⟨_, setReg_long hn, ?_, fun q hq => ?_, ?_, hs.memory⟩
  · rw [CPUState.reg_withReg_of_ne hn named_regPC (ne_regPC_of_lt h).symm, hs.pc]
    rfl
  · rw [CPUState.reg_withReg hn (named_of_lt hq), hs.reg q hq]
    rfl
  · rw [codes_withReg hn, hs.codes]
    rfl

theorem does_setPC {n : ℕ} (h : v = BitVec.ofNat 32 n) :
    Does (setReg regPC .long v) g () (g.goto n) := by
  subst h
  intro s hs
  refine ⟨_, setReg_long named_regPC, CPUState.reg_withReg_self named_regPC, fun q hq => ?_,
    ?_, hs.memory⟩
  · rw [CPUState.reg_withReg_of_ne named_regPC (named_of_lt hq) (ne_regPC_of_lt hq), hs.reg q hq]
    rfl
  · rw [codes_withReg named_regPC, hs.codes]
    rfl

theorem does_memGet {addr : BitVec 32} (h : g.memory.Accessible addr size) :
    Does (memGet addr size) g (g.memory.read addr size) g := by
  intro s hs
  rw [← hs.memory] at h ⊢
  exact ⟨s, memGet_of_accessible h, hs⟩

/-- A long word is read at its masked address. -/
theorem does_memGet_long {addr : BitVec 32} {a : ℕ} (ha : Points addr a) (h : g.memory.Room a) :
    Does (memGet addr .long) g (g.memory.long a) g := by
  subst ha
  exact does_memGet ⟨.inr h.1, h.2⟩

theorem does_memSet_long {addr : BitVec 32} {a : ℕ} (ha : Points addr a) (h : g.memory.Room a) :
    Does (memSet addr .long v) g () (g.putLong a v) := by
  intro s hs
  have hacc : s.memory.Accessible addr .long := by
    subst ha
    rw [hs.memory]
    exact ⟨.inr h.1, h.2⟩
  refine ⟨_, memSet_of_accessible hacc, hs.pc, hs.reg, hs.codes, ?_⟩
  subst ha
  rw [CPUState.stored, hs.memory]
  rfl

/-- The codes after an assignment to one flag. -/
def assignCode (codes : Codes) (b : Bool) : StatusRegisterFlag → Codes
  | .negative => { codes with n := b }
  | .zero => { codes with z := b }
  | .overflow => { codes with v := b }
  | .carry => { codes with c := b }
  | _ => codes

theorem does_setFlag {flag : StatusRegisterFlag} (h : flag.bit < 5) (b : Bool) :
    Does (setFlag flag b) g () (g.withCodes (assignCode g.codes b flag)) := by
  intro s hs
  refine ⟨_, setFlag_apply flag b, ?_, fun q hq => ?_, ?_, hs.memory⟩
  · rw [CPUState.reg_withFlag h named_regPC, hs.pc]
    rfl
  · rw [CPUState.reg_withFlag h (named_of_lt hq), hs.reg q hq]
    rfl
  · rw [Guest.codes_withCodes, ← hs.codes]
    unfold CPUState.codes CPUState.withFlag
    simp only [getFlag_setFlag]
    cases flag <;> simp [assignCode]

theorem does_checkCondition {cond : Condition} {cmp : Comparison} (h : cond.comparison = some cmp) :
    Does (CPUState.checkCondition cond) g (cmp.answer g.codes) g := by
  intro s hs
  rw [checkCondition_apply h, hs.codes]
  exact ⟨s, rfl, hs⟩

end Members

end M68kEmu
