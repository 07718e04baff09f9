import M68kEmu.Frame.Registers

/-!
# Accesses to `BaseMemory`

An access is `Accessible` if it passes the two checks of `BaseMemory`, which look at the masked
address and at the length of the buffer only.  The memory primitives then do what `read` and `write`
say, and otherwise change nothing.
-/

namespace M68kEmu

namespace BaseMemory

/-- The access is aligned and inside the buffer. -/
def Accessible (mem : BaseMemory) (addr : BitVec 32) (size : DataSize) : Prop :=
  (size = .byte ∨ maskAddr addr.toNat % 2 = 0) ∧ maskAddr addr.toNat + size.bytes ≤
    mem.memSize.toNat

instance (mem : BaseMemory) (addr : BitVec 32) (size : DataSize) :
    Decidable (mem.Accessible addr size) :=
  inferInstanceAs (Decidable (_ ∧ _))

/-- The value that a successful read returns. -/
def read (mem : BaseMemory) (addr : BitVec 32) (size : DataSize) : BitVec 32 :=
  readRealMem mem.baseAddr (maskAddr addr.toNat) size

/-- The memory that a successful write leaves. -/
def write (mem : BaseMemory) (addr : BitVec 32) (size : DataSize) (data : BitVec 32) : BaseMemory :=
  { mem with baseAddr := writeRealMem mem.baseAddr (maskAddr addr.toNat) data size }

variable {mem mem' : BaseMemory} {addr : BitVec 32} {size : DataSize} {data : BitVec 32}

@[simp] theorem memSize_write : (mem.write addr size data).memSize = mem.memSize := rfl

theorem accessible_congr (h : mem.memSize = mem'.memSize) :
    mem.Accessible addr size ↔ mem'.Accessible addr size := by
  rw [Accessible, Accessible, h]

theorem check_of_accessible (h : mem.Accessible addr size) :
    mem.check (maskAddr addr.toNat) size = .ok () := by
  have h₁ : ¬(size ≠ .byte ∧ maskAddr addr.toNat % 2 ≠ 0) := fun h' => h.1.elim h'.1 h'.2
  rw [check, if_neg h₁, if_neg (Nat.not_lt.2 h.2)]

theorem check_of_not_accessible (h : ¬mem.Accessible addr size) :
    ∃ e, mem.check (maskAddr addr.toNat) size = .error e := by
  rw [check]
  split_ifs with h₁ h₂
  · exact ⟨_, rfl⟩
  · exact ⟨_, rfl⟩
  · refine absurd ⟨?_, Nat.not_lt.1 h₂⟩ h
    by_contra h'
    exact h₁ (not_or.1 h')

end BaseMemory

/-! ### The memory primitives -/

section Primitives

variable {s t : CPUState BaseMemory} {addr v : BitVec 32} {size : DataSize}
    {data : BitVec 32} {e : Fault}

/-- The state with its memory written. -/
def CPUState.stored (s : CPUState BaseMemory) (addr : BitVec 32) (size : DataSize)
    (data : BitVec 32) : CPUState BaseMemory :=
  { s with memory := s.memory.write addr size data }

@[simp] theorem CPUState.reg_stored {r : ℕ} : (s.stored addr size data).reg r = s.reg r := rfl

theorem memGet_of_accessible (h : s.memory.Accessible addr size) :
    memGet addr size s = .ok (s.memory.read addr size) s := by
  simp only [memGet, IMemory.get, BaseMemory.get, BaseMemory.check_of_accessible h, BaseMemory.read]

theorem memGet_of_not_accessible (h : ¬s.memory.Accessible addr size) :
    ∃ e, memGet addr size s = .error e s := by
  obtain ⟨e, he⟩ := BaseMemory.check_of_not_accessible h
  exact ⟨e, by simp only [memGet, IMemory.get, BaseMemory.get, he]⟩

@[simp] theorem memGet_eq_ok :
    memGet addr size s = .ok v t ↔
    s.memory.Accessible addr size ∧ s.memory.read addr size = v ∧ s = t := by
  by_cases h : s.memory.Accessible addr size
  · rw [memGet_of_accessible h]
    simp [h]
  · obtain ⟨e, he⟩ := memGet_of_not_accessible h
    rw [he]
    simp [h]

theorem eq_of_memGet_eq_error (h : memGet addr size s = .error e t) : t = s := by
  by_cases hacc : s.memory.Accessible addr size
  · rw [memGet_of_accessible hacc] at h
    cases h
  · obtain ⟨e', he⟩ := memGet_of_not_accessible hacc
    rw [he] at h
    cases h
    rfl

theorem memSet_of_accessible (h : s.memory.Accessible addr size) :
    memSet addr size data s = .ok () (s.stored addr size data) := by
  simp only [memSet, IMemory.set, BaseMemory.set, BaseMemory.check_of_accessible h, CPUState.stored,
    BaseMemory.write]

theorem memSet_of_not_accessible (h : ¬s.memory.Accessible addr size) (data : BitVec 32) :
    ∃ e, memSet addr size data s = .error e s := by
  obtain ⟨e, he⟩ := BaseMemory.check_of_not_accessible h
  exact ⟨e, by simp only [memSet, IMemory.set, BaseMemory.set, he]⟩

@[simp] theorem memSet_eq_ok {u : Unit} :
    memSet addr size data s = .ok u t ↔
    s.memory.Accessible addr size ∧ s.stored addr size data = t := by
  by_cases h : s.memory.Accessible addr size
  · rw [memSet_of_accessible h]
    simp [h]
  · obtain ⟨e, he⟩ := memSet_of_not_accessible h data
    rw [he]
    simp [h]

theorem eq_of_memSet_eq_error (h : memSet addr size data s = .error e t) : t = s := by
  by_cases hacc : s.memory.Accessible addr size
  · rw [memSet_of_accessible hacc] at h
    cases h
  · obtain ⟨e', he⟩ := memSet_of_not_accessible hacc data
    rw [he] at h
    cases h
    rfl

end Primitives

end M68kEmu
