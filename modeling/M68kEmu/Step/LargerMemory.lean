import M68kEmu.Frame.Bytes
import M68kEmu.Frame.Simulation
import M68kEmu.Semantics.ShortForms

/-!
# Runs in a larger memory

`BaseMemory` rejects an access beyond the end of its buffer, and otherwise does not look at how long
the buffer is.  A run that never meets that rejection is therefore the same run over every larger
buffer that begins with the same bytes, whatever the buffer holds behind them
(`run_in_larger_memory`).
-/

namespace M68kEmu

open Outcome

/-- The rejection of an access beyond the end of a buffer. -/
def Fault.IsOutOfRange (e : Fault) : Prop :=
  ∃ address memSize, e = .addressOutOfRange address memSize

/-- The first buffer has `length` bytes; the second is at least as long, begins with them, and goes
on with the bytes of `rest`. -/
structure Extends (length : ℕ) (rest : ℕ → BitVec 8) (mem mem' : BaseMemory) : Prop where
  memSize : mem.memSize.toNat = length
  le : length ≤ mem'.memSize.toNat
  common : ∀ i < length, mem'.baseAddr i = mem.baseAddr i
  beyond : ∀ i, length ≤ i → mem'.baseAddr i = rest i

section Accesses

variable {length : ℕ} {rest : ℕ → BitVec 8} {mem mem' : BaseMemory} {address : ℕ} {size : DataSize}

/-- The checks of the two buffers agree, unless the shorter one is exceeded. -/
theorem Extends.check (h : Extends length rest mem mem') (address : ℕ) (size : DataSize) :
    (mem.check address size = .ok () ∧ mem'.check address size = .ok () ∧
      address + size.bytes ≤ length) ∨
      (mem.check address size = .error .addressOdd ∧ mem'.check address size = .error .addressOdd) ∨
      ∃ e, mem.check address size = .error e ∧ e.IsOutOfRange := by
  have hle := h.le
  have hlength := h.memSize
  rw [BaseMemory.check, BaseMemory.check]
  by_cases hodd : size ≠ .byte ∧ address % 2 ≠ 0
  · rw [if_pos hodd, if_pos hodd]
    exact .inr (.inl ⟨rfl, rfl⟩)
  · rw [if_neg hodd, if_neg hodd]
    by_cases hend : mem.memSize.toNat < address + size.bytes
    · rw [if_pos hend]
      exact .inr (.inr ⟨_, rfl, _, _, rfl⟩)
    · have hend' : ¬mem'.memSize.toNat < address + size.bytes := by omega
      rw [if_neg hend, if_neg hend']
      exact .inl ⟨rfl, rfl, by omega⟩

theorem writeRealMem_congr {bytes bytes' : ℕ → BitVec 8} {i : ℕ} (h : bytes' i = bytes i) (addr : ℕ)
    (data : BitVec 32) (size : DataSize) :
    writeRealMem bytes' addr data size i = writeRealMem bytes addr data size i := by
  cases size <;> simp only [writeRealMem, putByte, h]

theorem Extends.write (h : Extends length rest mem mem') (hend : address + size.bytes ≤ length)
    (data : BitVec 32) :
    Extends length rest { mem with baseAddr := writeRealMem mem.baseAddr address data size }
      { mem' with baseAddr := writeRealMem mem'.baseAddr address data size } where
  memSize := h.memSize
  le := h.le
  common i hi := writeRealMem_congr (h.common i hi) address data size
  beyond i hi := (writeRealMem_of_outside (.inr (hend.trans hi))).trans (h.beyond i hi)

theorem related_get_extends (length : ℕ) (rest : ℕ → BitVec 8) (address : ℕ) (size : DataSize) :
    RelatedUnless Fault.IsOutOfRange (Extends length rest) (Extends length rest)
      (Extends length rest)
      (IMemory.get address size : EStateM Fault BaseMemory _) (IMemory.get address size) := by
  intro mem mem' h
  simp only [IMemory.get, BaseMemory.get]
  obtain ⟨hcheck, hcheck', hend⟩ | ⟨hcheck, hcheck'⟩ | ⟨e, hcheck, he⟩ :=
    h.check (maskAddr address) size
  · have hread :
        readRealMem mem'.baseAddr (maskAddr address) size = readRealMem mem.baseAddr
        (maskAddr address) size :=
      readRealMem_congr fun i _ hi => h.common i (hi.trans_le hend)
    rw [hcheck, hcheck', hread]
    exact .inl (.inl ⟨_, _, _, rfl, rfl, h⟩)
  · rw [hcheck, hcheck']
    exact .inl (.inr ⟨_, _, _, rfl, rfl, h⟩)
  · rw [hcheck]
    exact .inr ⟨e, mem, rfl, he⟩

theorem related_set_extends (length : ℕ) (rest : ℕ → BitVec 8) (address : ℕ) (size : DataSize)
    (data : BitVec 32) :
    RelatedUnless Fault.IsOutOfRange (Extends length rest) (Extends length rest)
      (Extends length rest) (IMemory.set address size data : EStateM Fault BaseMemory _)
        (IMemory.set address size data) := by
  intro mem mem' h
  simp only [IMemory.set, BaseMemory.set]
  obtain ⟨hcheck, hcheck', hend⟩ | ⟨hcheck, hcheck'⟩ | ⟨e, hcheck, he⟩ :=
    h.check (maskAddr address) size
  · rw [hcheck, hcheck']
    exact .inl (.inl ⟨_, _, _, rfl, rfl, h.write hend data⟩)
  · rw [hcheck, hcheck']
    exact .inl (.inr ⟨_, _, _, rfl, rfl, h⟩)
  · rw [hcheck]
    exact .inr ⟨e, mem, rfl, he⟩

end Accesses

section Steps

variable {M M' : Type} [IMemory M] [IMemory M'] {R : M → M' → Prop} {X : Fault → Prop}

theorem relatedUnless_memGet {addr : BitVec 32} {size : DataSize}
    (h : RelatedUnless X R R R (IMemory.get addr.toNat size : EStateM Fault M _)
      (IMemory.get addr.toNat size)) :
    RelatedUnless X (Over R) (Over R) (Over R) (memGet addr size) (memGet addr size) := by
  rintro s s' ⟨hregs, hmem⟩
  rw [memGet, memGet]
  obtain (⟨v, m, m', hs, hs', hm⟩ | ⟨e, m, m', hs, hs', hm⟩) | ⟨e, m, hs, he⟩ := h _ _ hmem
  · rw [hs, hs']
    exact .inl (.inl ⟨v, _, _, rfl, rfl, hregs, hm⟩)
  · rw [hs, hs']
    exact .inl (.inr ⟨e, _, _, rfl, rfl, hregs, hm⟩)
  · rw [hs]
    exact .inr ⟨e, _, rfl, he⟩

theorem relatedUnless_memSet {addr : BitVec 32} {size : DataSize} {data : BitVec 32}
    (h : RelatedUnless X R R R (IMemory.set addr.toNat size data : EStateM Fault M _)
      (IMemory.set addr.toNat size data)) :
    RelatedUnless X (Over R) (Over R) (Over R) (memSet addr size data) (memSet addr size data) := by
  rintro s s' ⟨hregs, hmem⟩
  rw [memSet, memSet]
  obtain (⟨v, m, m', hs, hs', hm⟩ | ⟨e, m, m', hs, hs', hm⟩) | ⟨e, m, hs, he⟩ := h _ _ hmem
  · rw [hs, hs']
    exact .inl (.inl ⟨v, _, _, rfl, rfl, hregs, hm⟩)
  · rw [hs, hs']
    exact .inl (.inr ⟨e, _, _, rfl, rfl, hregs, hm⟩)
  · rw [hs]
    exact .inr ⟨e, _, rfl, he⟩

/-- Memories that answer alike up to an exception make steps that go alike up to it. -/
theorem step_simulates_unless {R : BaseMemory → M' → Prop}
    (hget : ∀ address size,
      RelatedUnless X R R R (IMemory.get address size : EStateM Fault BaseMemory _)
        (IMemory.get address size)) (hset : ∀ address size data,
      RelatedUnless X R R R (IMemory.set address size data : EStateM Fault BaseMemory _)
        (IMemory.set address size data)) :
    RelatedUnless X (Over R) (Over R) (Over R) (step : CpuM BaseMemory Unit)
      (step : CpuM M' Unit) := by
  refine executes_step.relatedUnless (fun h => ?_) (fun h => ?_) fun h => ?_
  · cases h with
    | getReg r size => exact .of_related (related_getReg (fun _ _ => id) r size)
    | getFlag flag => exact .of_related (related_getFlag (fun _ _ => id) flag)
    | memGet addr size => exact relatedUnless_memGet (hget _ size)
    | setReg _ v => exact .of_related (related_setReg (fun _ _ => id) _ _ v)
    | throw e => exact .of_related (related_throw (fun _ _ => id) e)
  · cases h with
    | memSet addr size data => exact relatedUnless_memSet (hset _ size data)
  · cases h with
    | getReg _ size => exact .of_related (related_getReg (fun _ _ => id) _ size)
    | getFlag flag => exact .of_related (related_getFlag (fun _ _ => id) flag)
    | setReg _ size v => exact .of_related (related_setReg (fun _ _ => id) _ size v)
    | setFlag _ value => exact .of_related (related_setFlag (fun _ _ => id) _ value)

end Steps

/-- The fault that a step throws from a state. -/
def faultOf {M : Type} [IMemory M] (s : CPUState M) : Option Fault :=
  match step s with
  | .ok _ _ => none
  | .error e _ => some e

theorem faultOf_of_error {M : Type} [IMemory M] {s t : CPUState M} {e : Fault}
    (h : step s = .error e t) : faultOf s = some e := by
  rw [faultOf, h]

theorem faultOf_eq {M M' : Type} [IMemory M] [IMemory M'] {Q E : CPUState M → CPUState M' → Prop}
    {s : CPUState M}
    {s' : CPUState M'} (h : SameOutcome Q E (step s) (step s')) : faultOf s' = faultOf s := by
  obtain ⟨u, t, t', hs, hs', -⟩ | ⟨e, t, t', hs, hs', -⟩ := h <;> rw [faultOf, faultOf, hs, hs']

/-- A run of any length, through steps that complete and steps that throw, none of which is rejected
for an access beyond the end of the buffer, goes the same way over every larger buffer that begins
with the same bytes: the registers and these bytes are the same at the end, the steps throw the
same, and the bytes behind are neither looked at nor changed. -/
theorem run_in_larger_memory (s : CPUState BaseMemory) (larger : BaseMemory) (n : ℕ)
    (hsize : s.memory.memSize.toNat ≤ larger.memSize.toNat)
    (hbytes : ∀ i < s.memory.memSize.toNat, larger.baseAddr i = s.memory.baseAddr i)
    (hrun : ∀ k < n, ∀ e, faultOf ((after step)^[k] s) = some e → ¬e.IsOutOfRange) :
    let t := (after step)^[n] s
    let t' := (after step)^[n] { s with memory := larger }
    t'.registers = t.registers ∧
      (∀ i, t'.memory.baseAddr i =
        if i < s.memory.memSize.toNat then t.memory.baseAddr i else larger.baseAddr i) ∧
      ∀ k < n, faultOf ((after step)^[k] { s with memory := larger }) =
      faultOf ((after step)^[k] s) := by
  intro t t'
  have hstart :
      Over (Extends s.memory.memSize.toNat larger.baseAddr) s { s with memory := larger } :=
    ⟨rfl, rfl, hsize, hbytes, fun _ _ => rfl⟩
  obtain ⟨⟨hregs, hmem⟩, hsame⟩ :=
    (step_simulates_unless (related_get_extends s.memory.memSize.toNat larger.baseAddr)
    (related_set_extends s.memory.memSize.toNat larger.baseAddr)).iterate n hstart
    fun k hk e t he => hrun k hk e (faultOf_of_error he)
  refine ⟨hregs.symm, fun i => ?_, fun k hk => faultOf_eq (hsame k hk)⟩
  split_ifs with hi
  · exact hmem.common i hi
  · exact hmem.beyond i (Nat.not_lt.1 hi)

/-- `moveq #7, D0` at the beginning of a memory of the given size. -/
def moveqIn (memSize : BitVec 32) : CPUState BaseMemory :=
  ⟨⟨fun i => [0x70, 0x07].getD i 0, memSize⟩, ⟨fun _ => 0⟩⟩

theorem moveq_in_larger_memory :
    (after step (moveqIn 4096)).registers = (after step (moveqIn 2)).registers ∧
      faultOf (moveqIn 4096) = faultOf (moveqIn 2) := by
  have hfetch : fetchOpcode (moveqIn 2) = .ok 0x7007 (moveqIn 2) := rfl
  have hrun : ∀ k < 1, ∀ e, faultOf ((after step)^[k] (moveqIn 2)) = some e → ¬e.IsOutOfRange := by
    intro k hk e he
    obtain rfl := Nat.lt_one_iff.1 hk
    rw [Function.iterate_zero_apply, faultOf, step_moveq_seven hfetch] at he
    cases he
  have hlarger : ({ moveqIn 2 with memory := (moveqIn 4096).memory } : CPUState BaseMemory) =
      moveqIn 4096 := rfl
  obtain ⟨hregs, -, hsame⟩ :=
    run_in_larger_memory (moveqIn 2) (moveqIn 4096).memory 1 (by decide) (fun _ _ => rfl) hrun
  have hfault := hsame 0 Nat.zero_lt_one
  rw [hlarger, Function.iterate_one] at hregs
  rw [hlarger, Function.iterate_zero_apply, Function.iterate_zero_apply] at hfault
  exact ⟨hregs, hfault⟩

end M68kEmu
