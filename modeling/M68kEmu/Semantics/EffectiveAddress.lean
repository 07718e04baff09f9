import M68kEmu.Frame.Bytes
import M68kEmu.Frame.Invariants

/-!
# The effective address of a control operand

`getControlAddress`, `getData` and `setData` compute the address of an operand separately.  The
loads agree with the address on every control mode.  The stores agree with it too, except on
absolute short operands, where `setData` sign-extends the extension word, which the others do not,
and advances the program counter only after the write.
-/

namespace M68kEmu

open Outcome

variable {mode : AddressingMode} {reg : ℕ} {size : DataSize} {s t : CPUState BaseMemory}
    {a : BitVec 32}

/-- The lines that read an extension word and step over it. -/
theorem fetchExt_apply {α : Type} {e : DataSize} (hacc : s.memory.Accessible (s.reg regPC) e)
    (f : BitVec 32 → BitVec 32 → CpuM BaseMemory α) :
    (getReg regPC .long >>= fun pc => memGet pc e >>= fun ext => f pc ext) s =
      f (s.reg regPC) (s.memory.read (s.reg regPC) e) s := by
  rw [bind_of_ok (getReg_long named_regPC), bind_of_ok (memGet_of_accessible hacc)]

/-- `getData` reads at the address of `getControlAddress`. -/
theorem getData_of_getControlAddress (hmode : isControlAddr mode)
    (h : CPUState.getControlAddress mode reg size s = .ok a t) :
    CPUState.getData mode reg size s = memGet a size t := by
  cases mode <;> simp [isControlAddr] at hmode <;>
    simp [CPUState.getControlAddress, -bind_pure_comp] at h
  case indirect =>
    rw [CPUState.getData, bind_of_ok h]
  case indirectDisplacement =>
    obtain ⟨addr, u, hreg, hacc, rfl, rfl⟩ := h
    rw [CPUState.getData, bind_of_ok hreg, fetchExt_apply hacc,
      bind_of_ok (setReg_long named_regPC)]
    rfl
  case indirectIndex =>
    obtain ⟨addr, u, hreg, hacc, rfl, rfl⟩ := h
    rw [CPUState.getData, bind_of_ok hreg, fetchExt_apply hacc,
      bind_of_ok (getExtRegOffset_apply _ _),
      bind_of_ok (setReg_long named_regPC), BitVec.add_assoc]
    rfl
  case pcDisplacement =>
    obtain ⟨hacc, rfl, rfl⟩ := h
    rw [CPUState.getData, fetchExt_apply hacc, bind_of_ok (setReg_long named_regPC)]
    rfl
  case pcIndex =>
    obtain ⟨hacc, rfl, rfl⟩ := h
    rw [CPUState.getData, fetchExt_apply hacc, bind_of_ok (getExtRegOffset_apply _ _),
      bind_of_ok (setReg_long named_regPC)]
    rfl
  case absWord =>
    obtain ⟨hacc, rfl, rfl⟩ := h
    rw [CPUState.getData, fetchExt_apply hacc, bind_of_ok (setReg_long named_regPC)]
    rfl
  case absLong =>
    obtain ⟨hacc, rfl, rfl⟩ := h
    rw [CPUState.getData, fetchExt_apply hacc, bind_of_ok (setReg_long named_regPC)]
    rfl

/-- `setData` writes at the address of `getControlAddress`, except in the absolute short mode. -/
theorem setData_of_getControlAddress (hmode : isControlAddr mode) (hwrite : isMemoryAlterable mode)
    (hshort : mode ≠ .absWord) (h : CPUState.getControlAddress mode reg size s = .ok a t)
    (data : BitVec 32) : CPUState.setData mode reg size data s = memSet a size data t := by
  cases mode <;> simp [isControlAddr] at hmode <;> simp [isMemoryAlterable] at hwrite <;>
    simp [CPUState.getControlAddress, -bind_pure_comp] at h
  case indirect =>
    rw [CPUState.setData, bind_of_ok h]
  case indirectDisplacement =>
    obtain ⟨addr, u, hreg, hacc, rfl, rfl⟩ := h
    rw [CPUState.setData, bind_of_ok hreg, fetchExt_apply hacc,
      bind_of_ok (setReg_long named_regPC)]
    rfl
  case indirectIndex =>
    obtain ⟨addr, u, hreg, hacc, rfl, rfl⟩ := h
    rw [CPUState.setData, bind_of_ok hreg, fetchExt_apply hacc,
      bind_of_ok (getExtRegOffset_apply _ _),
      bind_of_ok (setReg_long named_regPC), BitVec.add_assoc]
    rfl
  case absWord => exact absurd rfl hshort
  case absLong =>
    obtain ⟨hacc, rfl, rfl⟩ := h
    rw [CPUState.setData, fetchExt_apply hacc, bind_of_ok (setReg_long named_regPC)]
    rfl

/-! ### Absolute short operands -/

/-- The extension word at the program counter. -/
def CPUState.extWord (s : CPUState BaseMemory) : BitVec 32 := s.memory.read (s.reg regPC) .word

theorem extWord_lt (s : CPUState BaseMemory) : s.extWord.toNat < 0x10000 := by
  have hlt : (s.memory.read (s.reg regPC) .word).toNat < 2 ^ DataSize.word.bits := readRealMem_lt
  exact hlt

/-- A short address below `0x8000` is its own sign extension. -/
theorem castInt16_of_lt {v : BitVec 32} (h : v.toNat < 0x8000) : castInt16 v = v :=
  BitVec.eq_of_toNat_eq (by rw [toNat_castInt16 (by omega), if_pos h])

/-- The sign extension of any other short address is in the top `0x8000` bytes of the
address space. -/
theorem maskAddr_castInt16 {v : BitVec 32} (h : v.toNat < 0x10000) (h' : ¬v.toNat < 0x8000) :
    maskAddr (castInt16 v).toNat = v.toNat + 0xFF0000 := by
  rw [toNat_castInt16 h, if_neg h', maskAddr_eq_mod]
  omega

/-- Some data changes the first byte of the operand. -/
theorem exists_writeRealMem_ne (bytes : ℕ → BitVec 8) (addr : ℕ) (size : DataSize) :
    ∃ data, writeRealMem bytes addr data size addr ≠ bytes addr := by
  have hzero : writeRealMem bytes addr 0 size addr = 0 := by
    cases size <;> simp [writeRealMem, putByte, mask8]
  have hones : writeRealMem bytes addr 0xFFFFFFFF size addr = 0xFF := by
    cases size <;> simp [writeRealMem, putByte, mask8]
  by_cases h : bytes addr = 0
  · exact ⟨0xFFFFFFFF, by rw [hones, h]; decide⟩
  · exact ⟨0, by rw [hzero]; exact Ne.symm h⟩

/-- The state with the program counter after one extension word. -/
def CPUState.pastExtWord (s : CPUState BaseMemory) : CPUState BaseMemory :=
  s.withReg regPC (s.reg regPC + 2)

theorem pastExtWord_ne (s : CPUState BaseMemory) : s.pastExtWord ≠ s := by
  intro h
  have hpc := congrArg (CPUState.reg · regPC) h
  simp only [CPUState.pastExtWord, CPUState.reg_withReg_self named_regPC] at hpc
  simp at hpc

theorem setData_absWord (hacc : s.memory.Accessible (s.reg regPC) .word) (data : BitVec 32) :
    CPUState.setData .absWord reg size data s =
      (memSet (castInt16 s.extWord) size data >>= fun _ =>
        setReg regPC .long (s.reg regPC + 2)) s := by
  rw [CPUState.setData, fetchExt_apply hacc, CPUState.extWord]

theorem setData_absWord_eq_ok (hacc : s.memory.Accessible (s.reg regPC) .word) {data : BitVec 32} :
    CPUState.setData .absWord reg size data s = .ok () t ↔
      s.memory.Accessible (castInt16 s.extWord) size ∧
      s.pastExtWord.stored (castInt16 s.extWord) size data = t := by
  rw [setData_absWord hacc]
  simp
  exact fun _ => Iff.rfl

/-- The two stores of some data are different, if the address and its sign extension are. -/
theorem exists_stored_ne (size : DataSize) (h : ¬s.extWord.toNat < 0x8000) :
    ∃ data, t.stored (castInt16 s.extWord) size data ≠ t.stored s.extWord size data := by
  have hmask : maskAddr s.extWord.toNat = s.extWord.toNat := by
    have := extWord_lt s
    rw [maskAddr_eq_mod]
    omega
  have hsize : size.bytes ≤ 4 := by cases size <;> decide
  obtain ⟨data, hdata⟩ := exists_writeRealMem_ne t.memory.baseAddr (maskAddr s.extWord.toNat) size
  refine ⟨data, fun heq => hdata ?_⟩
  have hbyte := congrArg (fun u => u.memory.baseAddr (maskAddr s.extWord.toNat)) heq
  simp only [CPUState.stored, BaseMemory.write] at hbyte
  rw [← hbyte]
  refine writeRealMem_of_outside (.inl ?_)
  rw [maskAddr_castInt16 (extWord_lt s) h, hmask]
  omega

/-- The store to an absolute short operand is the write at its address, with the program
counter past the extension word, exactly when the address is positive as a 16-bit number
and the write succeeds. -/
theorem setData_absWord_eq_iff (hacc : s.memory.Accessible (s.reg regPC) .word) :
    (∀ data, CPUState.setData .absWord reg size data s = memSet s.extWord size data s.pastExtWord) ↔
      s.extWord.toNat < 0x8000 ∧ s.memory.Accessible s.extWord size := by
  constructor
  · intro h
    have hwrite : s.memory.Accessible s.extWord size := by
      by_contra hn
      obtain ⟨e, he⟩ := memSet_of_not_accessible (s := s.pastExtWord) hn 0
      have herr := h 0
      rw [he, setData_absWord hacc, bind_eq_error] at herr
      obtain herr | ⟨_, u, -, herr⟩ := herr
      · exact pastExtWord_ne s (eq_of_memSet_eq_error herr)
      · rw [setReg_long named_regPC] at herr
        cases herr
    refine ⟨?_, hwrite⟩
    by_contra hlt
    obtain ⟨data, hne⟩ := exists_stored_ne (t := s.pastExtWord) size hlt
    have hok := h data
    rw [memSet_of_accessible (s := s.pastExtWord) hwrite, setData_absWord_eq_ok hacc] at hok
    exact hne hok.2
  · rintro ⟨hlt, hwrite⟩ data
    rw [memSet_of_accessible (s := s.pastExtWord) hwrite, setData_absWord_eq_ok hacc,
      castInt16_of_lt hlt]
    exact ⟨hwrite, rfl⟩

/-- When stores that throw are not compared, the condition is that the address is positive as a
16-bit number, or that neither write succeeds. -/
theorem setData_absWord_eq_ok_iff (hacc : s.memory.Accessible (s.reg regPC) .word) :
    (∀ data u, CPUState.setData .absWord reg size data s = .ok () u ↔
      memSet s.extWord size data s.pastExtWord = .ok () u) ↔ s.extWord.toNat < 0x8000 ∨
        ¬s.memory.Accessible s.extWord size ∧ ¬s.memory.Accessible (castInt16 s.extWord) size := by
  simp only [setData_absWord_eq_ok hacc, memSet_eq_ok]
  constructor
  · intro h
    by_contra hn
    obtain ⟨hlt, hacc'⟩ := not_or.1 hn
    obtain ⟨data, hne⟩ := exists_stored_ne (t := s.pastExtWord) size hlt
    have hwrite : s.memory.Accessible s.extWord size := by
      by_contra hw
      have hcast : s.memory.Accessible (castInt16 s.extWord) size := by
        by_contra hc
        exact hacc' ⟨hw, hc⟩
      exact hw ((h data _).1 ⟨hcast, rfl⟩).1
    exact hne ((h data _).2 ⟨hwrite, rfl⟩).2
  · rintro (hlt | ⟨hn, hn'⟩) data u
    · rw [castInt16_of_lt hlt]
      rfl
    · exact iff_of_false (fun h => hn' h.1) fun h => hn h.1

/-! ### All modes -/

/-- `getControlAddress` in the absolute short mode. -/
theorem getControlAddress_absWord (h : CPUState.getControlAddress .absWord reg size s = .ok a t) :
    s.memory.Accessible (s.reg regPC) .word ∧ a = s.extWord ∧ t = s.pastExtWord := by
  simp [CPUState.getControlAddress, -bind_pure_comp] at h
  exact ⟨h.1, h.2.1.symm, h.2.2.symm⟩

/-- The accessors designate one location.  `getControlAddress` returns an address `a` and changes
the program counter only.  From the state `t` that it leaves, `getData` is the read at `a`; and
`setData` is the write at `a`, unless the operand is absolute short and its extension word negative
or its write failing. -/
theorem accessors_agree_iff (hmode : isControlAddr mode)
    (h : CPUState.getControlAddress mode reg size s = .ok a t) :
    SameButPc s t ∧ CPUState.getData mode reg size s = memGet a size t ∧
    (isMemoryAlterable mode →
      ((∀ data, CPUState.setData mode reg size data s = memSet a size data t) ↔
        (mode = .absWord → s.extWord.toNat < 0x8000 ∧ s.memory.Accessible s.extWord size)) ∧
      ((∀ data u, CPUState.setData mode reg size data s = .ok () u ↔
        memSet a size data t = .ok () u) ↔
          (mode = .absWord → s.extWord.toNat < 0x8000 ∨ ¬s.memory.Accessible s.extWord size ∧
          ¬s.memory.Accessible (castInt16 s.extWord) size))) := by
  have hframe : SameButPc s (after (CPUState.getControlAddress mode reg size) s) :=
    sameButPc_of_reads (reads_getControlAddress onlyPc_regPC size) s
  rw [after_of_ok h] at hframe
  refine ⟨hframe, getData_of_getControlAddress hmode h, fun hwrite => ?_⟩
  by_cases hshort : mode = .absWord
  · subst hshort
    obtain ⟨hacc, rfl, rfl⟩ := getControlAddress_absWord h
    rw [setData_absWord_eq_iff hacc, setData_absWord_eq_ok_iff hacc]
    simp
  · have hset := setData_of_getControlAddress hmode hwrite hshort h
    exact ⟨iff_of_true hset fun h' => absurd h' hshort,
      iff_of_true (fun data u => by rw [hset]) fun h' => absurd h' hshort⟩

/-- The address of the operand `$8000.w` is `0x8000`, but a store to it writes at `0xFF8000`. -/
theorem absolute_short_store_misses :
    let s := CPUState.simple [0x80, 0x00] fun _ => 0
    CPUState.getControlAddress .absWord regD0 .byte s = .ok 0x8000 s.pastExtWord ∧
      CPUState.setData .absWord regD0 .byte 1 s ≠ memSet 0x8000 .byte 1 s.pastExtWord ∧
      (after (CPUState.setData .absWord regD0 .byte 1) s).memory.baseAddr 0x8000 = 0 ∧
      (after (CPUState.setData .absWord regD0 .byte 1) s).memory.baseAddr 0xFF8000 = 1 := by
  refine ⟨rfl, fun h => ?_, by decide, by decide⟩
  have hbyte := congrArg (fun r => match r with
    | .ok _ t => t.memory.baseAddr 0x8000
    | .error _ t => t.memory.baseAddr 0x8000) h
  revert hbyte
  decide

/-- The agreement at an operand `$7FFE.w`. -/
theorem accessors_agree_absolute_short :
    let s := CPUState.simple [0x7F, 0xFE] fun _ => 0
    ∀ data, CPUState.setData .absWord regD0 .word data s = memSet 0x7FFE .word data s.pastExtWord :=
  ((accessors_agree_iff rfl rfl).2.2 rfl).1.2 fun _ => by decide

end M68kEmu
