import M68kEmu.Frame.Parts
import M68kEmu.Frame.Phases

/-!
# What the accessors consume

`getData`, `setData` and `getControlAddress` consume their operand on every mode they are called
with; `getDataSilent`, the flags and the stack accessors consume nothing (the stack pointer apart).
-/

namespace M68kEmu

open Outcome

/-! ### The index register -/

theorem getRegisterType_lt (partMode part : BitVec 16) :
    getRegisterType partMode (part &&& 0x7) < 16 := by
  have h : (part &&& 0x7).toNat ≤ 7 := by
    rw [BitVec.toNat_and]
    exact Nat.and_le_right
  rw [getRegisterType]
  split_ifs <;> omega

theorem extReg_lt (extWord : BitVec 32) : extReg extWord < 16 := getRegisterType_lt _ _

theorem extRegSize_cases (extWord : BitVec 32) :
    extRegSize extWord = .word ∨ extRegSize extWord = .long := by
  rw [extRegSize]
  split_ifs
  · exact .inr rfl
  · exact .inl rfl

/-- The offset that an extension word adds through its index register. -/
def CPUState.extOffset {M : Type} (s : CPUState M) (extWord : BitVec 32) : BitVec 32 :=
  if extRegSize extWord = .word then castInt16 (Registers.sized (s.reg (extReg extWord)) .word)
  else s.reg (extReg extWord)

@[simp] theorem getExtRegOffset_apply {M : Type} (s : CPUState M) (extWord : BitVec 32) :
    getExtRegOffset extWord s = .ok (s.extOffset extWord) s := by
  rw [getExtRegOffset, bind_of_ok (getReg_apply (named_of_lt (extReg_lt extWord)) _),
    CPUState.extOffset]
  obtain h | h := extRegSize_cases extWord <;> simp [h, Registers.sized]

/-! ### Primitives -/

section Primitives

variable {F : ℕ → Prop}

theorem eq_of_getReg_eq_ok {M : Type} {r : ℕ} {size : DataSize} {s t : CPUState M} {v : BitVec 32}
    (h : getReg r size s = .ok v t) : t = s := by
  simp only [getReg] at h
  split at h <;> cases h
  rfl

theorem eq_of_getReg_eq_error {M : Type} {r : ℕ} {size : DataSize} {s t : CPUState M} {e : Fault}
    (h : getReg r size s = .error e t) : t = s := by
  simp only [getReg] at h
  split at h <;> cases h
  rfl

theorem consumes_getReg (r : ℕ) (size : DataSize) : Consumes F [] (getReg r size) := by
  intro s v t h
  rw [eq_of_getReg_eq_ok h]
  exact .refl s

theorem consumes_getFlag (flag : StatusRegisterFlag) : Consumes F [] (getFlag flag) := by
  rintro s v t h
  cases h
  exact .refl s

theorem consumes_setFlag {flag : StatusRegisterFlag} (hf : flag.bit < 5) (b : Bool) :
    Consumes F [] (setFlag flag b) := by
  refine .of_kept fun s _ t h => ?_
  rw [setFlag_apply] at h
  cases h
  exact ⟨fun r hr _ => CPUState.reg_withFlag hf hr, rfl⟩

theorem consumes_setReg {r : ℕ} (h : Named r) (hF : F r) (size : DataSize) (v : BitVec 32) :
    Consumes F [] (setReg r size v) := by
  refine .of_kept fun s _ t hs => ?_
  rw [setReg_apply h] at hs
  cases hs
  exact ⟨fun q hq hq' => CPUState.reg_withReg_of_ne h hq fun hqr => hq' (hqr ▸ hF), rfl⟩

theorem consumes_memGet (addr : BitVec 32) (size : DataSize) :
    Consumes F [] (memGet addr size) := by
  intro s v t h
  obtain ⟨-, -, rfl⟩ := memGet_eq_ok.1 h
  exact .refl s

theorem consumes_getExtRegOffset (extWord : BitVec 32) : Consumes F [] (getExtRegOffset extWord) :=
  .bind (consumes_getReg _ _) fun _ => .pure _

theorem consumes_memSet (addr : BitVec 32) (size : DataSize) (data : BitVec 32) :
    Consumes F [] (memSet addr size data) := by
  refine .of_kept fun s _ t h => ?_
  obtain ⟨-, rfl⟩ := memSet_eq_ok.1 h
  exact ⟨fun _ _ _ => rfl, rfl⟩

end Primitives

/-! ### One operand -/

section Operand

variable {F : ℕ → Prop} {mode : AddressingMode} {reg : ℕ} {size e : DataSize}
    {s t : CPUState BaseMemory}

theorem baseStep_of_not_movesBase (h : ¬MovesBase mode) : baseStep mode reg size = 0 := by
  cases mode <;> simp [MovesBase] at h <;> rfl

theorem extSize_of_movesBase (h : MovesBase mode) : extSize mode size = none := by
  obtain rfl | rfl := h <;> rfl

theorem incremented_eq (addr : BitVec 32) :
    incremented reg size addr = addr + baseStep .indirectPostincrement reg size := by
  simp only [incremented, baseStep]
  split_ifs <;> simp [BitVec.add_assoc]

theorem decremented_eq (addr : BitVec 32) :
    decremented reg size addr = addr + baseStep .indirectPredecrement reg size := by
  simp only [decremented, baseStep]
  split_ifs <;> simp [BitVec.sub_eq_add_neg, BitVec.add_assoc]

/-- An operand without extension words whose mode leaves the base register alone. -/
theorem Consumed.plain (he : extSize mode size = none) (hb : ¬MovesBase mode) :
    Consumed F [.operand mode reg size] s s where
  memSize := rfl
  moved r _ _ := by simp [delta, Part.delta, Part.length, he, baseStep_of_not_movesBase hb]
  fetched _ := ⟨fun e he' => (by rw [he] at he'; cases he'), trivial⟩

/-- An operand with extension words. -/
theorem Consumed.ext (he : extSize mode size = some e) (hb : ¬MovesBase mode)
    (hacc : s.memory.Accessible (s.reg regPC) e) :
    Consumed F [.operand mode reg size] s (s.withReg regPC (s.reg regPC + e.toWord)) where
  memSize := rfl
  moved r hr _ := by
    rw [CPUState.reg_withReg named_regPC hr]
    simp only [delta, Part.delta, Part.length, he, baseStep_of_not_movesBase hb]
    split_ifs with h <;> simp [h]
  fetched _ := ⟨fun e' he' => (by rw [he] at he'; cases he'; exact hacc), trivial⟩

theorem Consumed.extWord (he : extSize mode size = some .word) (hb : ¬MovesBase mode)
    (hacc : s.memory.Accessible (s.reg regPC) .word) :
    Consumed F [.operand mode reg size] s (s.withReg regPC (s.reg regPC + 2)) := .ext he hb hacc

theorem Consumed.extLong (he : extSize mode size = some .long) (hb : ¬MovesBase mode)
    (hacc : s.memory.Accessible (s.reg regPC) .long) :
    Consumed F [.operand mode reg size] s (s.withReg regPC (s.reg regPC + 4)) := .ext he hb hacc

/-- An operand that moves its base register. -/
theorem Consumed.base (hm : MovesBase mode) (hreg : reg < 16) :
    Consumed F [.operand mode reg size] s (s.withReg reg (s.reg reg + baseStep mode reg size)) where
  memSize := rfl
  moved r hr _ := by
    have hpc : reg ≠ regPC := by simp only [regPC]; omega
    rw [CPUState.reg_withReg (named_of_lt hreg) hr]
    simp only [delta, Part.delta, Part.length, extSize_of_movesBase hm]
    by_cases h : r = reg
    · subst h
      simp [hpc]
    · by_cases h' : r = regPC <;> simp [h, h', hpc.symm]
  fetched _ := ⟨fun e he => (by rw [extSize_of_movesBase hm] at he; cases he), trivial⟩

/-- A store after the operand consumes nothing more. -/
theorem Consumed.stored {ps : List Part} {addr data : BitVec 32} (h : Consumed F ps s t) :
    Consumed F ps s (t.stored addr size data) :=
  h.congr (fun _ _ _ => rfl) rfl

end Operand

/-! ### The accessors -/

section Accessors

variable {F : ℕ → Prop} {mode : AddressingMode} {reg : ℕ} {size : DataSize}

theorem consumes_stackPop (hF : F regUSP) : Consumes F [] (CPUState.stackPop size) :=
  .bind (consumes_getReg _ _) fun _ => .bind (consumes_memGet _ _) fun _ =>
  .bind (consumes_setReg named_regUSP hF _ _) fun _ => .pure _

theorem consumes_stackPush (hF : F regUSP) (data : BitVec 32) :
    Consumes F [] (CPUState.stackPush size data) :=
  .bind (consumes_getReg _ _) fun _ => .bind (consumes_setReg named_regUSP hF _ _) fun _ =>
    consumes_memSet _ _ _

theorem consumes_checkCondition (cond : Condition) : Consumes F [] (CPUState.checkCondition cond) :=
  .bind (consumes_getFlag _) fun _ => .bind (consumes_getFlag _) fun _ =>
  .bind (consumes_getFlag _) fun _ =>
  .bind (consumes_getFlag _) fun _ => .pure _

theorem consumes_getControlAddress (hreg : reg < 16) (hmode : isControlAddr mode) :
    Consumes F [.operand mode reg size] (CPUState.getControlAddress mode reg size) := by
  have hn : Named reg := named_of_lt hreg
  intro s a t h
  cases mode <;> simp [isControlAddr] at hmode <;>
    simp [CPUState.getControlAddress, hn, -bind_pure_comp] at h
  case indirect =>
    obtain ⟨-, rfl⟩ := h
    exact .plain rfl (by decide)
  case absLong =>
    obtain ⟨hacc, -, rfl⟩ := h
    exact .extLong rfl (by decide) hacc
  all_goals
    obtain ⟨hacc, -, rfl⟩ := h
    exact .extWord rfl (by decide) hacc

theorem consumes_getData (hreg : reg < 16) :
    Consumes F [.operand mode reg size] (CPUState.getData mode reg size) := by
  have hn : Named reg := named_of_lt hreg
  intro s a t h
  cases mode <;> simp [CPUState.getData, hn, -bind_pure_comp] at h
  case directData | directAddr =>
    rw [eq_of_getReg_eq_ok h]
    exact .plain rfl (by decide)
  case indirect =>
    obtain ⟨-, -, rfl⟩ := h
    exact .plain rfl (by decide)
  case indirectPostincrement =>
    obtain ⟨-, -, rfl⟩ := h
    rw [incremented_eq]
    exact .base (by decide) hreg
  case indirectPredecrement =>
    obtain ⟨-, -, rfl⟩ := h
    rw [decremented_eq]
    exact .base (by decide) hreg
  case immediate =>
    obtain ⟨hacc, -, rfl⟩ := h
    exact .ext rfl (by decide) hacc
  case unknown =>
    obtain ⟨-, rfl⟩ := h
    exact .plain rfl (by decide)
  case absLong =>
    obtain ⟨hacc, -, -, rfl⟩ := h
    exact .extLong rfl (by decide) hacc
  all_goals
    obtain ⟨hacc, -, -, rfl⟩ := h
    exact .extWord rfl (by decide) hacc

theorem consumes_getDataSilent : Consumes F [] (CPUState.getDataSilent mode reg size) := by
  cases mode with
  | directData | directAddr => exact consumes_getReg _ _
  | indirect | indirectPostincrement | indirectPredecrement =>
    exact .bind (consumes_getReg _ _) fun _ => consumes_memGet _ _
  | indirectDisplacement =>
    exact .bind (consumes_getReg _ _) fun _ => .bind (consumes_getReg _ _) fun _ =>
      .bind (consumes_memGet _ _) fun _ => consumes_memGet _ _
  | indirectIndex =>
    exact .bind (consumes_getReg _ _) fun _ => .bind (consumes_getReg _ _) fun _ =>
      .bind (consumes_memGet _ _) fun _ => .bind (consumes_getExtRegOffset _) fun _ =>
        consumes_memGet _ _
  | pcDisplacement | absWord | absLong =>
    exact .bind (consumes_getReg _ _) fun _ => .bind (consumes_memGet _ _) fun _ =>
      consumes_memGet _ _
  | pcIndex =>
    exact .bind (consumes_getReg _ _) fun _ => .bind (consumes_memGet _ _) fun _ =>
      .bind (consumes_getExtRegOffset _) fun _ => consumes_memGet _ _
  | immediate =>
    exact .bind (consumes_getReg _ _) fun _ => .bind (consumes_memGet _ _) fun _ => .pure _
  | unknown => exact .pure _

/-- A silent read fetches the extension words of its operand. -/
theorem accessible_of_getDataSilent {e : DataSize} {s t : CPUState BaseMemory} {v : BitVec 32}
    (hreg : reg < 16) (he : extSize mode size = some e)
    (h : CPUState.getDataSilent mode reg size s = .ok v t) :
    s.memory.Accessible (s.reg regPC) e := by
  have hn : Named reg := named_of_lt hreg
  cases mode <;> cases he <;> simp [CPUState.getDataSilent, hn, -bind_pure_comp] at h <;>
    first | exact h.1 | exact h.1.1

/-- A register destination is free; a memory destination is consumed like a source. -/
theorem consumes_setData (hreg : reg < 16) (hmode : isMemoryAlterable mode)
    (hF : mode = .directData ∨ mode = .directAddr → F reg) (data : BitVec 32) :
    Consumes F [.operand mode reg size] (CPUState.setData mode reg size data) := by
  have hn : Named reg := named_of_lt hreg
  intro s u t h
  cases mode <;> simp [isMemoryAlterable] at hmode
  case directData | directAddr =>
    have hkept := consumes_setReg hn (hF (by decide)) size data s u t h
    exact (Consumed.plain rfl (by decide)).congr
      (fun r hr hr' => by simpa [delta] using hkept.moved r hr hr')
      hkept.memSize
  all_goals simp [CPUState.setData, hn, -bind_pure_comp] at h
  case indirect =>
    obtain ⟨-, rfl⟩ := h
    exact (Consumed.plain rfl (by decide)).stored
  case indirectPostincrement =>
    obtain ⟨-, rfl⟩ := h
    rw [incremented_eq]
    exact (Consumed.base (by decide) hreg).stored
  case indirectPredecrement =>
    obtain ⟨-, rfl⟩ := h
    rw [decremented_eq]
    exact (Consumed.base (by decide) hreg).stored
  case absWord =>
    obtain ⟨hacc, -, rfl⟩ := h
    exact (Consumed.extWord rfl (by decide) hacc).congr (fun r hr _ => rfl) rfl
  case absLong =>
    obtain ⟨hacc, -, rfl⟩ := h
    exact (Consumed.extLong rfl (by decide) hacc).stored
  all_goals
    obtain ⟨hacc, -, rfl⟩ := h
    exact (Consumed.extWord rfl (by decide) hacc).stored

end Accessors

end M68kEmu
