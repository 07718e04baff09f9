import M68kEmu.Listing.Effect

/-!
# Operands that can be accessed

If every operand of an object can be accessed, `execute` returns (`execute_returns`); if one cannot,
it throws (`execute_throws`).
-/

namespace M68kEmu

open Outcome

/-! ### One operand -/

section Accessors

variable {mode : AddressingMode} {reg : ℕ} {size : DataSize} {s : CPUState BaseMemory}
    {a : BitVec 32}

/-- The value of an operand that can be read. -/
def CPUState.datum (s : CPUState BaseMemory) (mode : AddressingMode) (reg : ℕ) (size : DataSize) :
    BitVec 32 :=
  match mode with
  | .directData | .directAddr => Registers.sized (s.reg reg) size
  | .immediate =>
    let memorySize : DataSize := if size = .long then .long else .word
    if size = .byte then mask8 (s.fetched memorySize) else s.fetched memorySize
  | mode =>
    match dataAddress .get mode reg size s with
    | some a => s.memory.read a size
    | none => 0

/-- `getData` returns the value and moves the operand. -/
theorem getData_eq (hreg : reg < 16)
    (hfetch : (Part.operand mode reg size).Fetchable s.memory (s.reg regPC))
    (hacc : ∀ a ∈ dataAddress .get mode reg size s, s.memory.Accessible a size) :
    CPUState.getData mode reg size s = .ok (s.datum mode reg size) (s.advanced mode reg size) := by
  have hn : Named reg := named_of_lt hreg
  cases mode with
  | directData | directAddr => exact getReg_apply hn size
  | indirect =>
    rw [CPUState.getData, bind_of_ok (getReg_long hn)]; exact memGet_of_accessible (hacc _ rfl)
  | indirectPostincrement =>
    rw [getData_postincrement hn (hacc _ rfl), incremented_eq]
    rfl
  | indirectPredecrement =>
    rw [getData_predecrement hn (hacc _ rfl)]
    exact congrArg (fun v => EStateM.Result.ok _ (s.withReg reg v)) (decremented_eq _)
  | indirectDisplacement =>
    rw [CPUState.getData, bind_of_ok (getReg_long hn), fetchExt_apply (hfetch .word rfl),
      bind_of_ok (setReg_long named_regPC)]
    exact memGet_of_accessible (hacc _ rfl)
  | indirectIndex =>
    rw [CPUState.getData, bind_of_ok (getReg_long hn), fetchExt_apply (hfetch .word rfl),
      bind_of_ok (getExtRegOffset_apply _ _), bind_of_ok (setReg_long named_regPC)]
    exact memGet_of_accessible (hacc _ rfl)
  | pcDisplacement | absWord =>
    rw [CPUState.getData, fetchExt_apply (hfetch .word rfl), bind_of_ok (setReg_long named_regPC)]
    exact memGet_of_accessible (hacc _ rfl)
  | absLong =>
    rw [CPUState.getData, fetchExt_apply (hfetch .long rfl), bind_of_ok (setReg_long named_regPC)]
    exact memGet_of_accessible (hacc _ rfl)
  | pcIndex =>
    rw [CPUState.getData, fetchExt_apply (hfetch .word rfl), bind_of_ok (getExtRegOffset_apply _ _),
      bind_of_ok (setReg_long named_regPC)]
    exact memGet_of_accessible (hacc _ rfl)
  | immediate =>
    rw [CPUState.getData, fetchExt_apply (hfetch _ rfl), bind_of_ok (setReg_long named_regPC)]
    cases size <;> rfl
  | unknown => rfl

/-- An operand of an index mode is in memory. -/
theorem datum_index (s : CPUState BaseMemory) (reg : ℕ) (size : DataSize)
    (hmode : mode = .indirectIndex ∨ mode = .pcIndex) :
    ∃ a ∈ dataAddress .get mode reg size s, s.datum mode reg size = s.memory.read a size := by
  obtain rfl | rfl := hmode <;> exact ⟨_, rfl, rfl⟩

/-- `getDataSilent` returns, and changes nothing. -/
theorem getDataSilent_returns (hreg : reg < 16)
    (hfetch : (Part.operand mode reg size).Fetchable s.memory (s.reg regPC))
    (hacc : ∀ a ∈ dataAddress .getSilent mode reg size s, s.memory.Accessible a size) :
    ∃ v, CPUState.getDataSilent mode reg size s = .ok v s := by
  have hn : Named reg := named_of_lt hreg
  cases mode with
  | directData | directAddr => exact ⟨_, getReg_apply hn size⟩
  | indirect | indirectPostincrement | indirectPredecrement =>
    rw [CPUState.getDataSilent, bind_of_ok (getReg_long hn)]
    exact ⟨_, memGet_of_accessible (hacc _ rfl)⟩
  | indirectDisplacement =>
    rw [CPUState.getDataSilent, bind_of_ok (getReg_long hn), fetchExt_apply (hfetch .word rfl)]
    exact ⟨_, memGet_of_accessible (hacc _ rfl)⟩
  | indirectIndex =>
    rw [CPUState.getDataSilent, bind_of_ok (getReg_long hn), fetchExt_apply (hfetch .word rfl),
      bind_of_ok (getExtRegOffset_apply _ _)]
    exact ⟨_, memGet_of_accessible (hacc _ rfl)⟩
  | pcDisplacement | absWord =>
    rw [CPUState.getDataSilent, fetchExt_apply (hfetch .word rfl)]
    exact ⟨_, memGet_of_accessible (hacc _ rfl)⟩
  | absLong =>
    rw [CPUState.getDataSilent, fetchExt_apply (hfetch .long rfl)]
    exact ⟨_, memGet_of_accessible (hacc _ rfl)⟩
  | pcIndex =>
    rw [CPUState.getDataSilent, fetchExt_apply (hfetch .word rfl),
      bind_of_ok (getExtRegOffset_apply _ _)]
    exact ⟨_, memGet_of_accessible (hacc _ rfl)⟩
  | immediate =>
    rw [CPUState.getDataSilent, fetchExt_apply (hfetch _ rfl)]
    exact ⟨_, rfl⟩
  | unknown => exact ⟨0, rfl⟩

/-- `setData` returns. -/
theorem setData_returns (hreg : reg < 16)
    (hfetch : (Part.operand mode reg size).Fetchable s.memory (s.reg regPC))
    (hacc : ∀ a ∈ dataAddress .getSilent mode reg size s, s.memory.Accessible a size)
    (data : BitVec 32) : ∃ t, CPUState.setData mode reg size data s = .ok () t := by
  by_cases hmode : isMemoryAlterable mode
  · refine ⟨_, (setData_eq_ok hreg hmode).2 ⟨hfetch, ?_, rfl⟩⟩
    cases mode with
    | directData | directAddr => exact named_of_lt hreg
    | pcDisplacement | pcIndex | immediate | unknown => cases hmode
    | _ => exact hacc _ rfl
  · cases mode with
    | pcDisplacement | pcIndex | immediate | unknown => exact ⟨s, rfl⟩
    | _ => exact absurd rfl hmode

/-- An index operand out of reach. -/
theorem index_throws (hreg : reg < 16) (hmode : mode = .indirectIndex ∨ mode = .pcIndex)
    (hfetch : s.memory.Accessible (s.reg regPC) .word)
    (hacc : ∃ a ∈ dataAddress .getSilent mode reg size s, ¬s.memory.Accessible a size) :
    (∃ e t, CPUState.getData mode reg size s = .error e t) ∧
      (∃ e t, CPUState.getDataSilent mode reg size s = .error e t) ∧
      (mode = .indirectIndex → ∀ data, ∃ e t, CPUState.setData mode reg size data s =
        .error e t) := by
  have hn : Named reg := named_of_lt hreg
  obtain ⟨a, ha, hacc⟩ := hacc
  obtain ⟨e, he⟩ := memGet_of_not_accessible hacc
  obtain ⟨e', he'⟩ := memGet_of_not_accessible (s := s.withReg regPC (s.reg regPC + 2)) hacc
  obtain rfl | rfl := hmode <;> obtain rfl := Option.some.inj ha
  · refine ⟨⟨e', s.withReg regPC (s.reg regPC + 2), ?_⟩, ⟨e, s, ?_⟩, fun _ data => ?_⟩
    · rw [CPUState.getData, bind_of_ok (getReg_long hn), fetchExt_apply hfetch,
        bind_of_ok (getExtRegOffset_apply _ _), bind_of_ok (setReg_long named_regPC)]
      exact he'
    · rw [CPUState.getDataSilent, bind_of_ok (getReg_long hn), fetchExt_apply hfetch,
        bind_of_ok (getExtRegOffset_apply _ _)]
      exact he
    · obtain ⟨e'', he''⟩ :=
        memSet_of_not_accessible (s := s.withReg regPC (s.reg regPC + 2)) hacc data
      refine ⟨e'', s.withReg regPC (s.reg regPC + 2), ?_⟩
      rw [CPUState.setData, bind_of_ok (getReg_long hn), fetchExt_apply hfetch,
        bind_of_ok (getExtRegOffset_apply _ _), bind_of_ok (setReg_long named_regPC)]
      exact he''
  · refine ⟨⟨e', s.withReg regPC (s.reg regPC + 2), ?_⟩, ⟨e, s, ?_⟩, fun h => by cases h⟩
    · rw [CPUState.getData, fetchExt_apply hfetch, bind_of_ok (getExtRegOffset_apply _ _),
        bind_of_ok (setReg_long named_regPC)]
      exact he'
    · rw [CPUState.getDataSilent, fetchExt_apply hfetch, bind_of_ok (getExtRegOffset_apply _ _)]
      exact he

end Accessors

/-! ### The operands of an object -/

namespace Operand

/-- The address that the accessors of the operand read or write. -/
def target (o : Operand) (s : CPUState BaseMemory) : Option (BitVec 32) :=
  dataAddress (if o.use = .get then .get else .getSilent) o.mode o.reg o.size s

/-- The accessors of the operand return. -/
structure Usable (o : Operand) (s : CPUState BaseMemory) : Prop where
  fetchable : o.part.Fetchable s.memory (s.reg regPC)
  accessible : ∀ a ∈ o.target s, s.memory.Accessible a o.size

/-- The operand is one of an index mode, and out of reach. -/
structure OutOfReach (o : Operand) (s : CPUState BaseMemory) : Prop where
  mode : o.mode = .indirectIndex ∨ o.mode = .pcIndex
  fetchable : s.memory.Accessible (s.reg regPC) .word
  accessible : ∃ a ∈ dataAddress .getSilent o.mode o.reg o.size s, ¬s.memory.Accessible a o.size

end Operand

/-- All operands can be accessed, one after the other. -/
def AllUsable : List Operand → CPUState BaseMemory → Prop
  | [], _ => True
  | o :: os, s => o.Usable s ∧ (o.use = .get → AllUsable os (s.advanced o.mode o.reg o.size))

/-- An operand is out of reach, and those before it are read. -/
def Blocked : List Operand → CPUState BaseMemory → Prop
  | [], _ => False
  | o :: os, s => o.OutOfReach s ∧ (o.use = .address → o.mode = .indirectIndex) ∨
    o.Usable s ∧ o.use = .get ∧ Blocked os (s.advanced o.mode o.reg o.size)

section Operands

variable {o : Operand} {os : List Operand} {s t : CPUState BaseMemory}

theorem Operand.Usable.getData (h : o.Usable s) (hreg : o.reg < 16) (huse : o.use = .get) :
    CPUState.getData o.mode o.reg o.size s = .ok (s.datum o.mode o.reg o.size)
      (s.advanced o.mode o.reg o.size) := by
  have hacc := h.accessible
  rw [Operand.target, if_pos huse] at hacc
  exact getData_eq hreg h.fetchable hacc

theorem Operand.Usable.setData (h : o.Usable s) (hreg : o.reg < 16) (huse : o.use ≠ .get)
    (data : BitVec 32) : ∃ t, CPUState.setData o.mode o.reg o.size data s = .ok () t := by
  have hacc := h.accessible
  rw [Operand.target, if_neg huse] at hacc
  exact setData_returns hreg h.fetchable hacc data

theorem Operand.Usable.getDataSilent (h : o.Usable s) (hreg : o.reg < 16) (huse : o.use ≠ .get) :
    ∃ v, CPUState.getDataSilent o.mode o.reg o.size s = .ok v s := by
  have hacc := h.accessible
  rw [Operand.target, if_neg huse] at hacc
  exact getDataSilent_returns hreg h.fetchable hacc

/-- Operands that can be accessed: every outcome is a return. -/
theorem operandRules_usable :
    OperandRules (fun os => Diag (AllUsable os)) (Diag fun _ => True) (Diag fun _ => False) where
  getData := by
    rintro o os hreg huse s _ ⟨rfl, husable, hrest⟩
    exact .inl ⟨_, _, _, husable.getData hreg huse, husable.getData hreg huse, rfl, hrest huse⟩
  getDataSilent := by
    rintro o os hreg huse s _ ⟨rfl, h⟩
    obtain ⟨v, hv⟩ := h.1.getDataSilent hreg (by rw [huse]; decide)
    exact .inl ⟨v, s, s, hv, hv, ⟨rfl, h⟩, rfl, trivial⟩
  rewriteData := by
    rintro o os data hreg huse s _ ⟨⟨rfl, h⟩, -⟩
    obtain ⟨t, ht⟩ := h.1.setData hreg (by rw [huse]; decide) data
    exact .inl ⟨(), t, t, ht, ht, rfl, trivial⟩
  setData := by
    rintro o os data hreg huse s _ ⟨rfl, h⟩
    obtain ⟨t, ht⟩ := h.1.setData hreg (by rw [huse]; decide) data
    exact .inl ⟨(), t, t, ht, ht, rfl, trivial⟩
  getFlag flag := by
    rintro s _ ⟨rfl, h⟩
    exact .inl ⟨_, s, s, rfl, rfl, rfl, h⟩
  commits h := h.related (CommitPrim.related (fun _ _ _ _ => id) fun _ _ _ _ => id)
  done h := ⟨h.1, trivial⟩
  direct _ _ h := ⟨h.1, trivial⟩

/-- A register is never out of reach. -/
theorem not_blocked_direct (hmode : o.mode = .directData ∨ o.mode = .directAddr) :
    ¬Blocked [o] s := by
  rintro (⟨hout, -⟩ | ⟨-, -, hrest⟩)
  · obtain h | h := hout.mode <;> obtain h' | h' := hmode <;> rw [h] at h' <;> cases h'
  · exact hrest

/-- An operand that is out of reach: every outcome is an error. -/
theorem operandRules_blocked :
    OperandRules (fun os => Diag (Blocked os)) (Diag fun _ => False) (Diag fun _ => True) where
  getData := by
    rintro o os hreg huse s _ ⟨rfl, ⟨hout, -⟩ | ⟨husable, -, hrest⟩⟩
    · obtain ⟨⟨e, t, ht⟩, -, -⟩ := index_throws hreg hout.mode hout.fetchable hout.accessible
      exact .inr ⟨e, t, t, ht, ht, rfl, trivial⟩
    · exact .inl ⟨_, _, _, husable.getData hreg huse, husable.getData hreg huse, rfl, hrest⟩
  getDataSilent := by
    rintro o os hreg huse s _ ⟨rfl, ⟨hout, -⟩ | ⟨-, hget, -⟩⟩
    · obtain ⟨-, ⟨e, t, ht⟩, -⟩ := index_throws hreg hout.mode hout.fetchable hout.accessible
      exact .inr ⟨e, t, t, ht, ht, rfl, trivial⟩
    · cases huse.symm.trans hget
  rewriteData := by
    rintro o os data hreg huse s _ ⟨-, -, ⟨⟩⟩
  setData := by
    rintro o os data hreg huse s _ ⟨rfl, ⟨hout, hindex⟩ | ⟨-, hget, -⟩⟩
    · obtain ⟨-, -, hset⟩ := index_throws hreg hout.mode hout.fetchable hout.accessible
      obtain ⟨e, t, ht⟩ := hset (hindex huse) data
      exact .inr ⟨e, t, t, ht, ht, rfl, trivial⟩
    · cases huse.symm.trans hget
  getFlag flag := by
    rintro s _ ⟨rfl, h⟩
    exact .inl ⟨_, s, s, rfl, rfl, rfl, h⟩
  commits h := h.related (CommitPrim.related (fun _ _ _ _ => id) fun _ _ _ _ => id)
  done h := h.2.elim
  direct _ hmode h := absurd h.2 (not_blocked_direct hmode)

/-- If its operands can be accessed, an object returns. -/
theorem execute_returns {d : Derived} (hd : d.Valid) (hoperands : d.operandList ≠ [])
    (haddress : ¬d.TakesAddress) (hdiv : ∀ f, d ≠ .div f)
    (h : AllUsable d.operandList s.pastExtWord) : ∃ t, d.execute .cpuState s = .ok () t := by
  have hrules := operandRules_usable.execute hd hoperands haddress (fun f hf => absurd hf (hdiv f))
  obtain ⟨_, t, _, ht, -⟩ | ⟨_, _, _, -, -, -, ⟨⟩⟩ := hrules s s ⟨rfl, h⟩
  exact ⟨t, ht⟩

/-- If an operand cannot, it throws. -/
theorem execute_throws {d : Derived} (hd : d.Valid) (hoperands : d.operandList ≠ [])
    (haddress : ¬d.TakesAddress)
    (h : Blocked d.operandList s.pastExtWord) : ∃ e t, d.execute .cpuState s = .error e t := by
  have hrules := operandRules_blocked.execute hd hoperands haddress fun _ _ => fun _ _ h => h.2.elim
  obtain ⟨_, _, _, -, -, -, ⟨⟩⟩ | ⟨e, t, _, ht, -⟩ := hrules s s ⟨rfl, h⟩
  exact ⟨e, t, ht⟩

/-- So does a division, if its divisor is not zero. -/
theorem div_returns {f : SignedOperand} (hd : (Derived.div f).Valid)
    (h : f.src.Usable s.pastExtWord)
    (hdatum : (s.pastExtWord.datum f.src.mode f.src.reg f.src.size).setWidth 16 ≠ (0 : BitVec 16)) :
    ∃ t, Div.execute .cpuState f s = .ok () t := by
  have hn : Named f.destReg := named_of_lt hd.1.dest.lt
  obtain ⟨size, hsize⟩ := Option.isSome_iff_exists.1 hd.1.sized
  have hsource := h.getData hd.1.src.lt rfl
  rw [TwoOperand.src_eq hsize] at hsource hdatum
  generalize s.pastExtWord.datum _ _ _ = srcData at hsource hdatum
  replace hsource : (Accessors.cpuState.getData f.srcMode f.srcReg size)
    (s.withReg regPC (s.reg regPC + 2)) =
    .ok srcData (s.pastExtWord.advanced f.srcMode f.srcReg size) := hsource
  have hdest (u : CPUState BaseMemory) :
      Accessors.cpuState.getDataSilent .directData f.destReg size u =
    .ok (Registers.sized (u.reg f.destReg) size) u := getReg_apply hn size
  rw [Div.execute, bind_of_ok (skipOpcode_apply s), hsize, readSize, pure_bind,
    bind_of_ok hsource, hd.2, bind_of_ok (hdest _)]
  dsimp only
  rw [if_neg hdatum]
  exact ⟨_, bind_of_ok (setReg_long hn)⟩

end Operands

end M68kEmu
