import M68kEmu.Frame.Classes
import M68kEmu.Frame.Invariants
import M68kEmu.Model.OpcodeTable

/-!
# Instructions that are not implemented

The rows of `opcodeTable` that `opcodeMaskTable` comments out leave their opcodes to later rows, or
to none.  For most of them the constructor of the row that is left rejects the opcode, and the
decoder falls back to `Illegal`; `SBCD`, `ABCD`, `EXG` and `CMPM` are run as a logic instruction.
-/

namespace M68kEmu

open MaskTable Outcome

/-- The instructions that `opcode_mask_table` comments out. -/
def commentedOut : List Mnemonic :=
  [.oriToCCR, .oriToSR, .andiToCCR, .andiToSR, .reset, .stop, .rte, .trapv, .rtr, .swap, .trap,
    .moveUSP, .moveFromSR, .moveToCCR, .moveToSR, .nbcd, .tas, .dbcc, .sbcd, .abcd, .movep, .negx,
    .not, .movem, .chk, .exg, .cmpm]

/-- They are the rows of `opcode_table` that are not in `opcode_mask_table`. -/
theorem mem_commentedOut_iff :
    ∀ row ∈ opcodeTable, row.entry ∈ commentedOut ↔
    row.toPattern ∉ opcodeMaskTable.map Row.toPattern := by
  decide +kernel

/-- The ones among them that a logic instruction runs. -/
def runAsLogic : List Mnemonic := [.sbcd, .abcd, .exg, .cmpm]

/-- Patterns of opcodes that the constructor of the class rejects. -/
def rejections : InstructionClass → List (Pattern 32)
  | .ori | .andi => [⟨0x003F, 0x003C⟩]
  | .pea => [⟨0x0038, 0x0000⟩]
  | .scc | .bitManip => [⟨0x0038, 0x0008⟩]
  | .neg | .tst => [⟨0x00C0, 0x00C0⟩]
  | _ => []

/-- What is left for the commented-out instructions: no row, or the row of a class
that rejects them. -/
theorem rejected_of_commentedOut :
    ∀ e ∈ withEarlier [] opcodeTable, e.2.entry ∈ commentedOut → e.2.entry ∉ runAsLogic →
      ∀ row ∈ candidates e.1 e.2.toPattern opcodeMaskTable,
        row.entry = .illegal ∨ ∃ q ∈ rejections row.entry, e.2.toPattern.Implies q := by
  decide +kernel

/-- What is left for the others: the row of a logic class, with a register operand and a size that
the class knows. -/
theorem logic_of_runAsLogic :
    ∀ e ∈ withEarlier [] opcodeTable, e.2.entry ∈ runAsLogic →
      (∀ row ∈ candidates e.1 e.2.toPattern opcodeMaskTable,
        row.entry ∈ [InstructionClass.and, .or, .eor]) ∧
      (∃ row ∈ opcodeMaskTable, e.2.toPattern.Implies row.toPattern) ∧
      e.2.toPattern.Implies ⟨0x0130, 0x0100⟩ ∧
      (e.2.toPattern.Implies ⟨0x00C0, 0x0000⟩ ∨
        ∃ q ∈ e.1, Pattern.Implies ⟨e.2.mask ||| 0x00C0, e.2.value ||| 0x00C0⟩ q) := by
  decide +kernel

/-! ### The constructors -/

theorem not_isValid_of_rejections {cls : InstructionClass} {q : Pattern 32} {opcode : BitVec 16}
    (hq : q ∈ rejections cls) (h : q.test (opcode.setWidth 32)) :
    (cls.create opcode).isValid = false := by
  cases cls <;> simp only [rejections, List.mem_singleton, List.not_mem_nil] at hq <;> subst hq
  case ori | andi =>
    have hfield : opcode &&& 0x3F = 0x3C := test_iff_opcode.1 h
    have hmode : (opcode >>> 3) &&& 0x7 = 7 := field_eq_of_matches hfield 3 0x7 (by decide)
    have hreg : opcode &&& 0x7 = 4 := and_eq_of_and_eq hfield (by decide)
    simp only [InstructionClass.create, Ori.create, Andi.create, createDest, hmode, hreg]
    rfl
  case pea =>
    have hfield : opcode &&& 0x38 = 0 := test_iff_opcode.1 h
    have hmode : (opcode >>> 3) &&& 0x7 = 0 := field_eq_of_matches hfield 3 0x7 (by decide)
    simp only [InstructionClass.create, Pea.create, createControl, hmode]
    rfl
  case scc =>
    have hfield : opcode &&& 0x38 = 0x08 := test_iff_opcode.1 h
    have hmode : (opcode >>> 3) &&& 0x7 = 1 := field_eq_of_matches hfield 3 0x7 (by decide)
    simp only [InstructionClass.create, Scc.create, hmode]
    rfl
  case bitManip =>
    have hfield : opcode &&& 0x38 = 0x08 := test_iff_opcode.1 h
    have hmode : (opcode >>> 3) &&& 0x7 = 1 := field_eq_of_matches hfield 3 0x7 (by decide)
    simp only [InstructionClass.create, BitManip.create, hmode]
    rfl
  case neg | tst =>
    have hfield : opcode &&& 0xC0 = 0xC0 := test_iff_opcode.1 h
    have hsize : (opcode >>> 6) &&& 0x3 = 3 := field_eq_of_matches hfield 6 0x3 (by decide)
    simp only [InstructionClass.create, Neg.create, Tst.create, createDest, hsize]
    simp [sizeOfPart]

/-- An operand in a register, as its mode field says. -/
theorem direct_of_mode {partMode partReg : BitVec 16} (h : partMode = 0 ∨ partMode = 1) :
    getAddressingMode partMode partReg = .directData ∨
    getAddressingMode partMode partReg = .directAddr := by
  obtain rfl | rfl := h
  · exact .inl rfl
  · exact .inr rfl

theorem sizeOfPart_isSome {part : BitVec 16} (h : part.toNat < 3) : (sizeOfPart part).isSome := by
  obtain h | h | h : part.toNat = 0 ∨ part.toNat = 1 ∨ part.toNat = 2 := by omega
  all_goals
    rw [sizeOfPart, h]
    rfl

/-- A logic instruction between registers runs to its end. -/
theorem readModifyWrite_direct {f : TwoOperand} (hf : f.Valid) (hsrc : f.srcMode = .directData)
    (hdest : f.destMode = .directData ∨ f.destMode = .directAddr)
    (op : BitVec 32 → BitVec 32 → BitVec 32) (s : CPUState BaseMemory) :
    ∃ t, readModifyWrite .cpuState (fetchSource .cpuState f) f.toOneOperand op setResultFlags s =
    .ok () t := by
  obtain ⟨size, hsize⟩ := Option.isSome_iff_exists.1 hf.sized
  have hget (u : CPUState BaseMemory) :
      fetchSource .cpuState f size u = .ok (Registers.sized (u.reg f.srcReg) size) u := by
    have hread : CPUState.getData f.srcMode f.srcReg size u = getReg f.srcReg size u := by
      rw [hsrc]; rfl
    exact hread.trans (getReg_apply (named_of_lt hf.src.lt) size)
  have hsilent (u : CPUState BaseMemory) :
      Accessors.cpuState.getDataSilent f.destMode f.destReg size u =
      .ok (Registers.sized (u.reg f.destReg) size) u := by
    have hread : CPUState.getDataSilent f.destMode f.destReg size u = getReg f.destReg size u := by
      obtain h | h := hdest <;> rw [h] <;> rfl
    exact hread.trans (getReg_apply (named_of_lt hf.dest.lt) size)
  have hset (u : CPUState BaseMemory) (data : BitVec 32) :
      Accessors.cpuState.setData f.destMode f.destReg size data u =
        .ok () (u.withReg f.destReg (Registers.merge (u.reg f.destReg) data size)) := by
    have hwrite :
        CPUState.setData f.destMode f.destReg size data u = setReg f.destReg size data u := by
      obtain h | h := hdest <;> rw [h] <;> rfl
    exact hwrite.trans (setReg_apply (named_of_lt hf.dest.lt) size)
  rw [readModifyWrite, bind_of_ok (skipOpcode_apply s), hsize, readSize, pure_bind,
    bind_of_ok (hget _), bind_of_ok (hsilent _), bind_of_ok (hset _ _)]
  exact ⟨_, rfl⟩

/-- A mode field with two zero bits names a register. -/
theorem mode_cases {part : BitVec 16} (h : part &&& 0x6 = 0) :
    part &&& 0x7 = 0 ∨ part &&& 0x7 = 1 := by
  have hlow : part &&& 0x7 = part &&& 0x1 := by
    have hor : (0x7 : BitVec 16) = 0x6 ||| 0x1 := by decide
    rw [hor, BitVec.and_or_distrib_left, h]
    exact BitVec.zero_or
  have hle : (part &&& 0x1).toNat ≤ 1 := by
    rw [BitVec.toNat_and]
    exact Nat.and_le_right
  rw [hlow]
  obtain h | h : (part &&& 0x1).toNat = 0 ∨ (part &&& 0x1).toNat = 1 := by omega
  · exact .inl (BitVec.eq_of_toNat_eq h)
  · exact .inr (BitVec.eq_of_toNat_eq h)

/-- The object of a logic instruction whose destination is the effective address. -/
def logicOperand (opcode : BitVec 16) : TwoOperand where
  destMode := getAddressingMode ((opcode >>> 3) &&& 0x7) (opcode &&& 0x7)
  destReg := getRegisterType ((opcode >>> 3) &&& 0x7) (opcode &&& 0x7)
  srcMode := .directData
  srcReg := getRegisterType 0 ((opcode >>> 9) &&& 0x7)
  dataSize := sizeOfPart ((opcode >>> 6) &&& 0x3)

theorem create_logic {cls : InstructionClass} {opcode : BitVec 16}
    (hcls : cls ∈ [InstructionClass.and, .or, .eor]) (hop : (opcode >>> 8) &&& 0x1 = 1) :
    (cls.create opcode).isValid = (isMemoryAlterable (logicOperand opcode).destMode &&
      (logicOperand opcode).dataSize.isSome) ∧ (cls.create opcode).derived ∈
        [Derived.and (logicOperand opcode), .or (logicOperand opcode),
          .eor (logicOperand opcode)] := by
  have hne : (opcode >>> 8) &&& 0x1 ≠ 0 := by rw [hop]; decide
  simp only [List.mem_cons, List.not_mem_nil, or_false] at hcls
  obtain rfl | rfl | rfl := hcls
  · simp only [InstructionClass.create, And.create, createOpMode, if_pos hne]
    exact ⟨rfl, List.mem_cons_self⟩
  · simp only [InstructionClass.create, Or.create, createOpMode, if_pos hne]
    exact ⟨rfl, List.mem_cons_of_mem _ List.mem_cons_self⟩
  · simp only [InstructionClass.create, Eor.create, if_pos hne]
    exact ⟨rfl, List.mem_cons_of_mem _ (List.mem_cons_of_mem _ List.mem_cons_self)⟩

/-- The logic classes accept a register destination at any of the three sizes, and run. -/
theorem execute_logic {cls : InstructionClass} {opcode : BitVec 16}
    (hcls : cls ∈ [InstructionClass.and, .or, .eor])
    (hfields : opcode &&& 0x130 = 0x100) (hsize : (opcode >>> 6) &&& 0x3 ≠ 3) :
    (cls.create opcode).isValid ∧
      ∀ s : CPUState BaseMemory, ∃ t, (cls.create opcode).derived.execute .cpuState s =
      .ok () t := by
  have hop : (opcode >>> 8) &&& 0x1 = 1 := field_eq_of_matches hfields 8 0x1 (by decide)
  have hdirect : (logicOperand opcode).destMode = .directData ∨
      (logicOperand opcode).destMode = .directAddr :=
    direct_of_mode (mode_cases (field_eq_of_matches hfields 3 0x6 (by decide)))
  have hsized : (logicOperand opcode).dataSize.isSome := by
    refine sizeOfPart_isSome ?_
    have hle : ((opcode >>> 6) &&& 0x3).toNat ≤ 3 := by
      rw [BitVec.toNat_and]
      exact Nat.and_le_right
    have hne : ((opcode >>> 6) &&& 0x3).toNat ≠ 3 := fun h => hsize (BitVec.eq_of_toNat_eq h)
    omega
  obtain ⟨hisValid, hderived⟩ := create_logic hcls hop
  have hvalid : (cls.create opcode).isValid := by
    rw [hisValid, hsized]
    obtain h | h := hdirect <;> rw [h] <;> rfl
  refine ⟨hvalid, fun s => ?_⟩
  have hf := accepts_create cls opcode hvalid
  simp only [List.mem_cons, List.not_mem_nil, or_false] at hderived
  obtain h | h | h :=
    hderived <;> rw [h] at hf ⊢ <;> exact readModifyWrite_direct hf rfl hdirect _ s

/-! ### A step -/

section Step

variable {opcode : BitVec 16} {row : Row 32 Mnemonic}

theorem decode_of_rejected (hfirst : first opcodeTable (opcode.setWidth 32) = some row)
    (hout : row.entry ∈ commentedOut) (hlogic : row.entry ∉ runAsLogic) :
    decode opcode = Illegal.create opcode := by
  obtain ⟨earlier, hmem, hnot⟩ :=
    mem_withEarlier_of_first (fun _ h => absurd h List.not_mem_nil) hfirst
  have htest := (mem_of_first hfirst).2
  rw [decode_eq]
  rcases hrow : first opcodeMaskTable (opcode.setWidth 32) with _ | r
  · rfl
  · have hcandidate := mem_candidates_of_first hnot htest hrow
    obtain hillegal | ⟨q, hq, himp⟩ := rejected_of_commentedOut _ hmem hout hlogic r hcandidate
    · dsimp only
      rw [hillegal]
      rfl
    · dsimp only
      rw [not_isValid_of_rejections hq (himp.test htest)]
      rfl

theorem decode_of_runAsLogic (hfirst : first opcodeTable (opcode.setWidth 32) = some row)
    (hlogic : row.entry ∈ runAsLogic) :
    ∀ s : CPUState BaseMemory, ∃ t, (decode opcode).derived.execute .cpuState s = .ok () t := by
  obtain ⟨earlier, hmem, hnot⟩ :=
    mem_withEarlier_of_first (fun _ h => absurd h List.not_mem_nil) hfirst
  have htest := (mem_of_first hfirst).2
  obtain ⟨hcandidates, ⟨row', hrow', himp⟩, hfields, hsize⟩ := logic_of_runAsLogic _ hmem hlogic
  have hsize' : (opcode >>> 6) &&& 0x3 ≠ 3 := by
    intro h
    have hopcode : opcode &&& 0xC0 = 0xC0 := by
      have hmask : (0xC0 : BitVec 16) = (0x3 : BitVec 16) <<< 6 := by decide
      rw [hmask, and_shiftLeft, h]
    obtain himp | ⟨q, hq, himp⟩ := hsize
    · have hzero : opcode &&& 0xC0 = 0 := test_iff_opcode.1 (himp.test htest)
      rw [hopcode] at hzero
      cases hzero
    · have hall : Pattern.test ⟨0xC0, 0xC0⟩ (opcode.setWidth 32) := test_iff_opcode.2 hopcode
      have hboth := Pattern.test_or htest hall
      have hmatch := himp.test hboth
      rw [hnot q hq] at hmatch
      cases hmatch
  rw [decode_eq]
  rcases hrow : first opcodeMaskTable (opcode.setWidth 32) with _ | r
  · exact absurd (himp.test htest) (not_test_of_first hrow row' hrow')
  · obtain ⟨hisValid, hrun⟩ :=
      execute_logic (hcandidates r (mem_candidates_of_first hnot htest hrow))
      (test_iff_opcode.1 (hfields.test htest)) hsize'
    dsimp only
    rw [if_pos hisValid]
    exact hrun

/-- Unimplemented instructions trap: the step throws the invalid-opcode error and changes nothing
but the program counter, unless the opcode is one that a logic instruction runs. -/
theorem unimplemented_traps_iff (hfirst : first opcodeTable (opcode.setWidth 32) = some row)
    (hout : row.entry ∈ commentedOut) (s : CPUState BaseMemory)
    (hfetch : fetchOpcode s = .ok opcode s) :
    (∃ t, step s = .error .invalidOpcode t ∧ SameButPc s t) ↔ row.entry ∉ runAsLogic := by
  have hstep : step s = (decode opcode).derived.execute .cpuState s := by
    rw [step, stepWith, bind_of_ok hfetch]
  rw [hstep]
  constructor
  · rintro ⟨t, hthrow, -⟩ hlogic
    obtain ⟨t', hok⟩ := decode_of_runAsLogic hfirst hlogic s
    rw [hok] at hthrow
    cases hthrow
  · intro hlogic
    rw [decode_of_rejected hfirst hout hlogic]
    exact ⟨_, bind_of_ok (skipOpcode_apply s), (SameButPc.refl s).withReg _⟩

end Step

/-- `sbcd D1, D0` does not trap: it runs as `or.b D0, D1`. -/
theorem sbcd_runs_as_or :
    (first opcodeTable 0x8101).map Row.entry = some .sbcd ∧ Mnemonic.sbcd ∈ commentedOut ∧
      ∃ t, step (CPUState.simple [0x81, 0x01] fun i => if i = 0 then 1 else if i = 1 then 2
        else 0) = .ok () t ∧ t.reg 1 = 3 := by
  have hdecode : (decode 0x8101).derived =
      .or { destMode := .directData, destReg := 1, dataSize := some .byte, srcMode := .directData,
            srcReg := 0 } := by
    rw [decode_eq_opcodeEntry]
    rfl
  refine ⟨by decide, by decide, ?_⟩
  have hfetch :
      fetchOpcode (CPUState.simple [0x81, 0x01] fun i =>
        if i = 0 then 1 else if i = 1 then 2 else 0) =
        .ok 0x8101 (CPUState.simple [0x81, 0x01] fun i => if i = 0 then 1 else if i = 1 then 2
          else 0) := rfl
  rw [step, stepWith, bind_of_ok hfetch, hdecode]
  exact ⟨_, rfl, by decide⟩

/-- `reset` traps. -/
theorem reset_traps :
    ∃ t, step (CPUState.simple [0x4E, 0x70] fun _ => 0) = .error .invalidOpcode t ∧
      SameButPc (CPUState.simple [0x4E, 0x70] fun _ => 0) t := by
  have hfirst :
      first opcodeTable ((0x4E70 : BitVec 16).setWidth 32) = some ⟨⟨0xFFFF, 0x4E70⟩, .reset⟩ := rfl
  exact (unimplemented_traps_iff hfirst (by decide) _ rfl).2 (by decide)

end M68kEmu
