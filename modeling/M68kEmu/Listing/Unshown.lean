import M68kEmu.Listing.Effect
import M68kEmu.Step.Disassembly
import Mathlib.Tactic.IntervalCases

/-!
# What the machine uses and the listing does not show

Two encodings with one text have one line, and so one normal object and the same extension words, as
far as the listing shows them.  Left open are the size of `TST`, `NEG` and the shifts, whether a
shift is one of a memory operand (`Derived.unshown`), and the sizes of the index registers; where
these agree, the effects are the same (`Form.Agrees.stepsAlike`).
-/

namespace M68kEmu

open Outcome

/-! ### Normal objects -/

section Normal

theorem ValidOperand.normal {mode : AddressingMode} {reg : ℕ} (h : ValidOperand mode reg) :
    ValidOperand mode (normalReg mode reg) := by
  have hreg : normalReg mode reg = reg ∨ normalReg mode reg = regD0 ∧ ¬MovesBase mode := by
    cases mode <;> first | exact .inl rfl | exact .inr ⟨rfl, by decide⟩
  obtain heq | ⟨heq, hbase⟩ := hreg <;> rw [heq]
  · exact h
  · exact ⟨by decide, fun hmoves => absurd hmoves hbase⟩

theorem OneOperand.Valid.normal {f : OneOperand} (h : f.Valid) : f.normal.Valid :=
  ⟨h.dest.normal, h.alterable, h.sized⟩

theorem TwoOperand.Valid.normal {f : TwoOperand} (h : f.Valid) : f.normal.Valid :=
  ⟨⟨h.dest.normal, h.alterable, h.sized⟩, h.src.normal⟩

namespace Derived

theorem Valid.normal {d : Derived} (h : d.Valid) : d.normal.Valid := by
  cases d with
  | add f | adda f | addx f | and f | cmp f | cmpa f | eor f | or f | sub f | suba f | subx f =>
    exact TwoOperand.Valid.normal h
  | addi f | andi f | clr f | cmpi f | eori f | neg f | ori f | subi f =>
    exact OneOperand.Valid.normal h
  | addq f | moveq f | subq f => exact OneOperand.Valid.normal h
  | div f | mul f | move f => exact ⟨TwoOperand.Valid.normal h.1, h.2⟩
  | ext f => exact ⟨OneOperand.Valid.normal h.1, h.2⟩
  | bitManip f => exact TwoOperand.Valid.normal h
  | bitShift f | scc f | tst f => exact ⟨h.1.normal, h.2⟩
  | jmp f | jsr f | pea f | lea f => exact ⟨⟨h.1.1.normal, h.1.2⟩, h.2⟩
  | bcc f | illegal | link addrReg | nop | rts | unlk addrReg => exact h

end Derived

theorem indexSizesAt_normal (mem : BaseMemory) (pc : BitVec 32) (os : List Operand) :
    indexSizesAt mem pc (os.map Operand.normal) = indexSizesAt mem pc os := by
  induction os generalizing pc with
  | nil => rfl
  | cons o os ih =>
    rw [List.map_cons, indexSizesAt, indexSizesAt, ← ih]
    rfl

theorem dataAddress_normal (o : Operand) (s : CPUState BaseMemory) :
    dataAddress o.use o.mode (normalReg o.mode o.reg) o.size s = dataAddress o.use o.mode o.reg
      o.size s := by
  obtain ⟨use, mode, reg, size⟩ := o
  cases use <;> cases mode <;> rfl

theorem operandReads_normal (os : List Operand) (s : CPUState BaseMemory) :
    operandReads (os.map Operand.normal) s = operandReads os s := by
  induction os generalizing s with
  | nil => rfl
  | cons o os ih =>
    have hget : o.normal.getData = o.getData := congrFun (getData_normalReg o.mode o.reg) o.size
    have hread : o.normal.dataRead s = o.dataRead s :=
      congrArg (Option.map _) (dataAddress_normal o s)
    rw [List.map_cons, operandReads, operandReads, hget, hread]
    rcases o.getData s with ⟨v, t⟩ | ⟨e, t⟩
    · exact congrArg (_ ++ ·) (ih t)
    · rfl

namespace Derived

theorem indexSizes_normal (d : Derived) (mem : BaseMemory) (pc : BitVec 32) :
    d.normal.indexSizes mem pc = d.indexSizes mem pc := by
  have hsizes := indexSizesAt_normal mem (pc + 2) d.operandList
  rw [← operandList_normal] at hsizes
  cases d <;> first | exact hsizes | rfl

theorem dataReads_normal (d : Derived) (s : CPUState BaseMemory) :
    d.normal.dataReads s = d.dataReads s := by
  have hreads := operandReads_normal d.operandList s.pastExtWord
  rw [← operandList_normal] at hreads
  cases d with
  | bitShift f =>
    by_cases hignores : f.IgnoresOperand
    · exact (if_pos hignores).trans (if_pos hignores).symm
    · exact (if_neg hignores).trans (hreads.trans (if_neg hignores).symm)
  | unlk addrReg => rfl
  | _ => exact hreads

end Derived

end Normal

/-! ### Sizes without effect -/

section Canonical

/-- A right rotation of a data register through `X` by an immediate. -/
def BitShiftOperand.Sizeless (f : BitShiftOperand) : Prop :=
  f.IgnoresOperand ∧ f.isImm = true ∧ f.isMemory = false ∧ f.addrMode = .directData

instance (f : BitShiftOperand) : Decidable f.Sizeless := inferInstanceAs (Decidable (_ ∧ _))

/-- The object with its size set to `.long` where that has no effect: `TST` of no operand, and the
right rotations of a data register through `X` by an immediate. -/
def Derived.canonical : Derived → Derived
  | .tst f => .tst (if f.destMode = .unknown then { f with dataSize := some .long } else f)
  | .bitShift f => .bitShift (if f.Sizeless then { f with dataSize := .long } else f)
  | d => d

/-- The flags `C`, `N` and `Z` of a right rotation of `X` alone. -/
def rorFlags (carry : BitVec 64) (n : ℕ) : DataSize → Bool × Bool × Bool
  | .byte =>
    let result := ror9 (0 ||| lsl carry 8) (BitVec.ofNat 64 n)
    (result != 0, isNegative result .byte, isZero result .byte)
  | .word =>
    let result := ror17 (0 ||| lsl carry 16) (BitVec.ofNat 64 n)
    (lsr result 8 != 0, isNegative result .word, isZero result .word)
  | .long =>
    let result := ror33 (0 ||| lsl carry 32) (BitVec.ofNat 64 n)
    (lsr result 24 != 0, isNegative result .long, isZero result .long)

/-- The counts of an immediate rotate it to one place below the operand, at every size. -/
theorem rorFlags_eq_long {n : ℕ} (h1 : 1 ≤ n) (h8 : n ≤ 8) (flag : Bool) (size : DataSize) :
    rorFlags (if flag then 1 else 0) n size = rorFlags (if flag then 1 else 0) n .long := by
  interval_cases n <;> cases flag <;> cases size <;> rfl

theorem shiftRest_of_ignoresOperand {f : BitShiftOperand} (hf : f.IgnoresOperand) {n : ℕ}
    (h1 : 1 ≤ n) (h8 : n ≤ 8) (addrData : BitVec 64) (s : CPUState BaseMemory) :
    (do
      let result ← BitShift.shifted f addrData (BitVec.ofNat 64 n)
      setFlag .negative (isNegative result f.dataSize)
      setFlag .zero (isZero result f.dataSize)
      setFlag .overflow false) s =
    (do
      let result ← BitShift.shifted { f with dataSize := .long } addrData (BitVec.ofNat 64 n)
      setFlag .negative (isNegative result .long)
      setFlag .zero (isZero result .long)
      setFlag .overflow false) s := by
  have hcarry : getFlag .carry s = .ok (s.registers.getFlag .carry) s := rfl
  have hflags := rorFlags_eq_long h1 h8 (s.registers.getFlag .carry) f.dataSize
  rw [BitShift.shifted, BitShift.shifted, hf.1]
  simp only [BitShift.rotateExtended, hf.2, bind_assoc, Bool.false_eq_true, if_false]
  rw [bind_of_ok hcarry, bind_of_ok hcarry]
  cases hsize : f.dataSize with
  | byte | word =>
    simp only [hsize, rorFlags, Prod.mk.injEq] at hflags
    simp only [BitShift.setCarryExtend, bind_assoc, pure_bind, hflags]
  | long => rfl

theorem execute_sizeless {f : BitShiftOperand} (hf : f.Sizeless)
    (hvalid : (Derived.bitShift f).Valid) (hregular : f.Regular) :
    (BitShift.execute .cpuState { f with dataSize := .long } : CpuM BaseMemory Unit) =
    BitShift.execute .cpuState f := by
  obtain ⟨addrMode, addrReg, shiftReg, immShift, directionLeft, isImm, isMemory, type,
      text, size⟩ := f
  obtain ⟨hignores, himm, hmemory, hmode⟩ := hf
  obtain ⟨-, h1, h8⟩ := hregular.imm himm
  obtain rfl : isImm = true := himm
  obtain rfl : isMemory = false := hmemory
  obtain rfl : addrMode = .directData := hmode
  have hn : Named addrReg := named_of_lt hvalid.1.lt
  have hshift : immShift.setWidth 64 = BitVec.ofNat 64 immShift.toNat :=
    (BitVec.ofNat_toNat _ _).symm
  funext s
  simp only [BitShift.execute, Accessors.cpuState, Bool.not_true, Bool.and_false,
    Bool.false_eq_true, if_false, pure_bind, hshift]
  rw [bind_of_ok (skipOpcode_apply s), bind_of_ok (skipOpcode_apply s), CPUState.getDataSilent,
    CPUState.getDataSilent, bind_of_ok (getReg_apply hn _), bind_of_ok (getReg_apply hn _),
    shiftRest_of_ignoresOperand hignores h1 h8]
  simp only [shifted_of_ignoresOperand
    (f := ⟨.directData, addrReg, shiftReg, immShift, directionLeft, true, false,
    type, text, .long⟩) hignores _ 0]

namespace Derived

variable {d : Derived}

/-- An operand of no mode is zero at every size. -/
theorem execute_canonical (hv : d.Valid) (hd : d.Regular) :
    (d.canonical.execute .cpuState : CpuM BaseMemory Unit) = d.execute .cpuState := by
  cases d with
  | tst f =>
    by_cases hmode : f.destMode = .unknown
    · obtain ⟨size, hsize⟩ := Option.isSome_iff_exists.1 hv.2
      have hzero (size : DataSize) : isNegative (0 : BitVec 32) size = false ∧
          isZero (0 : BitVec 32) size = true := by
        cases size <;> decide
      rw [canonical, if_pos hmode, execute, execute, Tst.execute, Tst.execute, hsize, hmode]
      simp only [Accessors.cpuState, CPUState.getData, readSize, pure_bind, setLogicFlags, hzero]
    · rw [canonical, if_neg hmode]
  | bitShift f =>
    by_cases hf : f.Sizeless
    · rw [canonical, if_pos hf]
      exact execute_sizeless hf hv hd
    · rw [canonical, if_neg hf]
  | _ => rfl

theorem Valid.canonical (h : d.Valid) : d.canonical.Valid := by
  cases d with
  | tst f =>
    rw [Derived.canonical]
    split_ifs
    · exact ⟨h.1, rfl⟩
    · exact h
  | bitShift f =>
    rw [Derived.canonical]
    split_ifs
    · exact h
    · exact h
  | _ => exact h

theorem Regular.canonical (h : d.Regular) : d.canonical.Regular := by
  cases d with
  | tst f =>
    rw [Derived.canonical]
    split_ifs
    · exact h
    · exact h
  | bitShift f =>
    rw [Derived.canonical]
    split_ifs with hf
    · refine ⟨h.addr, h.text, h.shiftReg, h.imm, h.noImm, h.register, fun hmemory => ?_, h.direct⟩
      cases hmemory.symm.trans hf.2.2.1
    · exact h
  | _ => exact h

/-- The size is not printed. -/
theorem line_canonical (d : Derived) (mem : BaseMemory) (pc : BitVec 32) :
    d.canonical.line mem pc = d.line mem pc := by
  cases d with
  | tst f =>
    rw [canonical]
    split_ifs with hmode
    · simp [line, name, suffix, opcodeFields, extensionFields, operandList, fieldsAt, Operand.field,
        OneOperand.dest, hmode, operandField]
    · rfl
  | bitShift f =>
    rw [canonical]
    split_ifs with hf
    · simp [line, name, suffix, opcodeFields, extensionFields, operandList, fieldsAt, Operand.field,
        hf.2.2.2, operandField]
    · rfl
  | _ => rfl

theorem indexSizes_canonical (d : Derived) (mem : BaseMemory) (pc : BitVec 32) :
    d.canonical.indexSizes mem pc = d.indexSizes mem pc := by
  cases d with
  | tst f =>
    rw [canonical]
    split_ifs with hmode <;> rfl
  | bitShift f =>
    rw [canonical]
    split_ifs with hf <;> rfl
  | _ => rfl

theorem dataReads_canonical (d : Derived) (s : CPUState BaseMemory) :
    d.canonical.dataReads s = d.dataReads s := by
  cases d with
  | tst f =>
    rw [canonical]
    split_ifs with hmode
    · have hreads {g : OneOperand} (hg : g.destMode = .unknown) :
          operandReads [g.dest .get] s.pastExtWord = [] := by
        rw [OneOperand.dest, hg]
        rfl
      exact (hreads (g := { f with dataSize := some .long }) hmode).trans (hreads hmode).symm
    · rfl
  | bitShift f =>
    rw [canonical]
    split_ifs with hf
    · have hignores : BitShiftOperand.IgnoresOperand { f with dataSize := .long } := hf.1
      rw [dataReads, if_pos hignores, dataReads, if_pos hf.1]
    · rfl
  | _ => rfl

end Derived

end Canonical

/-! ### Tests of an immediate -/

/-- The immediate whose extension words are at an address. -/
def immediateAt (mem : BaseMemory) (pc : BitVec 32) (size : DataSize) : BitVec 32 :=
  if size = .byte then mask8 (extensionAt mem pc .immediate size) else extensionAt mem pc
    .immediate size

theorem immediateAt_lt (mem : BaseMemory) (pc : BitVec 32) (size : DataSize) :
    (immediateAt mem pc size).toNat < 2 ^ size.bits := by
  have hread (e : DataSize) : (mem.read pc e).toNat < 2 ^ e.bits := readRealMem_lt
  cases size with
  | byte =>
    rw [immediateAt, if_pos rfl, toNat_mask8]
    exact Nat.mod_lt _ (by decide)
  | word => exact hread .word
  | long => exact hread .long

theorem isZero_immediateAt (mem : BaseMemory) (pc : BitVec 32) (size : DataSize) :
    isZero (immediateAt mem pc size) size = decide (immediateAt mem pc size = 0) := by
  rw [isZero_eq_decide, decide_eq_decide, ← BitVec.toNat_inj,
    toNat_setWidth_of_lt (immediateAt_lt mem pc size), ← BitVec.toNat_inj]
  rfl

namespace Derived

/-- Whether the object is a `TST` of an immediate. -/
def testsImmediate : Derived → Bool
  | .tst f => f.destMode = .immediate
  | _ => false

/-- The flag `N` after a `TST` of an immediate.  It is all that depends on the size: the listing
shows the value. -/
def immediateSign (d : Derived) (mem : BaseMemory) (pc : BitVec 32) : Bool :=
  match d with
  | .tst f =>
    f.destMode = .immediate ∧ isNegative (immediateAt mem (pc + 2) (f.dataSize.getD .long))
      (f.dataSize.getD .long)
  | _ => false

/-- What a method uses and does not print. -/
def unshown (d : Derived) : Unprinted := if d.testsImmediate then {} else d.canonical.unprinted

end Derived

section Immediate

variable {D : ℕ → Prop} {s t u : CPUState BaseMemory} {f : OneOperand} {size : DataSize}
    {text : String}

/-- A listing fetches the immediate. -/
theorem accessible_of_effectiveAddress {r : ℕ}
    (h : Disassembler.effectiveAddress .immediate r size s = .ok text t) :
    s.memory.Accessible (s.reg regPC) (if size = .long then .long else .word) := by
  simp [Disassembler.effectiveAddress, -bind_pure_comp] at h
  exact h.1

/-- A `TST` of an immediate that can be listed sets the flags of the immediate. -/
theorem tst_immediate (hmode : f.destMode = .immediate) (hsize : f.dataSize = some size)
    (h : Tst.disassembly f s = .ok text t) :
    ∃ pc, Tst.execute .cpuState f s =
      .ok () ((s.withReg regPC pc).withResultFlags
        (isNegative (immediateAt s.memory (s.reg regPC + 2) size) size)
        (isZero (immediateAt s.memory (s.reg regPC + 2) size) size)) := by
  obtain ⟨destMode, destReg, dataSize⟩ := f
  obtain rfl : destMode = .immediate := hmode
  obtain rfl : dataSize = some size := hsize
  have hlist :
      (Disassembler.effectiveAddress .immediate destReg size >>= fun dest => pure ("tst " ++ dest))
      s.pastExtWord = .ok text t := skipOpcode_bind h
  obtain ⟨_, _, hdest, -⟩ := bind_eq_ok.1 hlist
  have hacc := accessible_of_effectiveAddress hdest
  have hdata : CPUState.getData .immediate destReg size s.pastExtWord =
      .ok (immediateAt s.memory (s.reg regPC + 2) size)
        (s.pastExtWord.withReg regPC
          (s.pastExtWord.reg regPC + (if size = .long then 4 else 2))) := by
    rw [CPUState.getData, fetchExt_apply hacc,
      bind_of_ok (setReg_long named_regPC), ← reg_pastExtWord s]
    cases size <;> rfl
  refine ⟨s.pastExtWord.reg regPC + (if size = .long then 4 else 2), ?_⟩
  rw [Tst.execute, bind_of_ok (skipOpcode_apply s)]
  refine (bind_of_ok hdata).trans ?_
  rw [setLogicFlags_apply, CPUState.pastExtWord, CPUState.withReg_withReg named_regPC]

end Immediate

/-! ### Lines -/

section Lines

variable {mem : BaseMemory} {pc : BitVec 32}

theorem printable_of_lt {r : ℕ} (h : r < 16) : Field.Printable r := ⟨by omega, by omega⟩

theorem valid_field {o : Operand} (h : o.reg < 16) : (o.field mem pc).Valid := by
  obtain ⟨use, mode, reg, size⟩ := o
  have hpc : Field.Printable regPC := ⟨by decide, by decide⟩
  cases mode with
  | directData | directAddr | indirect | indirectPostincrement | indirectPredecrement
  | indirectDisplacement =>
    exact printable_of_lt h
  | indirectIndex => exact ⟨printable_of_lt h, printable_of_lt (extReg_lt _)⟩
  | pcDisplacement => exact hpc
  | pcIndex => exact ⟨hpc, printable_of_lt (extReg_lt _)⟩
  | absWord | absLong | immediate | unknown => trivial

theorem valid_fieldsAt {os : List Operand} (h : ∀ o ∈ os, o.reg < 16) :
    ∀ f ∈ fieldsAt mem pc os, f.Valid := by
  induction os generalizing pc with
  | nil => exact fun f hf => absurd hf List.not_mem_nil
  | cons o os ih =>
    intro f hf
    rcases List.mem_cons.1 hf with rfl | hf
    · exact valid_field (h o List.mem_cons_self)
    · exact ih (fun p hp => h p (List.mem_cons_of_mem o hp)) f hf

/-- The line of a decoded object is known from its text. -/
theorem valid_line {d : Derived} (hd : d.Regular) (hv : d.Valid) : (d.line mem pc).Valid := by
  have hopcode : ∀ f ∈ d.opcodeFields, f.Valid := by
    cases d with
    | addq f | moveq f | subq f =>
      intro g hg
      rw [List.mem_singleton.1 hg]
      trivial
    | link addrReg | unlk addrReg =>
      intro g hg
      rw [List.mem_singleton.1 hg]
      exact printable_of_lt hv
    | bitShift f =>
      intro g hg
      rw [List.mem_singleton.1 hg]
      split_ifs with himm
      · exact (hd.imm himm).2
      · exact printable_of_lt hv.2
    | _ => exact fun g hg => absurd hg List.not_mem_nil
  have hextension : ∀ f ∈ d.extensionFields mem (pc + 2), f.Valid := by
    have hfields : ∀ f ∈ fieldsAt mem (pc + 2) d.operandList, f.Valid :=
      valid_fieldsAt (Derived.reg_lt_of_mem_operandList hv)
    cases d with
    | link addrReg | bcc f =>
      intro g hg
      rw [List.mem_singleton.1 hg]
      trivial
    | _ => exact hfields
  refine ⟨fun f hf => ?_, fun hname => ?_⟩
  · rcases List.mem_append.1 hf with hf | hf
    · exact hopcode f hf
    · exact hextension f hf
  · cases d <;> first | exact hv.1.sized | cases hname

end Lines

/-! ### The instruction at the program counter -/

namespace CPUState

/-- The opcode word at the program counter. -/
def opcode (s : CPUState BaseMemory) : BitVec 16 := (s.memory.read (s.reg regPC) .word).setWidth 16

/-- The object that a decoder hands out for the instruction at the program counter. -/
def currentWith (decoder : BitVec 16 → Instruction) (s : CPUState BaseMemory) : Derived :=
  (decoder s.opcode).derived

/-- The object that a step executes. -/
def current (s : CPUState BaseMemory) : Derived := s.currentWith decode

-- in two steps: the table is not evaluated when the sides are compared
theorem current_eq (s : CPUState BaseMemory) : s.current = (decode s.opcode).derived := by
  rw [current, currentWith]

/-- The bytes of the instruction: its opcode word and its extension words. -/
def Encoded (s : CPUState BaseMemory) (i : ℕ) : Prop :=
  ∃ k < (delta regPC s.current.listed).toNat, i = maskAddr (s.reg regPC + BitVec.ofNat 32 k).toNat

end CPUState

/-- An encoding, as far as the machine uses it and the listing does not show it: the opcode word,
the sizes of the index registers, and the sign that `TST` finds in an immediate. -/
structure Form where
  opcode : BitVec 16
  indexSizes : List (Option DataSize)
  immediateSign : Bool
  deriving DecidableEq, Repr

/-- The form of the instruction at the program counter. -/
def CPUState.form (s : CPUState BaseMemory) : Form :=
  ⟨s.opcode, s.current.indexSizes s.memory (s.reg regPC),
    s.current.immediateSign s.memory (s.reg regPC)⟩

/-- The object that a decoder hands out for the form. -/
def Form.object (a : Form) : Derived := (decode a.opcode).derived

theorem object_form (s : CPUState BaseMemory) : s.form.object = s.current := by
  rw [CPUState.current_eq, Form.object, CPUState.form]

/-- Two forms use the same sizes, find the same sign in an immediate, and are both shifts of a
memory operand or none. -/
structure Form.Agrees (a b : Form) : Prop where
  unshown : a.object.unshown = b.object.unshown
  indexSizes : a.indexSizes = b.indexSizes
  immediateSign : a.immediateSign = b.immediateSign

/-- Two states that are equal but for the bytes of the two instructions at the program counter,
which are listed with one text. -/
structure PrintsAlike (s t : CPUState BaseMemory) : Prop where
  registers : s.registers = t.registers
  memSize : s.memory.memSize = t.memory.memSize
  bytes : ∀ i, ¬(s.Encoded i ∨ t.Encoded i) → s.memory.baseAddr i = t.memory.baseAddr i
  text : ∃ text u v, listCurrent s = .ok text u ∧ listCurrent t = .ok text v

/-- The data that the first instruction reads and uses is the same in both states. -/
def SameInput (s t : CPUState BaseMemory) : Prop :=
  ∀ r ∈ s.current.dataReads s, s.memory.Accessible r.1 r.2 → s.memory.read r.1 r.2 =
    t.memory.read r.1 r.2

/-- The steps from two states return both, or throw the same error, and the states after them are
equal but for the program counter and the bytes of the two instructions. -/
def StepsAlike (s t : CPUState BaseMemory) : Prop :=
  SameOutcome (TwinButPc fun i => s.Encoded i ∨ t.Encoded i) (TwinButPc fun i =>
    s.Encoded i ∨ t.Encoded i) (step s) (step t)

section Current

variable {D : ℕ → Prop} {s t u v : CPUState BaseMemory} {text : String}

theorem regular_current (s : CPUState BaseMemory) : s.current.Regular := by
  rw [CPUState.current_eq]
  exact regular_decode s.opcode

theorem valid_current (s : CPUState BaseMemory) : s.current.Valid := by
  rw [CPUState.current_eq]
  exact valid_decode s.opcode

theorem fetchOpcode_apply (h : s.memory.Accessible (s.reg regPC) .word) :
    fetchOpcode s = .ok s.opcode s := by
  rw [fetchOpcode, bind_of_ok (getReg_long named_regPC), bind_of_ok (memGet_of_accessible h)]
  rfl

/-- A listing that returns has fetched the opcode word. -/
theorem listCurrent_eq_ok (h : listCurrent s = .ok text u) :
    s.current.disassembly s = .ok text u ∧ step s = s.current.execute .cpuState s := by
  obtain ⟨opcode, s', hfetch, hlist⟩ := bind_eq_ok.1 h
  have hopcode : opcode = s.opcode ∧ s' = s := by
    rw [fetchOpcode, bind_of_ok (getReg_long named_regPC)] at hfetch
    obtain ⟨word, w, hword, hdone⟩ := bind_eq_ok.1 hfetch
    obtain ⟨-, rfl, rfl⟩ := memGet_eq_ok.1 hword
    obtain ⟨rfl, rfl⟩ := EStateM.Result.ok.inj hdone
    exact ⟨rfl, rfl⟩
  obtain ⟨rfl, rfl⟩ := hopcode
  rw [CPUState.current_eq, step, stepWith, bind_of_ok hfetch]
  exact ⟨hlist, rfl⟩

/-- Equal texts are texts of one line. -/
theorem line_eq_of_text (hs : s.current.disassembly s = .ok text u)
    (ht : t.current.disassembly t = .ok text v) :
    s.current.line s.memory (s.reg regPC) = t.current.line t.memory (t.reg regPC) := by
  refine Line.text_inj (valid_line (regular_current s) (valid_current s))
    (valid_line (regular_current t) (valid_current t)) ?_
  rw [← disassembly_eq_ok (regular_current s) hs, ← disassembly_eq_ok (regular_current t) ht]

theorem eq_bcc_of_name {d : Derived} {condition : Condition} (h : d.name = .bcc condition) :
    ∃ f, d = .bcc f ∧ f.condition = condition := by
  cases d <;> simp [Derived.name] at h
  exact ⟨_, rfl, h⟩

/-- Branches with one line do the same. -/
theorem bcc_of_line {f : BccOperand} (h : Twin D s t) (hf : s.current = .bcc f)
    (hline : s.current.line s.memory (s.reg regPC) = t.current.line t.memory (t.reg regPC))
    (hs : s.current.disassembly s = .ok text u) (ht : t.current.disassembly t = .ok text v) :
    SameOutcome (TwinButPc D) (TwinButPc D) (s.current.execute .cpuState s)
      (t.current.execute .cpuState t) := by
  have hname : t.current.name = .bcc f.condition := by
    have hname := congrArg Line.name hline
    rw [hf] at hname
    exact hname.symm
  obtain ⟨f', hf', hcond⟩ := eq_bcc_of_name hname
  rw [hf, hf'] at hline
  have htarget := congrArg Line.fields hline
  simp only [Derived.line, Derived.opcodeFields, Derived.extensionFields, List.nil_append,
    List.cons.injEq, Field.target.injEq, and_true, ← h.reg] at htarget
  have hdisplacement := (BitVec.add_right_inj _).1 (BitVec.eq_of_toNat_eq htarget)
  rw [hf] at hs ⊢
  rw [hf'] at ht ⊢
  exact bcc_sameOutcome hcond h hs ht hdisplacement.symm

/-- A `TST` of an immediate is seen from its line. -/
theorem testsImmediate_iff (d : Derived) (hd : d.Regular) (hv : d.Valid) (mem : BaseMemory)
    (pc : BitVec 32) : d.testsImmediate ↔
    (d.line mem pc).name = .tst ∧ ((d.line mem pc).field 0).operandMode = .immediate := by
  cases d with
  | tst f =>
    have hmode : (((Derived.tst f).line mem pc).field 0).operandMode = f.destMode :=
      operandMode_operandField _ _ hd hv.1.lt
    rw [hmode]
    exact decide_eq_true_iff.trans (and_iff_right rfl).symm
  | _ => exact ⟨nofun, fun h => by cases h.1⟩

theorem eq_tst_of_testsImmediate {d : Derived} (h : d.testsImmediate) :
    ∃ f, d = .tst f ∧ f.destMode = .immediate := by
  cases d with
  | tst f => exact ⟨f, rfl, of_decide_eq_true h⟩
  | _ => cases h

theorem TwinButPc.withResultFlags (h : TwinButPc D s t) (negative zero : Bool) :
    TwinButPc D (s.withResultFlags negative zero) (t.withResultFlags negative zero) :=
  ⟨(((h.1.withFlag regPC_ne_regSR _ _).withFlag regPC_ne_regSR _ _).withFlag
    regPC_ne_regSR _ _).withFlag regPC_ne_regSR _ _, h.2⟩

/-- Tests of an immediate with one line do the same, if they find the same sign. -/
theorem testsImmediate_of_line (h : Twin D s t) (hs : s.current.testsImmediate)
    (ht : t.current.testsImmediate)
    (hline : s.current.line s.memory (s.reg regPC) = t.current.line t.memory (t.reg regPC))
    (hsign : s.form.immediateSign = t.form.immediateSign)
    (hlist : s.current.disassembly s = .ok text u) (hlist' : t.current.disassembly t = .ok text v) :
    SameOutcome (TwinButPc D) (TwinButPc D) (s.current.execute .cpuState s)
      (t.current.execute .cpuState t) := by
  have hvs := valid_current s
  have hvt := valid_current t
  obtain ⟨f, hf, hmode⟩ := eq_tst_of_testsImmediate hs
  obtain ⟨g, hg, hmode'⟩ := eq_tst_of_testsImmediate ht
  rw [CPUState.form, CPUState.form, hf, hg] at hsign
  rw [hf] at hline hlist hvs ⊢
  rw [hg] at hline hlist' hvt ⊢
  obtain ⟨_, r, dataSize⟩ := f
  obtain ⟨_, r', dataSize'⟩ := g
  obtain rfl : _ = AddressingMode.immediate := hmode
  obtain rfl : _ = AddressingMode.immediate := hmode'
  obtain ⟨size, rfl⟩ := Option.isSome_iff_exists.1 hvs.2
  obtain ⟨size', rfl⟩ := Option.isSome_iff_exists.1 hvt.2
  obtain ⟨pc, hexecute⟩ := tst_immediate rfl rfl hlist
  obtain ⟨pc', hexecute'⟩ := tst_immediate rfl rfl hlist'
  have hvalue :
      immediateAt s.memory (s.reg regPC + 2) size = immediateAt t.memory (t.reg regPC + 2) size' :=
    BitVec.eq_of_toNat_eq (Field.immediate.inj (List.cons.inj (congrArg Line.fields hline)).1)
  have hzero : isZero (immediateAt s.memory (s.reg regPC + 2) size) size =
      isZero (immediateAt t.memory (t.reg regPC + 2) size') size' := by
    rw [isZero_immediateAt, isZero_immediateAt, hvalue]
  have hnegative : isNegative (immediateAt s.memory (s.reg regPC + 2) size) size =
      isNegative (immediateAt t.memory (t.reg regPC + 2) size') size' := by
    simpa [Derived.immediateSign] using hsign
  rw [hzero, hnegative] at hexecute
  exact .of_ok hexecute hexecute' ((h.withPc pc pc').withResultFlags _ _)

theorem ne_bcc_of_line (hf : ∀ f, s.current ≠ .bcc f)
    (hline : s.current.line s.memory (s.reg regPC) = t.current.line t.memory (t.reg regPC))
    (f : BccOperand) : t.current ≠ .bcc f := by
  intro ht
  have hname := congrArg Line.name hline
  rw [ht] at hname
  obtain ⟨f', hs, -⟩ := eq_bcc_of_name hname
  exact hf f' hs

namespace Derived

/-- The object that stands for all with its line and its unshown parts. -/
def representative (d : Derived) : Derived := d.canonical.normal

variable {d : Derived}

theorem Valid.representative (h : d.Valid) : d.representative.Valid := h.canonical.normal

theorem execute_representative (hv : d.Valid) (hd : d.Regular) :
    (d.representative.execute .cpuState : CpuM BaseMemory Unit) = d.execute .cpuState := by
  rw [Derived.representative, execute_normal, execute_canonical hv hd]

theorem line_representative (d : Derived) (mem : BaseMemory) (pc : BitVec 32) :
    d.representative.line mem pc = d.line mem pc := by
  rw [Derived.representative, line_normal, line_canonical]

theorem indexSizes_representative (d : Derived) (mem : BaseMemory) (pc : BitVec 32) :
    d.representative.indexSizes mem pc = d.indexSizes mem pc := by
  rw [Derived.representative, indexSizes_normal, indexSizes_canonical]

theorem dataReads_representative (d : Derived) (s : CPUState BaseMemory) :
    d.representative.dataReads s = d.dataReads s := by
  rw [Derived.representative, dataReads_normal, dataReads_canonical]

theorem canonical_ne_bcc (h : ∀ f, d ≠ .bcc f) (f : BccOperand) : d.canonical ≠ .bcc f := by
  cases d with
  | bcc g => exact absurd rfl (h g)
  | _ => nofun

theorem representative_ne_bcc (h : ∀ f, d ≠ .bcc f) (f : BccOperand) :
    d.representative ≠ .bcc f := by
  cases d with
  | bcc g => exact absurd rfl (h g)
  | _ => nofun

/-- It is read back from the line. -/
theorem representative_eq (hv : d.Valid) (hd : d.Regular) (hbcc : ∀ f, d ≠ .bcc f)
    (himm : d.testsImmediate = false)
    (mem : BaseMemory) (pc : BitVec 32) : d.representative = (d.line mem pc).object d.unshown := by
  rw [Derived.representative, ← object_line hd.canonical hv.canonical (canonical_ne_bcc hbcc),
    line_canonical, unshown, if_neg (Bool.not_eq_true _ ▸ himm)]

end Derived

theorem representative_of_line (hf : ∀ f, s.current ≠ .bcc f)
    (himm : s.current.testsImmediate = false) (himm' : t.current.testsImmediate = false)
    (hline : s.current.line s.memory (s.reg regPC) = t.current.line t.memory (t.reg regPC))
    (hunshown : s.current.unshown = t.current.unshown) :
    t.current.representative = s.current.representative := by
  rw [Derived.representative_eq (valid_current s) (regular_current s) hf himm s.memory
    (s.reg regPC), hline, hunshown, ← Derived.representative_eq (valid_current t)
    (regular_current t) (ne_bcc_of_line hf hline) himm']

/-- Other objects with one line do the same, if what the line does not show is the same. -/
theorem object_of_line (h : Twin D s t) (hf : ∀ f, s.current ≠ .bcc f)
    (himm : s.current.testsImmediate = false) (himm' : t.current.testsImmediate = false)
    (hforms : s.form.Agrees t.form) (hinput : SameInput s t)
    (hline : s.current.line s.memory (s.reg regPC) = t.current.line t.memory (t.reg regPC)) :
    SameOutcome (TwinButPc D) (TwinButPc D) (s.current.execute .cpuState s)
      (t.current.execute .cpuState t) := by
  obtain ⟨hunshown, hindex, -⟩ := hforms
  rw [object_form, object_form] at hunshown
  have hsame := representative_of_line hf himm himm' hline hunshown
  have hfields : s.current.representative.extensionFields t.memory (s.reg regPC + 2) =
      s.current.representative.extensionFields s.memory (s.reg regPC + 2) := by
    rw [← Derived.line_representative, ← Derived.line_representative t.current,
      hsame, ← h.reg] at hline
    exact (List.append_cancel_left (congrArg Line.fields hline)).symm
  have hsizes : s.current.representative.indexSizes t.memory (s.reg regPC) =
      s.current.representative.indexSizes s.memory (s.reg regPC) := by
    rw [Derived.indexSizes_representative s.current s.memory, ← hsame,
      Derived.indexSizes_representative]
    rw [CPUState.form, CPUState.form, ← h.reg] at hindex
    exact hindex.symm
  rw [SameInput, ← Derived.dataReads_representative] at hinput
  rw [← Derived.execute_representative (valid_current s) (regular_current s),
    ← Derived.execute_representative (valid_current t) (regular_current t), hsame]
  exact execute_sameOutcome (valid_current s).representative (Derived.representative_ne_bcc hf) h
    hfields hsizes hinput

/-- Forms that agree have the same effects, on the same data. -/
theorem Form.Agrees.stepsAlike (hforms : s.form.Agrees t.form) (h : PrintsAlike s t)
    (hinput : SameInput s t) : StepsAlike s t := by
  obtain ⟨hregisters, hsize, hbytes, text, u, v, hs, ht⟩ := h
  have htwin : Twin (fun i => s.Encoded i ∨ t.Encoded i) s t := ⟨hregisters, hsize, hbytes⟩
  obtain ⟨hlist, hstep⟩ := listCurrent_eq_ok hs
  obtain ⟨hlist', hstep'⟩ := listCurrent_eq_ok ht
  have hline := line_eq_of_text hlist hlist'
  rw [StepsAlike, hstep, hstep']
  by_cases hbcc : ∃ f, s.current = .bcc f
  · obtain ⟨f, hf⟩ := hbcc
    exact bcc_of_line htwin hf hline hlist hlist'
  have hsame : s.current.testsImmediate = t.current.testsImmediate := by
    rw [Bool.eq_iff_iff, testsImmediate_iff _ (regular_current s) (valid_current s), hline,
      ← testsImmediate_iff _ (regular_current t) (valid_current t)]
  cases himm : s.current.testsImmediate with
  | true =>
    exact testsImmediate_of_line htwin himm (hsame ▸ himm) hline hforms.immediateSign hlist hlist'
  | false =>
    exact object_of_line htwin (fun f h => hbcc ⟨f, h⟩) himm (hsame ▸ himm) hforms hinput hline

end Current

end M68kEmu
