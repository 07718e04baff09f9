import M68kEmu.Decode.Reserved
import M68kEmu.Frame.Classes
import M68kEmu.Frame.Faults

/-!
# Calls with the mode that does not exist

On the checked accessors an execution fails the assertion exactly if the mode that does not exist is
among those of the object (`unasserted_execute`, `asserts_execute`).
-/

namespace M68kEmu

open Outcome

/-- The computation does not fail the assertion on the mode. -/
abbrev Unasserted {α : Type} (x : CpuM BaseMemory α) : Prop :=
  ThrowsOnly (· ≠ .assertion .knownMode) x

/-- The faults of the accesses are not that assertion. -/
theorem unasserted_of_accessOnly {α : Type} {x : CpuM BaseMemory α} (h : AccessOnly x) :
    Unasserted x :=
  h.mono fun _ he heq => by rw [heq] at he; exact he

/-! ### Known modes -/

/-- The mode that does not exist is excluded, and nothing else is. -/
def Limits.known : Limits where
  Reg _ := True
  Mode mode := mode ≠ .unknown
  Size _ := True
  regPC := trivial
  regUSP := trivial
  regD0 := trivial
  immediate := by decide
  directData := by decide
  directAddr := by decide

section Known

theorem unasserted_assertKnown {mode : AddressingMode} (h : mode ≠ .unknown) :
    Unasserted (assertKnown mode) := by
  rw [assertKnown, if_neg h]
  exact .pure _

/-- A checked accessor with a known mode. -/
theorem unasserted_checked {α : Type} {mode : AddressingMode} {x : CpuM BaseMemory α}
    (h : mode ≠ .unknown) (hx : AccessOnly x) : Unasserted (do assertKnown mode; x) :=
  .bind (unasserted_assertKnown h) fun _ => unasserted_of_accessOnly hx

theorem unasserted_of_call {α : Type} {x : CpuM BaseMemory α} (hx : ExecuteCall .checked .known x) :
    Unasserted x := by
  cases hx with
  | member h => exact unasserted_of_accessOnly (accessOnly_of_call h)
  | getControlAddress hmode _ size =>
    exact unasserted_checked hmode (accessOnly_getControlAddress _ _ size)
  | getData hmode _ size => exact unasserted_checked hmode (accessOnly_getData _ _ size)
  | getDataSilent hmode _ size => exact unasserted_checked hmode (accessOnly_getDataSilent _ _ size)
  | setData hmode _ size data => exact unasserted_checked hmode (accessOnly_setData _ _ size data)
  | @readSize dataSize h =>
    rcases dataSize with _ | size
    · exact .throw (by decide)
    · exact .pure size
  | invalidOpcode => exact .throw (by decide)
  | divideByZero => exact .throw (by decide)

/-- The modes of an object are the modes that its execution passes on. -/
theorem within_known {d : Derived} (h : .unknown ∉ d.modes) : d.Within .known := by
  have hpair {a b : AddressingMode} (h : .unknown ∉ [a, b]) : a ≠ .unknown ∧ b ≠ .unknown := by
    simpa [eq_comm] using h
  have hsingle {a : AddressingMode} (h : .unknown ∉ [a]) :
      a ≠ .unknown := by simpa [eq_comm] using h
  cases d with
  | add | adda | addx | and | cmp | cmpa | eor | or | sub | suba | subx =>
    exact ⟨⟨(hpair h).2, trivial, trivial⟩, (hpair h).1, trivial⟩
  | div | mul | bitManip | move => exact ⟨⟨(hpair h).2, trivial, trivial⟩, (hpair h).1, trivial⟩
  | addi | andi | clr | cmpi | eori | ext | neg | ori | subi | tst =>
    exact ⟨hsingle h, trivial, trivial⟩
  | jmp | jsr | pea | addq | moveq | subq => exact ⟨hsingle h, trivial, trivial⟩
  | bitShift | lea => exact ⟨hsingle h, trivial, trivial⟩
  | scc => exact ⟨hsingle h, trivial⟩
  | link | unlk | bcc | illegal | nop | rts => trivial

end Known

/-- With known modes an execution fails no assertion on the mode. -/
theorem unasserted_execute {d : Derived} (h : .unknown ∉ d.modes) :
    Unasserted (d.execute .checked) :=
  (calls_execute (within_known h)).throwsOnly unasserted_of_call

/-! ### The unknown mode -/

/-- The computation fails the assertion on the mode, from every state. -/
def Asserts {α : Type} (x : CpuM BaseMemory α) : Prop :=
  ∀ s, ∃ t, x s = .error (.assertion .knownMode) t

section Asserts

variable {α β : Type} {x : CpuM BaseMemory α} {g : α → CpuM BaseMemory β}

theorem Asserts.bind (h : Asserts x) : Asserts (x >>= g) := by
  intro s
  obtain ⟨t, ht⟩ := h s
  exact ⟨t, bind_of_error ht⟩

/-- The assertion is reached after a computation that returns. -/
theorem Asserts.after (hx : ∀ s, ∃ a t, x s = .ok a t) (hg : ∀ a, Asserts (g a)) :
    Asserts (x >>= g) := by
  intro s
  obtain ⟨a, t, ht⟩ := hx s
  obtain ⟨u, hu⟩ := hg a t
  exact ⟨u, (bind_of_ok ht).trans hu⟩

theorem Asserts.afterOpcode {g : Unit → CpuM BaseMemory β} (hg : ∀ a, Asserts (g a)) :
    Asserts (skipOpcode >>= g) :=
  .after (fun s => ⟨(), _, skipOpcode_apply s⟩) hg

theorem Asserts.afterSize {dataSize : Option DataSize} {g : DataSize → CpuM BaseMemory β}
    (h : dataSize.isSome) (hg : ∀ size, Asserts (g size)) : Asserts (readSize dataSize >>= g) := by
  obtain ⟨size, rfl⟩ := Option.isSome_iff_exists.1 h
  exact .after (fun s => ⟨size, s, rfl⟩) hg

theorem asserts_assertKnown {mode : AddressingMode} (h : mode = .unknown) :
    Asserts (assertKnown mode) := by
  intro s
  rw [assertKnown, if_pos h]
  exact ⟨s, rfl⟩

theorem asserts_getData {mode : AddressingMode} (h : mode = .unknown) (reg : ℕ) (size : DataSize) :
    Asserts (Accessors.checked.getData mode reg size) := (asserts_assertKnown h).bind

theorem asserts_fetchSource {f : TwoOperand} (h : f.srcMode = .unknown) (size : DataSize) :
    Asserts (fetchSource .checked f size) := asserts_getData h _ _

theorem asserts_readModifyWrite {f : OneOperand} (hsized : f.dataSize.isSome)
    {fetch : DataSize → CpuM BaseMemory (BitVec 32)} (hfetch : ∀ size, Asserts (fetch size))
    (op : BitVec 32 → BitVec 32 → BitVec 32) (flags : DataSize → BitVec 32 → BitVec 32 → BitVec 32 →
      CpuM BaseMemory Unit) : Asserts (readModifyWrite .checked fetch f op flags) :=
  .afterOpcode fun _ => .afterSize hsized fun size => (hfetch size).bind

theorem asserts_extendedArithmetic {f : TwoOperand} (hsized : f.dataSize.isSome)
    (hsrc : f.srcMode = .unknown) (op : BitVec 32 → BitVec 32 → BitVec 32 → BitVec 32) :
    Asserts (extendedArithmetic .checked f op) :=
  .afterOpcode fun _ => .afterSize hsized fun size =>
    .after (fun s => ⟨_, s, rfl⟩) fun _ => (asserts_getData hsrc _ size).bind

theorem asserts_compareWith {f : OneOperand} (hsized : f.dataSize.isSome)
    {fetch : DataSize → CpuM BaseMemory (BitVec 32)} (hfetch : ∀ size, Asserts (fetch size)) :
    Asserts (compareWith .checked fetch f) :=
  .afterOpcode fun _ => .afterSize hsized fun size => (hfetch size).bind

end Asserts

/-- An unknown mode among those of a valid object is asserted against: it is the mode
of the first access. -/
theorem asserts_execute {d : Derived} (h : d.Valid) (hmode : .unknown ∈ d.modes) :
    Asserts (d.execute .checked) := by
  have hpair {a b : AddressingMode} (h : .unknown ∈ [a, b]) (hb : isMemoryAlterable b) :
      a = .unknown := by
    have hne := ne_unknown_of_isMemoryAlterable hb
    simp only [List.mem_cons, List.not_mem_nil, or_false] at h
    exact (h.resolve_right hne.symm).symm
  have hsingle {a : AddressingMode} (h : .unknown ∈ [a]) : a = .unknown :=
    (List.mem_singleton.1 h).symm
  cases d with
  | add f | sub f | and f | or f | eor f =>
    exact asserts_readModifyWrite h.sized (asserts_fetchSource (hpair hmode h.alterable)) _ _
  | adda f | suba f =>
    exact asserts_readModifyWrite h.sized (asserts_fetchSource (hpair hmode h.alterable))
      _ fun _ _ _ _ => pure ()
  | addx f | subx f => exact asserts_extendedArithmetic h.sized (hpair hmode h.alterable) _
  | cmp f => exact asserts_compareWith h.sized (asserts_fetchSource (hpair hmode h.alterable))
  | cmpa f =>
    exact asserts_compareWith h.sized fun size =>
      (asserts_fetchSource (hpair hmode h.alterable) size).bind
  | mul f | div f =>
    exact .afterOpcode fun _ => .afterSize h.1.sized fun size =>
      (asserts_getData (hpair hmode h.1.alterable) _ size).bind
  | bitManip f =>
    exact .afterOpcode fun _ => .afterSize h.sized fun size =>
      (asserts_getData (hpair hmode h.alterable) _ size).bind
  | move f =>
    exact .afterOpcode fun _ => .afterSize h.1.sized fun size =>
      (asserts_getData (hpair hmode h.1.alterable) _ size).bind
  | tst f =>
    exact .afterOpcode fun _ => .afterSize h.2 fun size =>
      (asserts_getData (hsingle hmode) _ size).bind
  | bitShift f => exact .afterOpcode fun _ => ((asserts_assertKnown (hsingle hmode)).bind).bind
  | addi f | subi f | andi f | ori f | eori f | cmpi f | clr f | neg f | addq f
  | subq f | moveq f =>
    exact absurd (hsingle hmode) (ne_unknown_of_isMemoryAlterable h.alterable)
  | ext f => exact absurd (hsingle hmode) (ne_unknown_of_isMemoryAlterable h.1.alterable)
  | scc f => exact absurd (hsingle hmode) (ne_unknown_of_isMemoryAlterable h.2)
  | lea f => exact absurd (hsingle hmode) (ne_unknown_of_isControlAddr h.1.2)
  | pea f | jmp f | jsr f => exact absurd (hsingle hmode) (ne_unknown_of_isControlAddr h.1.2)
  | bcc f | link addrReg | unlk addrReg | rts | nop | illegal => exact absurd hmode List.not_mem_nil

/-! ### A step -/

/-- A step calls no accessor with the mode that does not exist, and an opcode with a reserved
effective address makes it throw the invalid-opcode error. -/
structure RejectsReserved (s : CPUState BaseMemory) : Prop where
  known : ∀ t, stepWith .checked s ≠ .error (.assertion .knownMode) t
  throws : ∀ opcode t, fetchOpcode s = .ok opcode t → DecodesReserved opcode → ∃ u,
    step s = .error .invalidOpcode u

theorem unasserted_fetchOpcode : Unasserted fetchOpcode :=
  unasserted_of_accessOnly
    (accessOnly_of_members (members_fetchOpcode (R := fun _ => True) trivial))

/-- Reserved effective addresses are rejected, except where no constructor looks at them. -/
theorem rejectsReserved_iff (s : CPUState BaseMemory) :
    RejectsReserved s ↔ ∀ opcode t, fetchOpcode s = .ok opcode t → ¬UncheckedReserved opcode := by
  constructor
  · intro h opcode t hfetch hunchecked
    obtain ⟨u, hu⟩ := asserts_execute (valid_decode opcode) (unknown_mem_modes_iff.2 hunchecked) t
    exact h.known u ((bind_of_ok hfetch).trans hu)
  · intro h
    refine ⟨fun t hstep => ?_, fun opcode t hfetch hreserved => ?_⟩
    · obtain hfetch | ⟨opcode, u, hfetch, hexecute⟩ := bind_eq_error.1 hstep
      · exact unasserted_fetchOpcode s _ t hfetch rfl
      · exact unasserted_execute (fun hmode => h opcode u hfetch (unknown_mem_modes_iff.1 hmode)) u
          _ t hexecute rfl
    · have hillegal := decode_of_reserved hreserved (h opcode t hfetch)
      rw [step, stepWith, bind_of_ok hfetch, hillegal]
      exact ⟨_, bind_of_ok (skipOpcode_apply t)⟩

/-- `add.b` with a reserved source, into `D0`: the source is read as zero and the
instruction runs to its end. -/
theorem add_reserved_source_runs :
    ¬RejectsReserved (CPUState.simple [0xD0, 0x3D] fun _ => 0) ∧ DecodesReserved 0xD03D ∧
      ∃ t u, stepWith .checked (CPUState.simple [0xD0, 0x3D] fun _ => 0) =
      .error (.assertion .knownMode) t ∧
        step (CPUState.simple [0xD0, 0x3D] fun _ => 0) = .ok () u := by
  have hdecode : (decode 0xD03D).derived =
      .add { destMode := .directData, destReg := 0, dataSize := some .byte, srcMode := .unknown,
             srcReg := 13 } := by
    rw [decode_eq_opcodeEntry]
    rfl
  have hfetch : fetchOpcode (CPUState.simple [0xD0, 0x3D] fun _ => 0) =
      .ok 0xD03D (CPUState.simple [0xD0, 0x3D] fun _ => 0) := rfl
  have hrun : ∃ t u, stepWith .checked (CPUState.simple [0xD0, 0x3D] fun _ => 0) =
      .error (.assertion .knownMode) t ∧
      step (CPUState.simple [0xD0, 0x3D] fun _ => 0) = .ok () u := by
    rw [step, stepWith, stepWith, bind_of_ok hfetch, bind_of_ok hfetch, hdecode]
    exact ⟨_, _, rfl, rfl⟩
  obtain ⟨t, u, hchecked, hstep⟩ := hrun
  exact ⟨fun h => h.known t hchecked, ⟨⟨⟨0xF000, 0xD000⟩, .add⟩, rfl, by decide⟩, t, u,
    hchecked, hstep⟩

end M68kEmu
