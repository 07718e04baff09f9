import M68kEmu.Frame.Simulation
import M68kEmu.Listing.Normal
import M68kEmu.Semantics.Operand
import M68kEmu.Semantics.SignExtension

/-!
# Runs over memories that differ

Two states have the same registers, and their memories differ at some bytes only.  An accessor does
the same in both, if it takes the extension words of its operand the same way (`SameExtension`), and
reads the same data if it can read them at all.
-/

namespace M68kEmu

open Outcome

/-! ### Memories that differ -/

/-- Two memories of one length that agree off the bytes of `D`. -/
structure SameOff (D : ℕ → Prop) (m m' : BaseMemory) : Prop where
  memSize : m.memSize = m'.memSize
  bytes : ∀ i, ¬D i → m.baseAddr i = m'.baseAddr i

/-- Two states with the same registers, over memories that agree off the bytes of `D`. -/
abbrev Twin (D : ℕ → Prop) : CPUState BaseMemory → CPUState BaseMemory → Prop := Over (SameOff D)

section Memory

variable {D : ℕ → Prop} {m m' : BaseMemory} {s t : CPUState BaseMemory} {addr : BitVec 32}
    {size : DataSize}

theorem SameOff.write (h : SameOff D m m') (addr : BitVec 32) (size : DataSize) (data : BitVec 32) :
    SameOff D (m.write addr size data) (m'.write addr size data) where
  memSize := h.memSize
  bytes i hi := by
    have hput {b b' : ℕ → BitVec 8} (hb : b i = b' i) (a : ℕ) (v : BitVec 8) :
        putByte b a v i = putByte b' a v i := by
      rw [putByte, putByte, hb]
    rw [BaseMemory.write, BaseMemory.write]
    cases size with
    | byte => exact hput (h.bytes i hi) _ _
    | word => exact hput (hput (h.bytes i hi) _ _) _ _
    | long => exact hput (hput (hput (hput (h.bytes i hi) _ _) _ _) _ _) _ _

/-- A memory that is as long checks its addresses alike. -/
theorem SameOff.check (h : SameOff D m m') (address : ℕ) (size : DataSize) :
    m.check address size = m'.check address size := by
  rw [BaseMemory.check, BaseMemory.check, h.memSize]

theorem Twin.reg (h : Twin D s t) (r : ℕ) : s.reg r = t.reg r := by
  rw [CPUState.reg, CPUState.reg, h.1]

theorem Twin.withReg (h : Twin D s t) (r : ℕ) (v : BitVec 32) :
    Twin D (s.withReg r v) (t.withReg r v) :=
  ⟨by rw [CPUState.withReg, CPUState.withReg, h.1], h.2⟩

/-- A store does the same in both. -/
theorem related_memSet_twin (addr : BitVec 32) (size : DataSize) (data : BitVec 32) :
    Related (Twin D) (Twin D) (Twin D) (memSet addr size data) (memSet addr size data) := by
  intro s t h
  simp only [memSet, IMemory.set, BaseMemory.set, h.2.check]
  rcases t.memory.check (maskAddr addr.toNat) size with e | _
  · exact .inr ⟨e, _, _, rfl, rfl, h⟩
  · exact .inl ⟨(), _, _, rfl, rfl, h.1, h.2.write addr size data⟩

/-- A read is rejected in both, or returns in both. -/
theorem sameOutcome_memGet_bind {α : Type} {Q E : CPUState BaseMemory → CPUState BaseMemory → Prop}
    {f : BitVec 32 → CpuM BaseMemory α} (h : Twin D s t) (herror : E s t)
    (hf : s.memory.Accessible addr size → SameOutcome Q E (f (s.memory.read addr size) s)
      (f (t.memory.read addr size) t)) :
    SameOutcome Q E ((memGet addr size >>= f) s) ((memGet addr size >>= f) t) := by
  by_cases hacc : s.memory.Accessible addr size
  · have hacc' : t.memory.Accessible addr size := (BaseMemory.accessible_congr h.2.memSize).1 hacc
    rw [bind_of_ok (memGet_of_accessible hacc), bind_of_ok (memGet_of_accessible hacc')]
    exact hf hacc
  · obtain ⟨e, he⟩ := BaseMemory.check_of_not_accessible hacc
    have hs : memGet addr size s = .error e s := by
      simp only [memGet, IMemory.get, BaseMemory.get, he]
    have ht : memGet addr size t = .error e t := by
      rw [h.2.check] at he
      simp only [memGet, IMemory.get, BaseMemory.get, he]
    rw [bind_of_error hs, bind_of_error ht]
    exact .inr ⟨e, s, t, rfl, rfl, herror⟩

/-- So it is the same, if the data that it returns is. -/
theorem sameOutcome_memGet (h : Twin D s t)
    (hread : s.memory.Accessible addr size → s.memory.read addr size = t.memory.read addr size) :
    SameOutcome (Twin D) (Twin D) (memGet addr size s) (memGet addr size t) := by
  rw [← bind_pure (memGet addr size)]
  refine sameOutcome_memGet_bind h h fun hacc => ?_
  rw [hread hacc]
  exact .of_ok rfl rfl h

theorem related_getReg_twin (r : ℕ) (size : DataSize) :
    Related (Twin D) (Twin D) (Twin D) (getReg r size) (getReg r size) :=
  related_getReg (fun _ _ => id) r size

theorem related_setReg_twin (r : ℕ) (size : DataSize) (v : BitVec 32) :
    Related (Twin D) (Twin D) (Twin D) (setReg r size v) (setReg r size v) :=
  related_setReg (fun _ _ => id) r size v

theorem related_getFlag_twin (flag : StatusRegisterFlag) :
    Related (Twin D) (Twin D) (Twin D) (getFlag flag) (getFlag flag) :=
  related_getFlag (fun _ _ => id) flag

theorem related_stackPush_twin (size : DataSize) (data : BitVec 32) :
    Related (Twin D) (Twin D) (Twin D) (CPUState.stackPush size data)
      (CPUState.stackPush size data) :=
  (related_getReg_twin _ _).bind fun _ => (related_setReg_twin _ _ _).bind fun _ =>
    related_memSet_twin _ _ _

/-- What only commits does the same in both. -/
theorem related_commits {α : Type} {x : CpuM BaseMemory α} (h : Commits x x) :
    Related (Twin D) (Twin D) (Twin D) x x := by
  refine h.related fun h => ?_
  cases h with
  | getReg _ size => exact related_getReg_twin _ size
  | getFlag flag => exact related_getFlag_twin flag
  | setReg _ size v => exact related_setReg_twin _ size v
  | setFlag _ value => exact related_setFlag (fun _ _ => id) _ value

end Memory

/-! ### Extension words -/

/-- The word at the program counter. -/
def CPUState.fetched (s : CPUState BaseMemory) (e : DataSize) : BitVec 32 :=
  s.memory.read (s.reg regPC) e

/-- Index words with one displacement, and one register of one size. -/
structure SameIndex (w w' : BitVec 32) : Prop where
  displacement : castInt8 w' = castInt8 w
  reg : extReg w' = extReg w
  size : extRegSize w' = extRegSize w

/-- The extension words at the program counter, as far as the accessors use them: of an
index word the displacement, and the number and the size of the register; of the word of
a byte the low half. -/
def SameExtension (mode : AddressingMode) (size : DataSize) (s t : CPUState BaseMemory) : Prop :=
  match mode with
  | .indirectDisplacement | .pcDisplacement =>
    castInt16 (t.fetched .word) = castInt16 (s.fetched .word)
  | .indirectIndex | .pcIndex => SameIndex (s.fetched .word) (t.fetched .word)
  | .absWord => t.fetched .word = s.fetched .word
  | .absLong => t.fetched .long = s.fetched .long
  | .immediate =>
    let memorySize : DataSize := if size = .long then .long else .word
    (if size = .byte then mask8 (t.fetched memorySize) else t.fetched memorySize) =
      if size = .byte then mask8 (s.fetched memorySize) else s.fetched memorySize
  | _ => True

/-- The address from which an accessor reads data. -/
def dataAddress (use : Use) (mode : AddressingMode) (reg : ℕ) (size : DataSize)
    (s : CPUState BaseMemory) : Option (BitVec 32) :=
  match use, mode with
  | .address, _ | _, .directData | _, .directAddr | _, .immediate | _, .unknown => none
  | .get, .absWord => some s.extWord
  | _, mode =>
    match s.locate mode reg size with
    | .register _ => none
    | .memory addr => some addr

/-- The accessor reads the same data in both states, if it can read them. -/
def SameData (use : Use) (mode : AddressingMode) (reg : ℕ) (size : DataSize)
    (s t : CPUState BaseMemory) : Prop :=
  ∀ a ∈ dataAddress use mode reg size s, s.memory.Accessible a size → s.memory.read a size =
    t.memory.read a size

section Accessors

variable {D : ℕ → Prop} {mode : AddressingMode} {reg : ℕ} {size : DataSize}
    {s t : CPUState BaseMemory}

/-- The lines that fetch an extension word. -/
theorem sameOutcome_fetch {α : Type} {e : DataSize} {f : BitVec 32 → BitVec 32 → CpuM BaseMemory α}
    (h : Twin D s t)
    (hf : SameOutcome (Twin D) (Twin D) (f (s.reg regPC) (s.fetched e) s)
      (f (s.reg regPC) (t.fetched e) t)) :
      SameOutcome (Twin D) (Twin D)
        ((getReg regPC .long >>= fun pc => memGet pc e >>= fun ext => f pc ext) s)
      ((getReg regPC .long >>= fun pc => memGet pc e >>= fun ext => f pc ext) t) := by
  rw [bind_of_ok (getReg_long named_regPC), bind_of_ok (getReg_long named_regPC)]
  rw [CPUState.fetched, CPUState.fetched, ← h.reg] at hf
  rw [← h.reg]
  exact sameOutcome_memGet_bind h h fun _ => hf

/-- The lines that read the index register. -/
theorem sameOutcome_index {α : Type} {f : BitVec 32 → CpuM BaseMemory α} (h : Twin D s t)
    {w w' : BitVec 32} (hw : SameIndex w w')
    (hf : SameOutcome (Twin D) (Twin D) (f (s.extOffset w) s) (f (s.extOffset w) t)) :
    SameOutcome (Twin D) (Twin D) ((getExtRegOffset w >>= f) s) ((getExtRegOffset w' >>= f) t) := by
  have hoffset : t.extOffset w' = s.extOffset w := by
    rw [CPUState.extOffset, CPUState.extOffset, hw.reg, hw.size, h.reg]
  rwa [bind_of_ok (getExtRegOffset_apply _ _), bind_of_ok (getExtRegOffset_apply _ _), hoffset]

/-- A read past the extension word. -/
theorem sameOutcome_advance {pc addr : BitVec 32} (h : Twin D s t)
    (hread : s.memory.Accessible addr size → s.memory.read addr size = t.memory.read addr size) :
    SameOutcome (Twin D) (Twin D) ((setReg regPC .long pc >>= fun _ => memGet addr size) s)
      ((setReg regPC .long pc >>= fun _ => memGet addr size) t) := by
  rw [bind_of_ok (setReg_long named_regPC), bind_of_ok (setReg_long named_regPC)]
  exact sameOutcome_memGet (h.withReg regPC pc) hread

/-- `getData` does the same in both states. -/
theorem sameOutcome_getData (h : Twin D s t) (hreg : reg < 16) (hext : SameExtension mode size s t)
    (hdata : SameData .get mode reg size s t) :
    SameOutcome (Twin D) (Twin D) (CPUState.getData mode reg size s)
      (CPUState.getData mode reg size t) := by
  have hn : Named reg := named_of_lt hreg
  cases mode with
  | directData | directAddr => exact (related_getReg_twin reg size).sameOutcome h
  | indirect =>
    rw [CPUState.getData, bind_of_ok (getReg_long hn), bind_of_ok (getReg_long hn), ← h.reg]
    exact sameOutcome_memGet h (hdata _ rfl)
  | indirectPostincrement | indirectPredecrement =>
    rw [CPUState.getData, bind_of_ok (getReg_long hn), bind_of_ok (getReg_long hn), ← h.reg]
    refine (sameOutcome_memGet h (hdata _ rfl)).bind fun v u u' hu => ?_
    exact ((related_setReg_twin _ _ _).bind fun _ => .pure _).sameOutcome hu
  | indirectDisplacement =>
    rw [CPUState.getData, bind_of_ok (getReg_long hn), bind_of_ok (getReg_long hn), ← h.reg]
    refine sameOutcome_fetch h ?_
    rw [hext]
    exact sameOutcome_advance h (hdata _ rfl)
  | indirectIndex =>
    rw [CPUState.getData, bind_of_ok (getReg_long hn), bind_of_ok (getReg_long hn), ← h.reg]
    refine sameOutcome_fetch h ?_
    rw [hext.displacement]
    exact sameOutcome_index h hext (sameOutcome_advance h (hdata _ rfl))
  | pcDisplacement | absWord | absLong =>
    rw [CPUState.getData]
    refine sameOutcome_fetch h ?_
    rw [hext]
    exact sameOutcome_advance h (hdata _ rfl)
  | pcIndex =>
    rw [CPUState.getData]
    refine sameOutcome_fetch h ?_
    rw [hext.displacement]
    exact sameOutcome_index h hext (sameOutcome_advance h (hdata _ rfl))
  | immediate =>
    rw [CPUState.getData]
    refine sameOutcome_fetch h ?_
    rw [bind_of_ok (setReg_long named_regPC), bind_of_ok (setReg_long named_regPC)]
    exact .inl ⟨_, _, _, rfl, congrArg (EStateM.Result.ok · _) hext, h.withReg _ _⟩
  | unknown => exact .inl ⟨0, s, t, rfl, rfl, h⟩

/-- So does what follows a silent read, if it can tell apart data that differ only. -/
theorem sameOutcome_getDataSilent_bind {α : Type} {f : BitVec 32 → CpuM BaseMemory α}
    (h : Twin D s t) (hreg : reg < 16) (hext : SameExtension mode size s t)
    (hf : ∀ v v', (SameData .getSilent mode reg size s t → v = v') →
      SameOutcome (Twin D) (Twin D) (f v s) (f v' t)) :
    SameOutcome (Twin D) (Twin D) ((CPUState.getDataSilent mode reg size >>= f) s)
      ((CPUState.getDataSilent mode reg size >>= f) t) := by
  have hn : Named reg := named_of_lt hreg
  cases mode with
  | directData | directAddr =>
    rw [CPUState.getDataSilent, bind_of_ok (getReg_apply hn size),
      bind_of_ok (getReg_apply hn size), ← h.reg]
    exact hf _ _ fun _ => rfl
  | indirect | indirectPostincrement | indirectPredecrement =>
    simp only [CPUState.getDataSilent, bind_assoc]
    rw [bind_of_ok (getReg_long hn), bind_of_ok (getReg_long hn), ← h.reg]
    exact sameOutcome_memGet_bind h h fun hacc => hf _ _ fun hdata => hdata _ rfl hacc
  | indirectDisplacement =>
    simp only [CPUState.getDataSilent, bind_assoc]
    rw [bind_of_ok (getReg_long hn), bind_of_ok (getReg_long hn), ← h.reg]
    refine sameOutcome_fetch h ?_
    rw [hext]
    exact sameOutcome_memGet_bind h h fun hacc => hf _ _ fun hdata => hdata _ rfl hacc
  | indirectIndex =>
    simp only [CPUState.getDataSilent, bind_assoc]
    rw [bind_of_ok (getReg_long hn), bind_of_ok (getReg_long hn), ← h.reg]
    refine sameOutcome_fetch h ?_
    rw [hext.displacement]
    exact sameOutcome_index h hext (sameOutcome_memGet_bind h h fun hacc => hf _ _ fun hdata =>
      hdata _ rfl hacc)
  | pcDisplacement | absWord | absLong =>
    simp only [CPUState.getDataSilent, bind_assoc]
    refine sameOutcome_fetch h ?_
    rw [hext]
    exact sameOutcome_memGet_bind h h fun hacc => hf _ _ fun hdata => hdata _ rfl hacc
  | pcIndex =>
    simp only [CPUState.getDataSilent, bind_assoc]
    refine sameOutcome_fetch h ?_
    rw [hext.displacement]
    exact sameOutcome_index h hext (sameOutcome_memGet_bind h h fun hacc => hf _ _ fun hdata =>
      hdata _ rfl hacc)
  | immediate =>
    simp only [CPUState.getDataSilent, bind_assoc]
    refine sameOutcome_fetch h ?_
    rw [pure_bind, pure_bind]
    exact hf _ _ fun _ => hext.symm
  | unknown =>
    rw [CPUState.getDataSilent, pure_bind]
    exact hf 0 0 fun _ => rfl

/-- So does `getDataSilent`. -/
theorem sameOutcome_getDataSilent (h : Twin D s t) (hreg : reg < 16)
    (hext : SameExtension mode size s t) (hdata : SameData .getSilent mode reg size s t) :
    SameOutcome (Twin D) (Twin D) (CPUState.getDataSilent mode reg size s)
      (CPUState.getDataSilent mode reg size t) := by
  rw [← bind_pure (CPUState.getDataSilent mode reg size)]
  refine sameOutcome_getDataSilent_bind h hreg hext fun v v' hv => ?_
  rw [hv hdata]
  exact .of_ok rfl rfl h

/-- So does `setData`, which reads no data. -/
theorem sameOutcome_setData (h : Twin D s t) (hreg : reg < 16) (hext : SameExtension mode size s t)
    (data : BitVec 32) :
    SameOutcome (Twin D) (Twin D) (CPUState.setData mode reg size data s)
      (CPUState.setData mode reg size data t) := by
  have hn : Named reg := named_of_lt hreg
  cases mode with
  | directData | directAddr => exact (related_setReg_twin reg size data).sameOutcome h
  | indirect =>
    rw [CPUState.setData, bind_of_ok (getReg_long hn), bind_of_ok (getReg_long hn), ← h.reg]
    exact (related_memSet_twin _ size data).sameOutcome h
  | indirectPostincrement | indirectPredecrement =>
    rw [CPUState.setData, bind_of_ok (getReg_long hn), bind_of_ok (getReg_long hn), ← h.reg]
    exact ((related_memSet_twin _ size data).bind fun _ => related_setReg_twin _ _ _).sameOutcome h
  | indirectDisplacement =>
    rw [CPUState.setData, bind_of_ok (getReg_long hn), bind_of_ok (getReg_long hn), ← h.reg]
    refine sameOutcome_fetch h ?_
    rw [hext]
    exact ((related_setReg_twin _ _ _).bind fun _ => related_memSet_twin _ size data).sameOutcome h
  | indirectIndex =>
    rw [CPUState.setData, bind_of_ok (getReg_long hn), bind_of_ok (getReg_long hn), ← h.reg]
    refine sameOutcome_fetch h ?_
    rw [hext.displacement]
    refine sameOutcome_index h hext ?_
    exact ((related_setReg_twin _ _ _).bind fun _ => related_memSet_twin _ size data).sameOutcome h
  | absWord =>
    rw [CPUState.setData]
    refine sameOutcome_fetch h ?_
    rw [hext]
    exact ((related_memSet_twin _ size data).bind fun _ => related_setReg_twin _ _ _).sameOutcome h
  | absLong =>
    rw [CPUState.setData]
    refine sameOutcome_fetch h ?_
    rw [hext]
    exact ((related_setReg_twin _ _ _).bind fun _ => related_memSet_twin _ size data).sameOutcome h
  | pcDisplacement | pcIndex | immediate | unknown => exact .inl ⟨(), s, t, rfl, rfl, h⟩

/-- So does `getControlAddress`. -/
theorem sameOutcome_getControlAddress (h : Twin D s t) (hreg : reg < 16)
    (hext : SameExtension mode size s t) :
    SameOutcome (Twin D) (Twin D) (CPUState.getControlAddress mode reg size s)
      (CPUState.getControlAddress mode reg size t) := by
  have hn : Named reg := named_of_lt hreg
  cases mode with
  | indirect => exact (related_getReg_twin reg .long).sameOutcome h
  | indirectDisplacement =>
    rw [CPUState.getControlAddress, bind_of_ok (getReg_long hn),
      bind_of_ok (getReg_long hn), ← h.reg]
    refine sameOutcome_fetch h ?_
    rw [hext]
    exact ((related_setReg_twin _ _ _).bind fun _ => .pure _).sameOutcome h
  | indirectIndex =>
    rw [CPUState.getControlAddress, bind_of_ok (getReg_long hn),
      bind_of_ok (getReg_long hn), ← h.reg]
    refine sameOutcome_fetch h ?_
    rw [hext.displacement]
    exact sameOutcome_index h hext
      (((related_setReg_twin _ _ _).bind fun _ => .pure _).sameOutcome h)
  | pcDisplacement =>
    rw [CPUState.getControlAddress]
    refine sameOutcome_fetch h ?_
    rw [hext]
    exact ((related_setReg_twin _ _ _).bind fun _ => .pure _).sameOutcome h
  | pcIndex =>
    rw [CPUState.getControlAddress]
    refine sameOutcome_fetch h ?_
    rw [hext.displacement]
    exact sameOutcome_index h hext
      (((related_setReg_twin _ _ _).bind fun _ => .pure _).sameOutcome h)
  | absWord | absLong =>
    -- the program counter is moved before the address is fetched
    rw [CPUState.getControlAddress, bind_of_ok (getReg_long named_regPC),
      bind_of_ok (getReg_long named_regPC),
      bind_of_ok (setReg_long named_regPC), bind_of_ok (setReg_long named_regPC), ← h.reg]
    refine sameOutcome_memGet (h.withReg _ _) fun _ => ?_
    have hword := hext.symm
    rwa [CPUState.fetched, CPUState.fetched, ← h.reg] at hword
  | immediate | indirectPostincrement | indirectPredecrement | directAddr | directData | unknown =>
    exact .inl ⟨0, s, t, rfl, rfl, h⟩

/-- The address apart, `getControlAddress` does the same whatever the extension words are. -/
theorem sameOutcome_controlAddress_unit (h : Twin D s t) (hreg : reg < 16) :
    SameOutcome (Twin D) (Twin D)
      ((CPUState.getControlAddress mode reg size >>= fun _ => pure ()) s)
      ((CPUState.getControlAddress mode reg size >>= fun _ => pure ()) t) := by
  have hn : Named reg := named_of_lt hreg
  have hmove (v : BitVec 32) : SameOutcome (Twin D) (Twin D)
      ((setReg regPC .long v >>= fun _ => pure ()) s)
      ((setReg regPC .long v >>= fun _ => pure ()) t) :=
    ((related_setReg_twin _ _ _).bind fun _ => .pure ()).sameOutcome h
  cases mode with
  | indirect => exact ((related_getReg_twin reg .long).bind fun _ => .pure ()).sameOutcome h
  | indirectDisplacement =>
    simp only [CPUState.getControlAddress, bind_assoc, pure_bind]
    rw [bind_of_ok (getReg_long hn), bind_of_ok (getReg_long hn)]
    exact sameOutcome_fetch h (hmove _)
  | indirectIndex =>
    simp only [CPUState.getControlAddress, bind_assoc, pure_bind]
    rw [bind_of_ok (getReg_long hn), bind_of_ok (getReg_long hn)]
    refine sameOutcome_fetch h ?_
    rw [bind_of_ok (getExtRegOffset_apply _ _), bind_of_ok (getExtRegOffset_apply _ _)]
    exact hmove _
  | pcDisplacement =>
    simp only [CPUState.getControlAddress, bind_assoc, pure_bind]
    exact sameOutcome_fetch h (hmove _)
  | pcIndex =>
    simp only [CPUState.getControlAddress, bind_assoc, pure_bind]
    refine sameOutcome_fetch h ?_
    rw [bind_of_ok (getExtRegOffset_apply _ _), bind_of_ok (getExtRegOffset_apply _ _)]
    exact hmove _
  | absWord | absLong =>
    simp only [CPUState.getControlAddress, bind_assoc]
    rw [bind_of_ok (getReg_long named_regPC), bind_of_ok (getReg_long named_regPC),
      bind_of_ok (setReg_long named_regPC), bind_of_ok (setReg_long named_regPC), ← h.reg]
    exact sameOutcome_memGet_bind (h.withReg _ _) (h.withReg _ _) fun _ =>
      .of_ok rfl rfl (h.withReg _ _)
  | immediate | indirectPostincrement | indirectPredecrement | directAddr | directData | unknown =>
    exact .of_ok rfl rfl h

/-- So does what follows, if it does the same for all addresses. -/
theorem sameOutcome_controlAddress_bind {Q E : CPUState BaseMemory → CPUState BaseMemory → Prop}
    {f : BitVec 32 → CpuM BaseMemory Unit} (h : Twin D s t) (hreg : reg < 16)
    (hE : ∀ u v, Twin D u v → E u v)
    (hf : ∀ a a' u v, Twin D u v → SameOutcome Q E (f a u) (f a' v)) :
    SameOutcome Q E ((CPUState.getControlAddress mode reg size >>= f) s)
      ((CPUState.getControlAddress mode reg size >>= f) t) := by
  obtain ⟨_, u, v, hu, hv, huv⟩ | ⟨e, u, v, hu, hv, huv⟩ :=
    sameOutcome_controlAddress_unit (D := D) h hreg
  · obtain ⟨a, u, ha, ⟨⟩⟩ := bind_eq_ok.1 hu
    obtain ⟨a', v, ha', ⟨⟩⟩ := bind_eq_ok.1 hv
    rw [bind_of_ok ha, bind_of_ok ha']
    exact hf a a' _ _ huv
  · obtain hs | ⟨_, _, _, ⟨⟩⟩ := bind_eq_error.1 hu
    obtain ht | ⟨_, _, _, ⟨⟩⟩ := bind_eq_error.1 hv
    rw [bind_of_error hs, bind_of_error ht]
    exact .inr ⟨e, u, v, rfl, rfl, hE u v huv⟩

end Accessors

/-! ### The operands of an object -/

namespace Operand

/-- The size of the index register. -/
def indexSize (o : Operand) (mem : BaseMemory) (pc : BitVec 32) : Option DataSize :=
  match o.mode with
  | .indirectIndex | .pcIndex => some (extRegSize (mem.read pc .word))
  | _ => none

/-- `getData`, which moves the registers as every accessor does. -/
def getData (o : Operand) : CpuM BaseMemory (BitVec 32) := CPUState.getData o.mode o.reg o.size

/-- The read of data, if there is one. -/
def dataRead (o : Operand) (s : CPUState BaseMemory) : Option (BitVec 32 × DataSize) :=
  (dataAddress o.use o.mode o.reg o.size s).map fun addr => (addr, o.size)

end Operand

/-- The sizes of the index registers of the operands from an address on. -/
def indexSizesAt (mem : BaseMemory) (pc : BitVec 32) : List Operand → List (Option DataSize)
  | [] => []
  | o :: os => o.indexSize mem pc :: indexSizesAt mem (pc + o.part.length) os

/-- The reads of the operands, one after the other. -/
def operandReads : List Operand → CPUState BaseMemory → List (BitVec 32 × DataSize)
  | [], _ => []
  | o :: os, s => (o.dataRead s).toList ++
    match o.getData s with
    | .ok _ t => operandReads os t
    | .error _ _ => []

/-- The operands are taken the same way in both states, one after the other. -/
def Ready (D : ℕ → Prop) : List Operand → CPUState BaseMemory → CPUState BaseMemory → Prop
  | [], s, t => Twin D s t
  | o :: os, s, t => Twin D s t ∧ SameExtension o.mode o.size s t ∧
      SameData o.use o.mode o.reg o.size s t ∧
    (o.use = .get → ∀ v s' t', o.getData s = .ok v s' → o.getData t = .ok v t' → Ready D os s' t')

section Operands

variable {D : ℕ → Prop} {o : Operand} {os : List Operand} {s t : CPUState BaseMemory}

theorem Ready.twin (h : Ready D os s t) : Twin D s t := by
  cases os with
  | nil => exact h
  | cons o os => exact h.1

theorem related_getData (hreg : o.reg < 16) (huse : o.use = .get) :
    Related (Ready D (o :: os)) (Ready D os) (Twin D) (CPUState.getData o.mode o.reg o.size)
      (CPUState.getData o.mode o.reg o.size) := by
  rintro s t ⟨htwin, hext, hdata, hrest⟩
  rw [huse] at hdata
  obtain ⟨v, s', t', hs, ht, -⟩ | herror := sameOutcome_getData htwin hreg hext hdata
  · exact .inl ⟨v, s', t', hs, ht, hrest huse v s' t' hs ht⟩
  · exact .inr herror

/-- A silent read leaves the operand to be written. -/
theorem related_getDataSilent (hreg : o.reg < 16) (huse : o.use = .getSilent) :
    Related (Ready D (o :: os)) (Ready D (o :: os)) (Twin D)
      (CPUState.getDataSilent o.mode o.reg o.size)
      (CPUState.getDataSilent o.mode o.reg o.size) := by
  rintro s t h
  obtain ⟨htwin, hext, hdata, -⟩ := id h
  rw [huse] at hdata
  obtain ⟨v, s', t', hs, ht, -⟩ | herror := sameOutcome_getDataSilent htwin hreg hext hdata
  · have hs' := after_getDataSilent o.mode o.reg o.size s
    have ht' := after_getDataSilent o.mode o.reg o.size t
    rw [after_of_ok hs] at hs'
    rw [after_of_ok ht] at ht'
    exact .inl ⟨v, s', t', hs, ht, by rw [hs', ht']; exact h⟩
  · exact .inr herror

theorem related_setData (hreg : o.reg < 16) (data : BitVec 32) :
    Related (Ready D (o :: os)) (Twin D) (Twin D) (CPUState.setData o.mode o.reg o.size data)
      (CPUState.setData o.mode o.reg o.size data) :=
  fun _ _ h => sameOutcome_setData h.1 hreg h.2.1 data

theorem related_getControlAddress (hreg : o.reg < 16) :
    Related (Ready D (o :: os)) (Twin D) (Twin D) (CPUState.getControlAddress o.mode o.reg o.size)
      (CPUState.getControlAddress o.mode o.reg o.size) :=
  fun _ _ h => sameOutcome_getControlAddress h.1 hreg h.2.1

/-! What makes the operands ready. -/

theorem setWidth_castInt8_inj {w w' : BitVec 32}
    (h : (castInt8 w).setWidth 16 = (castInt8 w').setWidth 16) :
    castInt8 w = castInt8 w' := by
  have hlow (v : BitVec 32) : ((castInt8 v).setWidth 16).setWidth 8 = v.setWidth 8 := by
    rw [castInt8, setWidth_signExtend _ (by decide), setWidth_signExtend _ (by decide),
      BitVec.signExtend_eq]
  refine castInt8_congr ?_
  rw [← hlow w, h, hlow]

/-- A field shows all that the accessors use of the extension words, but the size of
an index register. -/
theorem sameExtension_of_field (hfield : o.field t.memory (t.reg regPC) =
      o.field s.memory (s.reg regPC))
    (hindex : o.indexSize t.memory (t.reg regPC) = o.indexSize s.memory (s.reg regPC)) :
    SameExtension o.mode o.size s t := by
  obtain ⟨use, mode, reg, size⟩ := o
  cases mode with
  | directData | directAddr | indirect | indirectPostincrement | indirectPredecrement
  | unknown => trivial
  | indirectDisplacement =>
    have hword := BitVec.eq_of_toNat_eq (Field.displacement.inj hfield).1
    exact congrArg (BitVec.signExtend 32) hword
  | indirectIndex =>
    obtain ⟨hdisplacement, -, hreg⟩ := Field.index.inj hfield
    exact ⟨setWidth_castInt8_inj (BitVec.eq_of_toNat_eq hdisplacement), hreg,
      Option.some.inj hindex⟩
  | pcDisplacement =>
    have hsum := BitVec.eq_of_toNat_eq (Field.displacement.inj hfield).1
    exact (BitVec.add_left_inj _).1 hsum
  | pcIndex =>
    obtain ⟨hdisplacement, -, hreg⟩ := Field.index.inj hfield
    exact ⟨(BitVec.add_left_inj _).1 (BitVec.eq_of_toNat_eq hdisplacement), hreg,
      Option.some.inj hindex⟩
  | absWord => exact BitVec.eq_of_toNat_eq (Field.absWord.inj hfield)
  | absLong => exact BitVec.eq_of_toNat_eq (Field.absLong.inj hfield)
  | immediate => exact BitVec.eq_of_toNat_eq (Field.immediate.inj hfield)

/-- What `getData` leaves for the operands after it. -/
theorem frame_of_getData (hreg : o.reg < 16) {v : BitVec 32} (h : o.getData s = .ok v t) :
    t.memory = s.memory ∧ t.reg regPC = s.reg regPC + o.part.length := by
  constructor
  · have hreads : Reads Named o.getData o.getData :=
      reads_getData named_regPC (fun _ => named_of_lt hreg) o.size
    have hkept :=
      keeps_of_reads (p := fun u => u.memory = s.memory) hreads (fun _ => id)
        (fun _ _ _ _ hu => hu) rfl
    rwa [after_of_ok h] at hkept
  · have hconsumed := consumes_getData (F := fun _ => False) hreg s v t h
    rw [hconsumed.moved regPC named_regPC id, delta, Part.delta_regPC]
    exact congrArg _ (BitVec.add_zero _)

/-- Operands with the same fields are ready, if they have the same index sizes and
read the same data. -/
theorem ready_of_fields (h : Twin D s t) (hreg : ∀ o ∈ os, o.reg < 16)
    (hfields : fieldsAt t.memory (t.reg regPC) os = fieldsAt s.memory (s.reg regPC) os)
    (hindex : indexSizesAt t.memory (t.reg regPC) os = indexSizesAt s.memory (s.reg regPC) os)
    (hdata : ∀ r ∈ operandReads os s, s.memory.Accessible r.1 r.2 → s.memory.read r.1 r.2 =
      t.memory.read r.1 r.2) : Ready D os s t := by
  induction os generalizing s t with
  | nil => exact h
  | cons o os ih =>
    obtain ⟨hfield, hfields⟩ := List.cons.inj hfields
    obtain ⟨hsize, hindex⟩ := List.cons.inj hindex
    have hlt : o.reg < 16 := hreg o List.mem_cons_self
    have hext := sameExtension_of_field hfield hsize
    have hsame : SameData o.use o.mode o.reg o.size s t := fun a ha =>
      hdata (a, o.size) (List.mem_append_left _ (Option.mem_toList.2 (Option.mem_map_of_mem _ ha)))
    refine ⟨h, hext, hsame, fun huse v s' t' hs ht => ?_⟩
    rw [huse] at hsame
    obtain ⟨hmem, hpc⟩ := frame_of_getData hlt hs
    obtain ⟨hmem', hpc'⟩ := frame_of_getData hlt ht
    have htwin : Twin D s' t' := by
      obtain ⟨w, u, u', hu, hu', hw⟩ | ⟨e, u, u', hu, -, -⟩ := sameOutcome_getData h hlt hext hsame
      · obtain ⟨-, rfl⟩ := EStateM.Result.ok.inj (hs.symm.trans hu)
        obtain ⟨-, rfl⟩ := EStateM.Result.ok.inj (ht.symm.trans hu')
        exact hw
      · cases hs.symm.trans hu
    refine ih htwin (fun p hp => hreg p (List.mem_cons_of_mem o hp)) ?_ ?_ fun r hr => ?_
    · rw [hmem, hmem', hpc, hpc']
      exact hfields
    · rw [hmem, hmem', hpc, hpc']
      exact hindex
    · rw [hmem, hmem']
      refine hdata r (List.mem_append_right _ ?_)
      rw [hs]
      exact hr

end Operands

end M68kEmu
