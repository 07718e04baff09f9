import M68kEmu.Frame.Bytes
import M68kEmu.Frame.Consumption
import M68kEmu.Model.LoadElf
import Mathlib.Data.List.Pairwise

/-!
# Program images

`load_elf` copies the allocated sections of one type, `SHT_PROGBITS`.  A loaded program needs every
byte of every allocated section (`Image`); it has them exactly when the bytes of the allocated
sections of other types, uninitialised data among them, were in memory before.
-/

namespace M68kEmu

open Outcome

/-! ### The image that is meant -/

namespace ElfSection

/-- The section occupies memory. -/
def Allocated (segment : ElfSection) : Prop := segment.flags &&& shfAlloc ≠ 0

/-- The address is one of the section. -/
def Covers (segment : ElfSection) (addr : ℕ) : Prop :=
  segment.address.toNat ≤ addr ∧ addr < segment.address.toNat + segment.size.toNat

instance (segment : ElfSection) : Decidable segment.Allocated := inferInstanceAs (Decidable (_ ≠ _))

instance (segment : ElfSection) : DecidablePred segment.Covers :=
  fun _ => inferInstanceAs (Decidable (_ ∧ _))

/-- The byte that belongs at an address of the section. -/
def contents (segment : ElfSection) (addr : ℕ) : BitVec 8 :=
  if segment.type = shtNobits then 0 else segment.data (addr - segment.address.toNat)

theorem isLoaded_iff (segment : ElfSection) : segment.isLoaded ↔
    segment.type = ptLoad ∧ segment.Allocated := by
  simp [isLoaded, Allocated]

end ElfSection

/-- The allocated sections lie in the address space and do not overlap. -/
structure Separated (sections : List ElfSection) : Prop where
  below : ∀ segment ∈ sections, segment.Allocated → ∀ addr, segment.Covers addr → addr < 2 ^ 24
  disjoint : sections.Pairwise fun segment segment' =>
    segment.Allocated → segment'.Allocated → ∀ addr, segment.Covers addr → ¬segment'.Covers addr

/-- Every byte of every allocated section is in memory. -/
def Image (sections : List ElfSection) (bytes : ℕ → BitVec 8) : Prop :=
  ∀ segment ∈ sections, segment.Allocated → ∀ addr, segment.Covers addr →
    bytes addr = segment.contents addr

/-- The state is ready to run the program. -/
structure ProgramLoaded (file : ElfFile) (t : CPUState BaseMemory) : Prop where
  image : Image file.sections t.memory.baseAddr
  pc : (t.reg regPC).toNat = file.entry.toNat
  sp : t.reg regUSP = memorySize

/-! ### The copy loops -/

section Copy

variable {s t : CPUState BaseMemory} {u : Unit}

theorem setWidth_mask8_signExtend (b : BitVec 8) : (mask8 (b.signExtend 32)).setWidth 8 = b := by
  rw [mask8, BitVec.setWidth_and]
  ext i hi
  have h255 : ((0xff : BitVec 32).setWidth 8) = BitVec.allOnes 8 := by decide
  rw [h255, BitVec.and_allOnes]
  simp [BitVec.getLsbD_signExtend, hi]
  omega

/-- What a copy leaves: the bytes that `covered` says are those of `data`, and the
others are as before. -/
structure Copied (covered : ℕ → Prop) (data : ℕ → BitVec 8) (s t : CPUState BaseMemory) : Prop where
  registers : t.registers = s.registers
  memSize : t.memory.memSize = s.memory.memSize
  copied : ∀ addr, covered addr → t.memory.baseAddr addr = data addr
  kept : ∀ addr, ¬covered addr → t.memory.baseAddr addr = s.memory.baseAddr addr

theorem copied_of_copySection {segment : ElfSection} {n : ℕ}
    (hbelow : ∀ i < n, segment.address.toNat + i < 2 ^ 24) (h : copySection segment n s = .ok u t) :
    Copied (fun addr => segment.address.toNat ≤ addr ∧ addr < segment.address.toNat + n)
      (fun addr => segment.data (addr - segment.address.toNat)) s t := by
  induction n generalizing t with
  | zero =>
    obtain ⟨-, rfl⟩ := EStateM.Result.ok.inj h
    exact ⟨rfl, rfl, fun addr haddr => by omega, fun _ _ => rfl⟩
  | succ n ih =>
    obtain ⟨_, s₁, hrest, hset⟩ := bind_eq_ok.1 h
    obtain ⟨-, rfl⟩ := memSet_eq_ok.1 hset
    have hcopied := ih (fun i hi => hbelow i (by omega)) hrest
    have hlast := hbelow n (Nat.lt_succ_self n)
    have haddr : maskAddr (segment.address.setWidth 32 + BitVec.ofNat 32 n).toNat =
        segment.address.toNat + n := by
      rw [maskAddr_eq_mod, BitVec.toNat_add, BitVec.toNat_setWidth, BitVec.toNat_ofNat]
      omega
    have hbyte (addr : ℕ) : (s₁.stored (segment.address.setWidth 32 + BitVec.ofNat 32 n) .byte
        ((segment.data n).signExtend 32)).memory.baseAddr addr =
          if addr = segment.address.toNat + n then segment.data n else s₁.memory.baseAddr addr := by
      rw [CPUState.stored, BaseMemory.write, haddr, writeRealMem, setWidth_mask8_signExtend]
      rfl
    refine ⟨hcopied.registers, hcopied.memSize, fun addr hcov => ?_, fun addr hcov => ?_⟩
    · rw [hbyte]
      split_ifs with heq
      · rw [heq, Nat.add_sub_cancel_left]
      · exact hcopied.copied addr (by omega)
    · rw [hbyte, if_neg (by omega), hcopied.kept addr (by omega)]

/-- The number of bytes that the loop counts, for a section in the address space. -/
theorem size_of_below {segment : ElfSection}
    (hbelow : ∀ addr, segment.Covers addr → addr < 2 ^ 24) :
    (segment.size.setWidth 32).toNat = segment.size.toNat := by
  rw [BitVec.toNat_setWidth]
  by_cases hsize : segment.size.toNat = 0
  · rw [hsize]
  · have hlast := hbelow (segment.address.toNat + segment.size.toNat - 1) ⟨by omega, by omega⟩
    exact Nat.mod_eq_of_lt (by omega)

theorem copySections_cons {M : Type} [IMemory M] (segment : ElfSection) (rest : List ElfSection) :
    copySections (M := M) (segment :: rest) =
      (if segment.isLoaded then copySection segment (segment.size.setWidth 32).toNat
        else pure ()) >>= fun _ => copySections rest := by
  rw [copySections]
  split_ifs <;> rfl

/-- The sections, one after the other. -/
theorem copied_of_copySections {sections : List ElfSection} (hsep : Separated sections)
    (h : copySections sections s = .ok u t) :
    t.registers = s.registers ∧ t.memory.memSize = s.memory.memSize ∧
      (∀ segment ∈ sections, segment.isLoaded → ∀ addr, segment.Covers addr →
        t.memory.baseAddr addr = segment.data (addr - segment.address.toNat)) ∧
      ∀ addr, (∀ segment ∈ sections, segment.isLoaded → ¬segment.Covers addr) →
        t.memory.baseAddr addr = s.memory.baseAddr addr := by
  induction sections generalizing s with
  | nil =>
    obtain ⟨-, rfl⟩ := EStateM.Result.ok.inj h
    exact ⟨rfl, rfl, fun _ h => absurd h List.not_mem_nil, fun _ _ => rfl⟩
  | cons segment rest ih =>
    obtain ⟨hfirst, hpairs⟩ := List.pairwise_cons.1 hsep.disjoint
    have hseprest : Separated rest := ⟨fun x hx => hsep.below x (List.mem_cons_of_mem _ hx), hpairs⟩
    rw [copySections_cons] at h
    obtain ⟨_, s₁, hcopy, hrest⟩ := bind_eq_ok.1 h
    obtain ⟨hregs, hsize, hcopied, hkept⟩ := ih hseprest hrest
    by_cases hloaded : segment.isLoaded = true
    · rw [if_pos hloaded] at hcopy
      have halloc := ((segment.isLoaded_iff).1 hloaded).2
      have hbelow := hsep.below segment List.mem_cons_self halloc
      rw [size_of_below hbelow] at hcopy
      have hhead := copied_of_copySection (fun i hi => hbelow _ ⟨by omega, by omega⟩) hcopy
      refine ⟨hregs.trans hhead.registers, hsize.trans hhead.memSize, fun x hx hx' addr hcov => ?_,
        fun addr hout => ?_⟩
      · obtain rfl | hx := List.mem_cons.1 hx
        · -- the later sections do not touch it
          rw [hkept addr fun y hy hy' => hfirst y hy halloc ((y.isLoaded_iff).1 hy').2 addr hcov]
          exact hhead.copied addr hcov
        · exact hcopied x hx hx' addr hcov
      · rw [hkept addr fun y hy => hout y (List.mem_cons_of_mem _ hy)]
        exact hhead.kept addr (hout segment List.mem_cons_self hloaded)
    · rw [if_neg hloaded] at hcopy
      obtain ⟨-, rfl⟩ := EStateM.Result.ok.inj hcopy
      refine ⟨hregs, hsize, fun x hx hx' addr hcov => ?_, fun addr hout => ?_⟩
      · obtain rfl | hx := List.mem_cons.1 hx
        · exact absurd hx' hloaded
        · exact hcopied x hx hx' addr hcov
      · exact hkept addr fun y hy => hout y (List.mem_cons_of_mem _ hy)

end Copy

/-! ### The loader -/

/-- The bytes of the allocated sections that are not of type `SHT_PROGBITS` are in memory. -/
def OthersPresent (sections : List ElfSection) (bytes : ℕ → BitVec 8) : Prop :=
  ∀ segment ∈ sections, segment.Allocated → segment.type ≠ ptLoad → ∀ addr, segment.Covers addr →
    bytes addr = segment.contents addr

section Loader

variable {s t : CPUState BaseMemory} {load : String → Option ElfFile} {fileName : String}
    {file : ElfFile}

theorem loadElf_eq_true (hload : load fileName = some file)
    (h : loadElf load fileName s = .ok true t) :
    file.elfClass = elfClass32 ∧ ∃ s₁, copySections file.sections s = .ok () s₁ ∧
      t = (s₁.withReg regUSP memorySize).withReg regPC (file.entry.setWidth 32) := by
  rw [loadElf, hload] at h
  dsimp only at h
  split_ifs at h with hheader
  · obtain ⟨hfalse, -⟩ := EStateM.Result.ok.inj h
    cases hfalse
  · obtain ⟨_, s₁, hcopy, h⟩ := bind_eq_ok.1 h
    rw [bind_of_ok (setReg_long named_regUSP), bind_of_ok (setReg_long named_regPC)] at h
    obtain ⟨-, rfl⟩ := EStateM.Result.ok.inj h
    refine ⟨?_, s₁, hcopy, rfl⟩
    by_contra hclass
    exact hheader (.inl hclass)

theorem loadElf_eq_false (h : loadElf load fileName s = .ok false t) : t = s := by
  rw [loadElf] at h
  rcases hload : load fileName with _ | file <;> rw [hload] at h <;> dsimp only at h
  · obtain ⟨-, rfl⟩ := EStateM.Result.ok.inj h
    rfl
  · split_ifs at h with hheader
    · obtain ⟨-, rfl⟩ := EStateM.Result.ok.inj h
      rfl
    · obtain ⟨_, s₁, hcopy, h⟩ := bind_eq_ok.1 h
      rw [bind_of_ok (setReg_long named_regUSP), bind_of_ok (setReg_long named_regPC)] at h
      obtain ⟨hfalse, -⟩ := EStateM.Result.ok.inj h
      cases hfalse

/-- The copied sections are right; so the image is there if the others were. -/
theorem image_iff (hsep : Separated file.sections) {s₁ : CPUState BaseMemory} {u : Unit}
    (hcopy : copySections file.sections s = .ok u s₁) :
    Image file.sections s₁.memory.baseAddr ↔ OthersPresent file.sections s.memory.baseAddr := by
  obtain ⟨-, -, hcopied, hkept⟩ := copied_of_copySections hsep hcopy
  -- a byte of a section of another type belongs to no section that is copied
  have hother (segment : ElfSection) (hmem : segment ∈ file.sections) (halloc : segment.Allocated)
      (htype : segment.type ≠ ptLoad) (addr : ℕ) (hcov : segment.Covers addr) :
      s₁.memory.baseAddr addr = s.memory.baseAddr addr := by
    refine hkept addr fun x hx hx' hcov' => ?_
    obtain ⟨hxtype, hxalloc⟩ := (x.isLoaded_iff).1 hx'
    have hne : x ≠ segment := fun heq => htype (heq ▸ hxtype)
    have hsymm : Std.Symm fun x y : ElfSection =>
        x.Allocated → y.Allocated → ∀ addr, x.Covers addr → ¬y.Covers addr :=
      ⟨fun x y hxy hy hx addr hcov hcov' => hxy hx hy addr hcov' hcov⟩
    exact hsep.disjoint.forall hx hmem hne hxalloc halloc addr hcov' hcov
  constructor
  · intro himage segment hmem halloc htype addr hcov
    rw [← hother segment hmem halloc htype addr hcov]
    exact himage segment hmem halloc addr hcov
  · intro hpresent segment hmem halloc addr hcov
    by_cases htype : segment.type = ptLoad
    · have hnobits : segment.type ≠ shtNobits := by rw [htype]; decide
      rw [hcopied segment hmem ((segment.isLoaded_iff).2 ⟨htype, halloc⟩) addr hcov,
        ElfSection.contents, if_neg hnobits]
    · rw [hother segment hmem halloc htype addr hcov]
      exact hpresent segment hmem halloc htype addr hcov

/-- `load_elf` leaves the state alone when it returns false.  When it returns true, the program is
loaded exactly when the bytes of the allocated sections that it skips were in memory before. -/
theorem loadElf_loads_iff (load : String → Option ElfFile) (fileName : String)
    (s t : CPUState BaseMemory) : (loadElf load fileName s = .ok false t → t = s) ∧
    ∀ file, load fileName = some file → Separated file.sections →
    loadElf load fileName s = .ok true t →
      (ProgramLoaded file t ↔ OthersPresent file.sections s.memory.baseAddr) := by
  refine ⟨loadElf_eq_false, fun file hload hsep h => ?_⟩
  obtain ⟨hclass, s₁, hcopy, rfl⟩ := loadElf_eq_true hload h
  rw [← image_iff hsep hcopy]
  refine ⟨fun hloaded => hloaded.image, fun himage => ⟨himage, ?_, ?_⟩⟩
  · rw [CPUState.reg_withReg_self named_regPC, BitVec.toNat_setWidth,
      Nat.mod_eq_of_lt (file.entry_lt hclass)]
  · rw [CPUState.reg_withReg_of_ne named_regPC named_regUSP (by decide),
      CPUState.reg_withReg_self named_regUSP]

/-- A byte of a `SimpleMemory` can always be accessed. -/
theorem accessible_byte (hsize : s.memory.memSize = memorySize) (addr : BitVec 32) :
    s.memory.Accessible addr .byte := by
  refine ⟨.inl rfl, ?_⟩
  have hmask : maskAddr addr.toNat < 2 ^ 24 := by rw [maskAddr_eq_mod]; omega
  rw [hsize]
  exact hmask

theorem copySection_ok (hsize : s.memory.memSize = memorySize) (segment : ElfSection) (n : ℕ) :
    ∃ t, copySection segment n s = .ok () t ∧ t.memory.memSize = memorySize := by
  induction n with
  | zero => exact ⟨s, rfl, hsize⟩
  | succ n ih =>
    obtain ⟨t, ht, hsize'⟩ := ih
    exact ⟨_, (bind_of_ok ht).trans (memSet_of_accessible (accessible_byte hsize' _)), hsize'⟩

theorem copySections_ok (hsize : s.memory.memSize = memorySize) (sections : List ElfSection) :
    ∃ t, copySections sections s = .ok () t ∧ t.memory.memSize = memorySize := by
  induction sections generalizing s with
  | nil => exact ⟨s, rfl, hsize⟩
  | cons segment rest ih =>
    obtain ⟨s₁, hcopy, hsize₁⟩ :
        ∃ s₁, (if segment.isLoaded then copySection segment (segment.size.setWidth 32).toNat
        else pure ()) s = .ok () s₁ ∧ s₁.memory.memSize = memorySize := by
      split_ifs
      · exact copySection_ok hsize segment _
      · exact ⟨s, rfl, hsize⟩
    obtain ⟨t, ht, hsize'⟩ := ih hsize₁
    refine ⟨t, ?_, hsize'⟩
    rw [copySections_cons, bind_of_ok hcopy, ht]

/-- The file is a 32-bit big-endian executable for the 68000. -/
def ElfFile.Supported (file : ElfFile) : Prop :=
  file.elfClass = elfClass32 ∧ file.encoding = elfData2Msb ∧ file.type = etExec ∧
    file.machine = em68k

theorem loadElf_ok (hload : load fileName = some file) (hheader : file.Supported)
    (hsize : s.memory.memSize = memorySize) : ∃ t, loadElf load fileName s = .ok true t := by
  obtain ⟨hclass, hencoding, htype, hmachine⟩ := hheader
  obtain ⟨s₁, hcopy, -⟩ := copySections_ok hsize file.sections
  rw [loadElf, hload]
  dsimp only
  rw [if_neg (by simp [hclass, hencoding, htype, hmachine]), bind_of_ok hcopy,
    bind_of_ok (setReg_long named_regUSP), bind_of_ok (setReg_long named_regPC)]
  exact ⟨_, rfl⟩

/-- Whatever the memory held before, the program is loaded, exactly when all sections that occupy
memory are of type `SHT_PROGBITS`. -/
theorem loadElf_loads_always_iff (hload : load fileName = some file) (hheader : file.Supported)
    (hsep : Separated file.sections) :
    (∀ s t, s.memory.memSize = memorySize → loadElf load fileName s = .ok true t →
      ProgramLoaded file t) ↔ ∀ segment ∈ file.sections, segment.Allocated →
      (∃ addr, segment.Covers addr) → segment.type = ptLoad := by
  constructor
  · intro h segment hmem halloc hcov
    obtain ⟨addr, hcov⟩ := hcov
    by_contra htype
    -- a memory that has the wrong byte at every address of the section
    obtain ⟨t, ht⟩ :=
      loadElf_ok (s := ⟨simpleMemory fun addr => segment.contents addr + 1, ⟨fun _ => 0⟩⟩)
        hload hheader rfl
    have hpresent := ((loadElf_loads_iff load fileName _ t).2 file hload hsep ht).1 (h _ t rfl ht)
    have hbyte : segment.contents addr + 1 = segment.contents addr :=
      hpresent segment hmem halloc htype addr hcov
    simp at hbyte
  · intro h s t _ ht
    refine ((loadElf_loads_iff load fileName s t).2 file hload hsep ht).2
      fun segment hmem halloc htype addr hcov => ?_
    exact absurd (h segment hmem halloc ⟨addr, hcov⟩) htype

/-- An executable with two bytes of code at `0x1000`, and one byte of the section
type `type` at `0x2000`. -/
def smallFile (type : BitVec 32) : ElfFile where
  elfClass := elfClass32
  encoding := elfData2Msb
  type := etExec
  machine := em68k
  entry := 0x1000
  sections := [⟨ptLoad, shfAlloc, 0x1000, 2, fun i => if i = 0 then 0x4E else 0x71⟩,
    ⟨type, shfAlloc, 0x2000, 1, fun _ => 7⟩]
  entry_lt _ := by decide

theorem separated_smallFile (type : BitVec 32) : Separated (smallFile type).sections where
  below segment hmem _ addr hcov := by
    have h : segment.address = 0x1000 ∧ segment.size = 2 ∨
        segment.address = 0x2000 ∧ segment.size = 1 := by
      obtain rfl | hmem := List.mem_cons.1 hmem
      · exact .inl ⟨rfl, rfl⟩
      · obtain rfl := List.mem_singleton.1 hmem
        exact .inr ⟨rfl, rfl⟩
    obtain ⟨haddr, hsize⟩ | ⟨haddr, hsize⟩ := h <;> rw [ElfSection.Covers, haddr, hsize] at hcov <;>
      simp at hcov <;> omega
  disjoint := by
    refine List.pairwise_pair.2 fun _ _ addr hcov hcov' => ?_
    simp [ElfSection.Covers] at hcov hcov'
    omega

/-- A section of uninitialised data keeps what the memory held before. -/
theorem loadElf_keeps_old_bss :
    ∃ t, loadElf (fun _ => some (smallFile shtNobits)) "a.elf" ⟨simpleMemory fun _ => 0xFF,
      ⟨fun _ => 0⟩⟩ = .ok true t ∧
      Separated (smallFile shtNobits).sections ∧ t.memory.baseAddr 0x2000 = 0xFF ∧
      ¬ProgramLoaded (smallFile shtNobits) t := by
  refine ⟨_, rfl, separated_smallFile _, rfl, fun h => ?_⟩
  have hbyte :=
    h.image ⟨shtNobits, shfAlloc, 0x2000, 1, fun _ => 7⟩ (by simp [smallFile]) (by decide)
      0x2000 (by decide)
  revert hbyte
  decide

/-- A section of initialised data is loaded. -/
theorem loadElf_loads_data :
    ∃ t, loadElf (fun _ => some (smallFile ptLoad)) "a.elf" ⟨simpleMemory fun _ => 0xFF,
      ⟨fun _ => 0⟩⟩ = .ok true t ∧ ProgramLoaded (smallFile ptLoad) t := by
  obtain ⟨t, ht⟩ :
      ∃ t, loadElf (fun _ => some (smallFile ptLoad)) "a.elf" ⟨simpleMemory fun _ => 0xFF,
        ⟨fun _ => 0⟩⟩ = .ok true t := ⟨_, rfl⟩
  refine ⟨t, ht, ((loadElf_loads_iff _ "a.elf" _ t).2 _ rfl (separated_smallFile _) ht).2
    fun segment hmem _ htype => ?_⟩
  simp [smallFile] at hmem
  obtain rfl | rfl := hmem <;> exact absurd rfl htype

end Loader

end M68kEmu
