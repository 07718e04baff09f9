import M68kEmu.Listing.Returns
import M68kEmu.Listing.Unshown
import Mathlib.Tactic.Ring

/-!
# Sample states

A sample is a state with a given opcode word at the program counter, extension words that lead
outside of the encoding, and given registers and bytes elsewhere.  A `Plan` says which index
register each operand has, and at which size; samples with one plan but for these sizes are listed
alike (`printsAlike_sample`).
-/

namespace M68kEmu

open Outcome

/-! ### Memories that hold an encoding -/

/-- The address of the encoding. -/
def sampleBase : ℕ := 0xC000

/-- The words from `sampleBase` on, and the bytes of `fill` elsewhere. -/
def sampleMemory (words : List (BitVec 16)) (fill : ℕ → BitVec 8) : BaseMemory where
  baseAddr i :=
    if sampleBase ≤ i ∧ i < sampleBase + 2 * words.length then
      if i % 2 = 0 then (words.getD ((i - sampleBase) / 2) 0 >>> 8).setWidth 8
      else (words.getD ((i - sampleBase) / 2) 0).setWidth 8
    else fill i
  memSize := 0x800000

theorem memSize_sampleMemory (words : List (BitVec 16)) (fill : ℕ → BitVec 8) :
    (sampleMemory words fill).memSize = 0x800000 := rfl

/-- The memory has the words at an address. -/
def HasWords (mem : BaseMemory) (addr : ℕ) : List (BitVec 16) → Prop
  | [] => True
  | w :: ws => (readRealMem mem.baseAddr addr .word).toNat = w.toNat ∧ HasWords mem (addr + 2) ws

section Words

variable {words ws vs : List (BitVec 16)} {fill : ℕ → BitVec 8} {mem : BaseMemory} {addr : ℕ}

theorem hasWords_append : HasWords mem addr (ws ++ vs) ↔
    HasWords mem addr ws ∧ HasWords mem (addr + 2 * ws.length) vs := by
  induction ws generalizing addr with
  | nil => simp [HasWords]
  | cons w ws ih =>
    rw [List.cons_append, HasWords, HasWords, ih, and_assoc, List.length_cons]
    rw [(by omega : addr + 2 + 2 * ws.length = addr + 2 * (ws.length + 1))]

theorem readRealMem_sample {k : ℕ} (hk : k < words.length) :
    (readRealMem (sampleMemory words fill).baseAddr (sampleBase + 2 * k) .word).toNat =
    (words.getD k 0).toNat := by
  have hlt := (words.getD k 0).isLt
  have hhigh :
      (sampleMemory words fill).baseAddr (sampleBase + 2 * k) =
      (words.getD k 0 >>> 8).setWidth 8 := by
    have hmod : (sampleBase + 2 * k) % 2 = 0 := by unfold sampleBase; omega
    have hdiv : (sampleBase + 2 * k - sampleBase) / 2 = k := by omega
    rw [sampleMemory]
    dsimp only
    rw [if_pos (by omega), if_pos hmod, hdiv]
  have hlow : (sampleMemory words fill).baseAddr (sampleBase + 2 * k + 1) =
      (words.getD k 0).setWidth 8 := by
    have hmod : (sampleBase + 2 * k + 1) % 2 ≠ 0 := by unfold sampleBase; omega
    have hdiv : (sampleBase + 2 * k + 1 - sampleBase) / 2 = k := by omega
    rw [sampleMemory]
    dsimp only
    rw [if_pos (by omega), if_neg hmod, hdiv]
  rw [toNat_readRealMem]
  dsimp only
  rw [hhigh, hlow, BitVec.toNat_setWidth, BitVec.toNat_setWidth, BitVec.toNat_ushiftRight,
    Nat.shiftRight_eq_div_pow]
  omega

theorem hasWords_sample_drop (n k : ℕ) (hn : n + k = words.length) :
    HasWords (sampleMemory words fill) (sampleBase + 2 * k) (words.drop k) := by
  induction n generalizing k with
  | zero =>
    rw [List.drop_eq_nil_of_le (by omega)]
    trivial
  | succ n ih =>
    have hk : k < words.length := by omega
    rw [List.drop_eq_getElem_cons hk, HasWords]
    refine ⟨?_, ih (k + 1) (by omega)⟩
    rw [readRealMem_sample hk, List.getD_eq_getElem?_getD, List.getElem?_eq_getElem hk,
      Option.getD_some]

theorem hasWords_sample : HasWords (sampleMemory words fill) sampleBase words :=
  hasWords_sample_drop words.length 0 rfl

/-- Outside of the encoding the memory is filled. -/
theorem sampleMemory_outside {i : ℕ} (h : i < sampleBase ∨ sampleBase + 2 * words.length ≤ i) :
    (sampleMemory words fill).baseAddr i = fill i := if_neg (by omega)

theorem read_word_of_hasWords {w : BitVec 16} (h : HasWords mem addr (w :: ws))
    (haddr : addr < 2 ^ 24) : mem.read (BitVec.ofNat 32 addr) .word = w.setWidth 32 := by
  have hw := w.isLt
  refine BitVec.eq_of_toNat_eq ?_
  rw [BaseMemory.read, maskAddr_eq_mod, BitVec.toNat_ofNat,
    Nat.mod_eq_of_lt (by omega : addr < 2 ^ 32),
    Nat.mod_eq_of_lt haddr, h.1, BitVec.toNat_setWidth, Nat.mod_eq_of_lt (by omega)]

theorem read_long_of_hasWords {w v : BitVec 16} (h : HasWords mem addr (w :: v :: ws))
    (haddr : addr < 2 ^ 24) :
    mem.read (BitVec.ofNat 32 addr) .long = BitVec.ofNat 32 (w.toNat * 2 ^ 16 + v.toNat) := by
  obtain ⟨hw, hv, -⟩ := h
  have hwlt := w.isLt
  have hvlt := v.isLt
  have hlong : (readRealMem mem.baseAddr addr .long).toNat = w.toNat * 2 ^ 16 + v.toNat := by
    rw [toNat_readRealMem] at hw hv ⊢
    rw [← hw, ← hv]
    ring
  refine BitVec.eq_of_toNat_eq ?_
  rw [BaseMemory.read, maskAddr_eq_mod, BitVec.toNat_ofNat,
    Nat.mod_eq_of_lt (by omega : addr < 2 ^ 32),
    Nat.mod_eq_of_lt haddr, hlong, BitVec.toNat_ofNat, Nat.mod_eq_of_lt (by omega)]

end Words

/-! ### Extension words -/

/-- The index register of an operand, `D0` or not, and the size at which it is taken. -/
abbrev Plan := List (Bool × Option DataSize)

/-- An index word with a small displacement, for `D0` or for `D1`. -/
def indexWord (p : Bool × Option DataSize) : BitVec 16 :=
  0x40 ||| (if p.1 then 0 else 0x1000) ||| (if p.2 = some .long then 0x800 else 0)

namespace Operand

/-- The extension words of an operand in a sample. -/
def sampleWords (o : Operand) (p : Bool × Option DataSize) : List (BitVec 16) :=
  match o.mode with
  | .indirectDisplacement | .pcDisplacement | .absWord => [0x1040]
  | .indirectIndex | .pcIndex => [indexWord p]
  | .absLong => [0x10, 0x1040]
  | .immediate => if o.size = .long then [0, 1] else [1]
  | .directData | .directAddr | .indirect | .indirectPostincrement | .indirectPredecrement
  | .unknown => []

/-- What the accessors fetch of them. -/
def sampleExt (o : Operand) (p : Bool × Option DataSize) : BitVec 32 :=
  match o.mode with
  | .indirectDisplacement | .pcDisplacement | .absWord => 0x1040
  | .indirectIndex | .pcIndex => (indexWord p).setWidth 32
  | .absLong => 0x101040
  | .immediate => 1
  | .directData | .directAddr | .indirect | .indirectPostincrement | .indirectPredecrement
  | .unknown => 0

/-- What the listing shows of them. -/
def sampleField (o : Operand) (first : Bool) : Field :=
  operandField o.mode o.reg o.size (o.sampleExt (first, none))

/-- The size is one of the index register, if there is one. -/
def Fits (o : Operand) (size : Option DataSize) : Prop :=
  match o.mode with
  | .indirectIndex | .pcIndex => size = some .word ∨ size = some .long
  | _ => size = none

end Operand

/-- The extension words of the operands in a sample. -/
def sampleExtension : List Operand → Plan → List (BitVec 16)
  | o :: os, p :: ps => o.sampleWords p ++ sampleExtension os ps
  | _, _ => []

section Extension

variable {o : Operand} {os : List Operand} {p : Bool × Option DataSize} {ps : Plan}
    {mem : BaseMemory} {addr : ℕ}

theorem length_sampleWords (o : Operand) (p : Bool × Option DataSize) :
    o.part.length = BitVec.ofNat 32 (2 * (o.sampleWords p).length) := by
  obtain ⟨use, mode, reg, size⟩ := o
  cases mode <;> first | rfl | (cases size <;> rfl)

theorem length_sampleWords_le (o : Operand) (p : Bool × Option DataSize) :
    (o.sampleWords p).length ≤ 2 := by
  obtain ⟨use, mode, reg, size⟩ := o
  cases mode <;> first | (simp [Operand.sampleWords]; done) | (cases size <;>
    simp [Operand.sampleWords])

theorem extensionAt_sample (h : HasWords mem addr (o.sampleWords p)) (haddr : addr < 2 ^ 24) :
    extensionAt mem (BitVec.ofNat 32 addr) o.mode o.size = o.sampleExt p := by
  obtain ⟨use, mode, reg, size⟩ := o
  cases mode with
  | directData | directAddr | indirect | indirectPostincrement | indirectPredecrement
  | unknown => rfl
  | indirectDisplacement | pcDisplacement | absWord | indirectIndex | pcIndex =>
    exact read_word_of_hasWords h haddr
  | absLong => exact read_long_of_hasWords h haddr
  | immediate =>
    cases size with
    | byte | word => exact read_word_of_hasWords h haddr
    | long => exact read_long_of_hasWords h haddr

/-- The size of an index register is not shown. -/
theorem operandField_sampleExt (o : Operand) (p : Bool × Option DataSize) :
    operandField o.mode o.reg o.size (o.sampleExt p) = o.sampleField p.1 := by
  obtain ⟨use, mode, reg, size⟩ := o
  obtain ⟨first, index⟩ := p
  have hword (index : Option DataSize) : castInt8 ((indexWord (first, index)).setWidth 32) = 0x40 ∧
      extReg ((indexWord (first, index)).setWidth 32) = if first then 0 else 1 := by
    rcases index with _ | _ | _ | _ <;> cases first <;> decide
  cases mode with
  | indirectIndex | pcIndex =>
    simp only [Operand.sampleField, Operand.sampleExt, operandField, hword]
  | _ => rfl

theorem extRegSize_indexWord (h : p.2 = some .word ∨ p.2 = some .long) :
    some (extRegSize ((indexWord p).setWidth 32)) = p.2 := by
  obtain ⟨first, index⟩ := p
  obtain rfl | rfl := h <;> cases first <;> decide

theorem indexSize_sample (h : HasWords mem addr (o.sampleWords p)) (haddr : addr < 2 ^ 24)
    (hp : o.Fits p.2) : o.indexSize mem (BitVec.ofNat 32 addr) = p.2 := by
  obtain ⟨use, mode, reg, size⟩ := o
  cases mode with
  | indirectIndex | pcIndex =>
    have hword : mem.read (BitVec.ofNat 32 addr) .word = (indexWord p).setWidth 32 :=
      read_word_of_hasWords h haddr
    rw [Operand.indexSize, hword]
    exact extRegSize_indexWord hp
  | _ => exact hp.symm

theorem add_length (o : Operand) (p : Bool × Option DataSize) (addr : ℕ) :
    BitVec.ofNat 32 addr + o.part.length =
    BitVec.ofNat 32 (addr + 2 * (o.sampleWords p).length) := by
  rw [length_sampleWords o p, BitVec.ofNat_add]

/-- What the listing shows of the operands of a sample. -/
theorem fieldsAt_sample (hlength : os.length = ps.length)
    (h : HasWords mem addr (sampleExtension os ps)) (haddr : addr + 4 * os.length < 2 ^ 24) :
    fieldsAt mem (BitVec.ofNat 32 addr) os = List.zipWith Operand.sampleField os
      (ps.map Prod.fst) := by
  induction os generalizing ps addr with
  | nil => rfl
  | cons o os ih =>
    obtain _ | ⟨p, ps⟩ := ps
    · cases hlength
    · obtain ⟨hhead, htail⟩ := hasWords_append.1 h
      have hle := length_sampleWords_le o p
      rw [List.length_cons] at haddr
      rw [fieldsAt, add_length o p, ih (Nat.succ.inj hlength) htail (by omega), Operand.field,
        extensionAt_sample hhead (by omega), operandField_sampleExt]
      rfl

/-- The sizes of the index registers of a sample. -/
theorem indexSizesAt_sample (hfits : List.Forall₂ (fun o p => Operand.Fits o p.2) os ps)
    (h : HasWords mem addr (sampleExtension os ps)) (haddr : addr + 4 * os.length < 2 ^ 24) :
    indexSizesAt mem (BitVec.ofNat 32 addr) os = ps.map Prod.snd := by
  induction hfits generalizing addr with
  | nil => rfl
  | @cons o p os ps hp _ ih =>
    obtain ⟨hhead, htail⟩ := hasWords_append.1 h
    have hle := length_sampleWords_le o p
    rw [List.length_cons] at haddr
    rw [indexSizesAt, add_length o p, ih htail (by omega), indexSize_sample hhead (by omega) hp]
    rfl

/-- The sizes that a memory has fit. -/
theorem fits_indexSizesAt (mem : BaseMemory) (pc : BitVec 32) (os : List Operand) :
    List.Forall₂ Operand.Fits os (indexSizesAt mem pc os) := by
  induction os generalizing pc with
  | nil => exact .nil
  | cons o os ih =>
    refine .cons ?_ (ih _)
    obtain ⟨use, mode, reg, size⟩ := o
    cases mode with
    | indirectIndex | pcIndex =>
      exact (extRegSize_cases _).imp (congrArg some) (congrArg some)
    | _ => rfl

theorem delta_sample (hlength : os.length = ps.length) :
    delta regPC (os.map Operand.part) = BitVec.ofNat 32 (2 * (sampleExtension os ps).length) := by
  induction os generalizing ps with
  | nil => rfl
  | cons o os ih =>
    obtain _ | ⟨p, ps⟩ := ps
    · cases hlength
    · rw [List.map_cons, delta, ih (Nat.succ.inj hlength), Part.delta_regPC, length_sampleWords o p,
        sampleExtension, List.length_append, Nat.mul_add, BitVec.ofNat_add]

theorem length_sampleExtension_le (os : List Operand) (ps : Plan) :
    (sampleExtension os ps).length ≤ 2 * os.length := by
  induction os generalizing ps with
  | nil => exact Nat.le_refl _
  | cons o os ih =>
    obtain _ | ⟨p, ps⟩ := ps
    · exact Nat.zero_le _
    · have hhead := length_sampleWords_le o p
      have htail := ih ps
      rw [sampleExtension, List.length_append, List.length_cons]
      omega

end Extension

/-! ### Samples -/

namespace Derived

theorem length_operandList_le (d : Derived) : d.operandList.length ≤ 2 := by
  cases d <;> simp [operandList]

/-- The parts of an object with operands are its opcode word and its operands. -/
theorem delta_listed {d : Derived} (h : d.operandList ≠ []) :
    delta regPC d.listed = 2 + delta regPC (d.operandList.map Operand.part) := by
  cases d with
  | bitShift f =>
    have hcount : (Part.operand .directData f.shiftReg f.dataSize).delta regPC = 0 := rfl
    rw [listed]
    split_ifs
    · rfl
    · simp [operandList, delta, hcount]
      rfl
  | bcc f | illegal | link addrReg | nop | rts | unlk addrReg => exact absurd rfl h
  | _ => rfl

theorem extensionFields_eq {d : Derived} (h : d.operandList ≠ []) (mem : BaseMemory)
    (pc : BitVec 32) : d.extensionFields mem pc = fieldsAt mem pc d.operandList := by
  cases d with
  | bcc f | link addrReg => exact absurd rfl h
  | _ => rfl

theorem length_listed_le (d : Derived) : d.listed.length ≤ 3 := by
  cases d with
  | bitShift f =>
    rw [listed]
    split_ifs <;> simp
  | bcc f =>
    rw [listed, BccOperand.parts]
    cases f.dataSize <;> simp
  | _ => simp [listed]

end Derived

section Fetch

variable {mem : BaseMemory} {pc : BitVec 32} {parts : List Part} {size : DataSize}

theorem accessible_of_even (heven : size = .byte ∨ pc.toNat % 2 = 0)
    (hmem : pc.toNat + size.bytes ≤ mem.memSize.toNat)
    (hpc : pc.toNat < 2 ^ 24) : mem.Accessible pc size := by
  rw [BaseMemory.Accessible, maskAddr_eq_mod, Nat.mod_eq_of_lt hpc]
  exact ⟨heven, hmem⟩

/-- Parts at an even address can be fetched, where the memory is large enough. -/
theorem fetchable_of_even (heven : pc.toNat % 2 = 0)
    (hmem : pc.toNat + 4 * parts.length ≤ mem.memSize.toNat)
    (hpc : pc.toNat + 4 * parts.length < 2 ^ 24) : Fetchable mem pc parts := by
  induction parts generalizing pc with
  | nil => trivial
  | cons part parts ih =>
    rw [List.length_cons] at hmem hpc
    have hlength : part.length.toNat ≤ 4 ∧ part.length.toNat % 2 = 0 := by
      have hext (mode : AddressingMode) (size : DataSize) :
          (((extSize mode size).map DataSize.toWord).getD 0).toNat ≤ 4 ∧
          (((extSize mode size).map DataSize.toWord).getD 0).toNat % 2 = 0 := by
        cases mode <;> cases size <;> decide
      obtain _ | ⟨mode, reg, size⟩ := part
      · decide
      · exact hext mode size
    have hnext : (pc + part.length).toNat = pc.toNat + part.length.toNat := by
      rw [BitVec.toNat_add, Nat.mod_eq_of_lt (by omega)]
    refine ⟨?_, ih (by omega) (by omega) (by omega)⟩
    obtain _ | ⟨mode, reg, size⟩ := part
    · trivial
    · intro e _
      have hbytes : e.bytes ≤ 4 := by cases e <;> decide
      exact accessible_of_even (.inr heven) (by omega) (by omega)

end Fetch

/-- A state with the words at the program counter, and the bytes of `fill` elsewhere. -/
def sample (opcode : BitVec 16) (extension : List (BitVec 16)) (regs : ℕ → BitVec 32)
    (fill : ℕ → BitVec 8) : CPUState BaseMemory := ⟨sampleMemory (opcode :: extension) fill, ⟨regs⟩⟩

section Sample

variable {opcode opcode' : BitVec 16} {extension : List (BitVec 16)} {regs : ℕ → BitVec 32}
    {fill : ℕ → BitVec 8} {d d' : Derived} {ps qs : Plan}

theorem reg_sample (hpc : regs regPC = 0xC000) :
    (sample opcode extension regs fill).reg regPC = BitVec.ofNat 32 sampleBase := by
  rw [CPUState.reg, Registers.bank_regPC]
  exact hpc

theorem hasWords_extension :
    HasWords (sampleMemory (opcode :: extension) fill) (sampleBase + 2) extension :=
  (hasWords_sample : HasWords _ sampleBase (opcode :: extension)).2

theorem opcode_sample (hpc : regs regPC = 0xC000) :
    (sample opcode extension regs fill).opcode = opcode := by
  have hword : (sampleMemory (opcode :: extension) fill).read (BitVec.ofNat 32 sampleBase) .word =
      opcode.setWidth 32 := read_word_of_hasWords hasWords_sample (by decide)
  rw [CPUState.opcode, reg_sample hpc, sample, hword, setWidth_setWidth_opcode]

theorem current_sample (hpc : regs regPC = 0xC000) (hd : (decode opcode).derived = d) :
    (sample opcode extension regs fill).current = d := by
  rw [CPUState.current_eq, opcode_sample hpc, hd]

/-- A sample is listed. -/
theorem listCurrent_sample (opcode : BitVec 16) (extension : List (BitVec 16)) (fill : ℕ → BitVec 8)
    (hpc : regs regPC = 0xC000) (hd : (decode opcode).derived = d) :
    ∃ u, listCurrent (sample opcode extension regs fill) =
      .ok (d.line (sampleMemory (opcode :: extension) fill)
        (BitVec.ofNat 32 sampleBase)).text u := by
  let s := sample opcode extension regs fill
  have hs : s.reg regPC = BitVec.ofNat 32 sampleBase := reg_sample hpc
  have hvalid : d.Valid := hd ▸ valid_decode opcode
  have hregular : d.Regular := hd ▸ regular_decode opcode
  have hlength := d.length_listed_le
  have hfetch : fetchOpcode s = .ok s.opcode s := by
    refine fetchOpcode_apply ?_
    rw [hs]
    exact accessible_of_even (.inr (by decide))
      (by decide : 0xC000 + 2 ≤ (0x800000 : BitVec 32).toNat) (by decide)
  have hparts : Fetchable s.memory (s.reg regPC) d.listed := by
    have hbase : (BitVec.ofNat 32 sampleBase).toNat = 0xC000 := by decide
    have hsize : s.memory.memSize.toNat = 0x800000 := rfl
    rw [hs]
    exact fetchable_of_even (by rw [hbase]) (by rw [hbase, hsize]; omega) (by rw [hbase]; omega)
  obtain ⟨text, u, htext, -, -⟩ := (listStep_disassembly hvalid).lists s hparts
  refine ⟨u, ?_⟩
  rw [listCurrent, bind_of_ok hfetch, opcode_sample hpc, hd, htext,
    disassembly_eq_ok hregular htext, hs]
  rfl

/-- The bytes outside of the encodings are those of the filling. -/
theorem encoded_sample (hpc : regs regPC = 0xC000) (hd : (decode opcode).derived = d)
    (hoperands : d.operandList ≠ []) (hlength : d.operandList.length = ps.length) {i : ℕ}
    (hi : ¬(sample opcode (sampleExtension d.operandList ps) regs fill).Encoded i) :
    (sample opcode (sampleExtension d.operandList ps) regs fill).memory.baseAddr i = fill i := by
  refine sampleMemory_outside ?_
  by_contra hinside
  rw [List.length_cons] at hinside
  have hle :=
    (length_sampleExtension_le d.operandList ps).trans
      (Nat.mul_le_mul_left 2 d.length_operandList_le)
  refine hi ⟨i - sampleBase, ?_, ?_⟩
  · rw [current_sample hpc hd, Derived.delta_listed hoperands, delta_sample hlength,
      BitVec.toNat_add, BitVec.toNat_ofNat]
    simp only [BitVec.reduceToNat]
    omega
  · have hlow : sampleBase ≤ i := by omega
    have hhigh : i < sampleBase + 0x20 := by omega
    rw [reg_sample hpc, ← BitVec.ofNat_add, Nat.add_sub_cancel' hlow, maskAddr_eq_mod,
      BitVec.toNat_ofNat]
    unfold sampleBase at hhigh
    omega

/-- The encoding of a sample. -/
theorem bounds_of_encoded (hpc : regs regPC = 0xC000) (hd : (decode opcode).derived = d)
    (hoperands : d.operandList ≠ []) (hlength : d.operandList.length = ps.length) {i : ℕ}
    (hi : (sample opcode (sampleExtension d.operandList ps) regs fill).Encoded i) :
    sampleBase ≤ i ∧ i < sampleBase + 0x20 := by
  obtain ⟨k, hk, rfl⟩ := hi
  have hle :=
    (length_sampleExtension_le d.operandList ps).trans
      (Nat.mul_le_mul_left 2 d.length_operandList_le)
  rw [current_sample hpc hd, Derived.delta_listed hoperands, delta_sample hlength, BitVec.toNat_add,
    BitVec.toNat_ofNat] at hk
  simp only [BitVec.reduceToNat] at hk
  rw [reg_sample hpc, ← BitVec.ofNat_add, maskAddr_eq_mod, BitVec.toNat_ofNat]
  unfold sampleBase
  omega

/-- The line of a sample. -/
theorem line_sample (hoperands : d.operandList ≠ []) (hlength : d.operandList.length = ps.length) :
    d.line (sampleMemory (opcode :: sampleExtension d.operandList ps) fill)
      (BitVec.ofNat 32 sampleBase) =
      ⟨d.name, d.suffix, d.opcodeFields ++ List.zipWith Operand.sampleField d.operandList
        (ps.map Prod.fst)⟩ := by
  have hle := d.length_operandList_le
  have hbase : BitVec.ofNat 32 sampleBase + 2 = BitVec.ofNat 32 (sampleBase + 2) := by decide
  have hlt : sampleBase + 2 + 4 * d.operandList.length < 2 ^ 24 := by
    unfold sampleBase
    omega
  rw [Derived.line, Derived.extensionFields_eq hoperands, hbase,
    fieldsAt_sample hlength hasWords_extension hlt]

/-- Samples of objects with one line are listed alike, whatever the sizes of the index registers. -/
theorem printsAlike_sample (hpc : regs regPC = 0xC000) (hd : (decode opcode).derived = d)
    (hd' : (decode opcode').derived = d') (hoperands : d.operandList ≠ [])
    (hoperands' : d'.operandList ≠ [])
    (hlength : d.operandList.length = ps.length) (hlength' : d'.operandList.length = qs.length)
    (hname : d.name = d'.name) (hsuffix : d.suffix = d'.suffix)
    (hopcode : d.opcodeFields = d'.opcodeFields)
    (hfields : List.zipWith Operand.sampleField d.operandList (ps.map Prod.fst) =
      List.zipWith Operand.sampleField d'.operandList (qs.map Prod.fst)) :
    PrintsAlike (sample opcode (sampleExtension d.operandList ps) regs fill)
      (sample opcode' (sampleExtension d'.operandList qs) regs fill) where
  registers := rfl
  memSize := (memSize_sampleMemory _ _).trans (memSize_sampleMemory _ _).symm
  bytes i hi := by
    rw [encoded_sample hpc hd hoperands hlength fun h => hi (.inl h),
      encoded_sample hpc hd' hoperands' hlength' fun h => hi (.inr h)]
  text := by
    obtain ⟨u, hu⟩ := listCurrent_sample opcode (sampleExtension d.operandList ps) fill hpc hd
    obtain ⟨v, hv⟩ := listCurrent_sample opcode' (sampleExtension d'.operandList qs) fill hpc hd'
    rw [line_sample hoperands hlength] at hu
    rw [line_sample hoperands' hlength', ← hname, ← hsuffix, ← hopcode, ← hfields] at hv
    exact ⟨_, u, v, hu, hv⟩

end Sample

end M68kEmu
