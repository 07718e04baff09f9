import M68kEmu.Listing.Sample

/-!
# What the operands of a sample reach

Where `D0` is `0x800000`, `D1` is zero and the address registers are near `0x10000`, the operands of
a sample lie in memory and outside of the encoding, but for one that takes `D0` as a long index
register, which is out of reach.
-/

namespace M68kEmu

open Outcome

/-! ### Registers -/

/-- The operand takes its address from an address register, and has the size. -/
structure Operand.Sound (size : DataSize) (o : Operand) : Prop where
  lt : o.reg < 16
  base : UsesBase o.mode → 8 ≤ o.reg
  size : o.size = size

section Advanced

variable {mode : AddressingMode} {reg r : ℕ} {size : DataSize} {u : CPUState BaseMemory}

/-- How far an operand moves the registers. -/
theorem reg_advanced (hreg : reg < 16) (hr : Named r) :
    (u.advanced mode reg size).reg r = u.reg r + (Part.operand mode reg size).delta r := by
  have hpc : reg ≠ regPC := ne_regPC_of_lt hreg
  rcases he : extSize mode size with _ | e
  · by_cases hmoves : MovesBase mode
    · rw [CPUState.advanced, he]
      dsimp only
      rw [if_pos hmoves, CPUState.reg_withReg (named_of_lt hreg) hr]
      by_cases hrr : r = reg
      · subst hrr
        simp [Part.delta, hpc]
      · by_cases hrp : r = regPC <;> simp [Part.delta, Part.length, he, hrr, hrp, hpc.symm]
    · rw [CPUState.advanced, he]
      dsimp only
      rw [if_neg hmoves]
      simp [Part.delta, Part.length, he, baseStep_of_not_movesBase hmoves]
  · have hmoves : ¬MovesBase mode :=
      fun hmoves => by cases he.symm.trans (extSize_of_movesBase hmoves)
    rw [CPUState.advanced, he]
    dsimp only
    rw [CPUState.reg_withReg named_regPC hr]
    by_cases hrp : r = regPC <;>
      simp [Part.delta, Part.length, he, hrp, baseStep_of_not_movesBase hmoves]

/-- An operand moves its base register by four bytes at most. -/
theorem baseStep_cases (mode : AddressingMode) (reg : ℕ) (size : DataSize) :
    ∃ k ≤ 4, (baseStep mode reg size = BitVec.ofNat 32 k ∨
      baseStep mode reg size = -BitVec.ofNat 32 k) ∧ (size ≠ .byte → k % 2 = 0) := by
  have hbytes : size.bytes ≤ 4 := by cases size <;> decide
  cases mode with
  | indirectPostincrement | indirectPredecrement =>
    simp only [baseStep, incremented, decremented]
    split_ifs with h
    · refine ⟨2, by decide, ?_⟩
      cases size <;> simp_all [DataSize.bytes, DataSize.toWord]
    · refine ⟨size.bytes, hbytes, ?_⟩
      cases size <;> simp [DataSize.bytes, DataSize.toWord]
  | _ => exact ⟨0, by decide, .inl rfl, fun _ => rfl⟩

/-- Every register is moved so. -/
theorem exists_reg_advanced (mode : AddressingMode) (size : DataSize) (hreg : reg < 16)
    (hr : r < 16) : ∃ k ≤ 4, ((u.advanced mode reg size).reg r = u.reg r + BitVec.ofNat 32 k ∨
      (u.advanced mode reg size).reg r = u.reg r - BitVec.ofNat 32 k) ∧
      (size ≠ .byte → k % 2 = 0) := by
  rw [reg_advanced hreg (named_of_lt hr), Part.delta, if_neg (ne_regPC_of_lt hr)]
  by_cases hrr : r = reg
  · obtain ⟨k, hk, hstep, heven⟩ := baseStep_cases mode reg size
    rw [if_pos hrr]
    refine ⟨k, hk, ?_, heven⟩
    obtain hstep | hstep := hstep <;> rw [hstep]
    · exact .inl rfl
    · exact .inr (BitVec.sub_eq_add_neg _ _).symm
  · rw [if_neg hrr]
    exact ⟨0, by decide, .inl rfl, fun _ => rfl⟩

end Advanced

/-! ### States that are about to take an operand -/

/-- The words of the operands follow the program counter, and the registers lead to
addresses in memory.  `n` operands have been taken, which have moved the address registers
by four bytes at most each. -/
structure InReach (os : List Operand) (ps : Plan) (n addr : ℕ) (size : DataSize)
    (u : CPUState BaseMemory) : Prop where
  words : HasWords u.memory addr (sampleExtension os ps)
  memSize : u.memory.memSize = 0x800000
  pc : u.reg regPC = BitVec.ofNat 32 addr
  pcLow : sampleBase ≤ addr
  pcHigh : addr ≤ sampleBase + 2 + 4 * n
  pcEven : addr % 2 = 0
  first : u.reg 0 = 0x800000
  second : u.reg 1 = 0
  low : ∀ r, 8 ≤ r → r < 16 → 0x10000 ≤ (u.reg r).toNat + 4 * n
  high : ∀ r, 8 ≤ r → r < 16 → (u.reg r).toNat ≤ 0x10000 + 4 * n
  even : size ≠ .byte → ∀ r, 8 ≤ r → r < 16 → (u.reg r).toNat % 2 = 0

section InReach

variable {o : Operand} {os : List Operand} {p : Bool × Option DataSize} {ps : Plan} {n addr : ℕ}
    {size : DataSize} {u : CPUState BaseMemory}

/-- The next operand can be taken after the first. -/
theorem InReach.advance (h : InReach (o :: os) (p :: ps) n addr size u) (ho : o.Sound size)
    (hn : n ≤ 1) :
    InReach os ps (n + 1) (addr + 2 * (o.sampleWords p).length) size
      (u.advanced o.mode o.reg o.size) := by
  have hlength := length_sampleWords_le o p
  have hpcLow := h.pcLow
  have hpcHigh := h.pcHigh
  have hdata {r : ℕ} (hr : r < 8) : (u.advanced o.mode o.reg o.size).reg r = u.reg r := by
    have hstep : (Part.operand o.mode o.reg o.size).delta r = 0 := by
      rw [Part.delta, if_neg (ne_regPC_of_lt (by omega))]
      by_cases hrr : r = o.reg
      · rw [if_pos hrr]
        refine baseStep_of_not_movesBase fun hmoves => ?_
        have hbase : UsesBase o.mode := by obtain hmode | hmode := hmoves <;> rw [hmode] <;> trivial
        have := ho.base hbase
        omega
      · rw [if_neg hrr]
    rw [reg_advanced ho.lt (named_of_lt (by omega)), hstep]
    exact BitVec.add_zero _
  have hmoved {r : ℕ} (h8 : 8 ≤ r) (h16 : r < 16) : ∃ k ≤ 4, (size ≠ .byte → k % 2 = 0) ∧
      (((u.advanced o.mode o.reg o.size).reg r).toNat = (u.reg r).toNat + k ∨
        ((u.advanced o.mode o.reg o.size).reg r).toNat + k = (u.reg r).toNat) := by
    obtain ⟨k, hk, hreg, heven⟩ := exists_reg_advanced (u := u) o.mode o.size ho.lt h16
    have hlow := h.low r h8 h16
    have hhigh := h.high r h8 h16
    rw [ho.size] at heven
    refine ⟨k, hk, heven, hreg.imp (fun hreg => ?_) fun hreg => ?_⟩
    · rw [hreg, BitVec.toNat_add, BitVec.toNat_ofNat]
      omega
    · rw [hreg, BitVec.toNat_sub, BitVec.toNat_ofNat]
      omega
  refine ⟨?_, ?_, ?_, by omega, by omega, ?_, ?_, ?_, fun r h8 h16 => ?_, fun r h8 h16 => ?_,
    fun hsize r h8 h16 => ?_⟩
  · rw [memory_advanced]
    exact (hasWords_append.1 h.words).2
  · rw [memory_advanced, h.memSize]
  · rw [reg_advanced ho.lt named_regPC, Part.delta_regPC, h.pc]
    exact add_length o p addr
  · have := h.pcEven
    omega
  · rw [hdata (by decide), h.first]
  · rw [hdata (by decide), h.second]
  · obtain ⟨k, hk, -, hreg | hreg⟩ := hmoved h8 h16 <;> have := h.low r h8 h16 <;> omega
  · obtain ⟨k, hk, -, hreg | hreg⟩ := hmoved h8 h16 <;> have := h.high r h8 h16 <;> omega
  · have hbefore := h.even hsize r h8 h16
    obtain ⟨k, hk, heven, hreg | hreg⟩ := hmoved h8 h16 <;> have := heven hsize <;> omega

/-! The index register. -/

theorem extOffset_indexWord (u : CPUState BaseMemory) (p : Bool × Option DataSize) :
    u.extOffset ((indexWord p).setWidth 32) =
      if p.2 = some .long then u.reg (if p.1 then 0 else 1)
      else castInt16 (Registers.sized (u.reg (if p.1 then 0 else 1)) .word) := by
  obtain ⟨first, index⟩ := p
  have hword : extReg ((indexWord (first, index)).setWidth 32) = (if first then 0 else 1) ∧
      extRegSize ((indexWord (first, index)).setWidth 32) = if index = some .long then .long
      else .word := by
    rcases index with _ | _ | _ | _ <;> cases first <;> decide
  rw [CPUState.extOffset, hword.1, hword.2]
  split_ifs <;> first | rfl | contradiction

theorem castInt8_indexWord (p : Bool × Option DataSize) :
    castInt8 ((indexWord p).setWidth 32) = 0x40 := by
  obtain ⟨first, index⟩ := p
  rcases index with _ | _ | _ | _ <;> cases first <;> decide

theorem InReach.extOffset (h : InReach os ps n addr size u) (hp : p ≠ (true, some .long)) :
    u.extOffset ((indexWord p).setWidth 32) = 0 := by
  obtain ⟨first, index⟩ := p
  rw [extOffset_indexWord]
  cases first with
  | false =>
    simp only [Bool.false_eq_true, if_false, h.second]
    split_ifs <;> rfl
  | true =>
    have hindex : index ≠ some .long := fun hindex => hp (by rw [hindex])
    simp only [if_true, h.first, if_neg hindex]
    rfl

theorem InReach.extOffset_long (h : InReach os ps n addr size u) :
    u.extOffset ((indexWord (true, some .long)).setWidth 32) = 0x800000 := by
  rw [extOffset_indexWord]
  exact h.first

/-! The extension words. -/

theorem InReach.toNat_pc (h : InReach os ps n addr size u) (hn : n ≤ 1) :
    (u.reg regPC).toNat = addr := by
  have hhigh := h.pcHigh
  unfold sampleBase at hhigh
  rw [h.pc, BitVec.toNat_ofNat]
  omega

theorem InReach.toNat_memSize (h : InReach os ps n addr size u) :
    u.memory.memSize.toNat = 0x800000 := by
  rw [h.memSize]
  rfl

theorem InReach.extensionAt (h : InReach (o :: os) (p :: ps) n addr size u) (hn : n ≤ 1) :
    M68kEmu.extensionAt u.memory (u.reg regPC) o.mode o.size = o.sampleExt p := by
  have hhigh := h.pcHigh
  rw [h.pc]
  refine extensionAt_sample (hasWords_append.1 h.words).1 ?_
  unfold sampleBase at hhigh
  omega

theorem InReach.extWord (h : InReach (o :: os) (p :: ps) n addr size u) (hn : n ≤ 1)
    (he : extSize o.mode o.size = some .word) : u.extWord = o.sampleExt p := by
  have hext := h.extensionAt hn
  rwa [M68kEmu.extensionAt, he] at hext

theorem InReach.extLong (h : InReach (o :: os) (p :: ps) n addr size u) (hn : n ≤ 1)
    (he : extSize o.mode o.size = some .long) :
    u.memory.read (u.reg regPC) .long = o.sampleExt p := by
  have hext := h.extensionAt hn
  rwa [M68kEmu.extensionAt, he] at hext

end InReach

/-! ### Addresses -/

/-- The address of an operand that lies in memory, and not in the encoding. -/
structure Safe (size : DataSize) (a : BitVec 32) : Prop where
  high : a.toNat ≤ 0x200000
  outside : a.toNat + 4 ≤ sampleBase ∨ sampleBase + 0x20 ≤ a.toNat
  even : size ≠ .byte → a.toNat % 2 = 0

section Addresses

variable {o : Operand} {os : List Operand} {p : Bool × Option DataSize} {ps : Plan} {n addr m : ℕ}
    {size : DataSize} {u : CPUState BaseMemory} {a : BitVec 32}

theorem safe_of_toNat (ha : a.toNat = m) (hhigh : m ≤ 0x200000)
    (houtside : m + 4 ≤ sampleBase ∨ sampleBase + 0x20 ≤ m) (heven : size ≠ .byte → m % 2 = 0) :
    Safe size a := by
  subst ha
  exact ⟨hhigh, houtside, heven⟩

theorem Safe.accessible (h : Safe size a) {mem : BaseMemory} (hmem : mem.memSize = 0x800000) :
    mem.Accessible a size := by
  have hhigh := h.high
  have hbytes : size.bytes ≤ 4 := by cases size <;> decide
  have hsize : mem.memSize.toNat = 0x800000 := by rw [hmem]; rfl
  refine accessible_of_even ?_ (by omega) (by omega)
  by_cases hbyte : size = .byte
  · exact .inl hbyte
  · exact .inr (h.even hbyte)

theorem toNat_add_displacement {v w : BitVec 32} (hw : w.toNat ≤ 0x2000) (hv : v.toNat ≤ 0x20000) :
    (v + w).toNat = v.toNat + w.toNat := by
  rw [BitVec.toNat_add]
  exact Nat.mod_eq_of_lt (by omega)

theorem toNat_decremented {v : BitVec 32} (reg : ℕ) (size : DataSize) (hv : 4 ≤ v.toNat) :
    (decremented reg size v).toNat ≤ v.toNat ∧ v.toNat ≤ (decremented reg size v).toNat + 4 ∧
      (size ≠ .byte → (decremented reg size v).toNat % 2 = v.toNat % 2) := by
  have hsub {w : BitVec 32} {k : ℕ} (hk : w.toNat = k) (hle : k ≤ 4) :
      (v - w).toNat = v.toNat - k := by
    rw [BitVec.toNat_sub, hk]
    have := v.isLt
    omega
  rw [decremented]
  split_ifs with hstack
  · have hbyte : size = .byte := by
      cases size <;> first | rfl | exact absurd rfl hstack.2
    have hstep : v - size.toWord - 1 = v - 2 := by
      rw [BitVec.sub_sub, hbyte]
      rfl
    rw [hstep, hsub (k := 2) rfl (by decide)]
    exact ⟨by omega, by omega, fun hsize => absurd hbyte hsize⟩
  · have hbytes : size.bytes ≤ 4 ∧ (size ≠ .byte → size.bytes % 2 = 0) := by cases size <;> decide
    have hword : size.toWord.toNat = size.bytes := by cases size <;> rfl
    rw [hsub hword hbytes.1]
    exact ⟨by omega, by omega, fun hsize => by have := hbytes.2 hsize; omega⟩

/-- An operand with an index register is at the sum of its base, the register and the
displacement. -/
theorem dataAddress_index (u : CPUState BaseMemory) (size : DataSize)
    (hmode : o.mode = .indirectIndex ∨ o.mode = .pcIndex) :
    ∃ r, (r = regPC ∨ UsesBase o.mode ∧ r = o.reg) ∧ ∀ use ≠ .address,
      dataAddress use o.mode o.reg size u =
        some (u.reg r + u.extOffset u.extWord + castInt8 u.extWord) := by
  obtain hmode | hmode := hmode <;> rw [hmode]
  · exact ⟨o.reg, .inr ⟨trivial, rfl⟩, fun use huse => by
      cases use <;> first | rfl | exact absurd rfl huse⟩
  · exact ⟨regPC, .inl rfl, fun use huse => by
      cases use <;> first | rfl | exact absurd rfl huse⟩

/-- Unless it takes `D0` as a long index register, an operand lies in memory and outside of the
encoding. -/
theorem InReach.target_safe (h : InReach (o :: os) (p :: ps) n addr size u) (ho : o.Sound size)
    (hn : n ≤ 1) (hp : p ≠ (true, some .long)) : ∀ a ∈ o.target u, Safe size a := by
  obtain ⟨use, mode, reg, size'⟩ := o
  obtain rfl : size' = size := ho.size
  have hlow := h.pcLow
  have hhigh := h.pcHigh
  have heven := h.pcEven
  have hpc := h.toNat_pc hn
  have hword (he : extSize mode size' = some .word) :
      u.extWord = Operand.sampleExt ⟨use, mode, reg, size'⟩ p := h.extWord hn he
  unfold sampleBase at hlow hhigh
  have hbase (hb : UsesBase mode) : 0xFFFC ≤ (u.reg reg).toNat ∧ (u.reg reg).toNat ≤ 0x10004 ∧
      (size' ≠ .byte → (u.reg reg).toNat % 2 = 0) := by
    have h1 := h.low reg (ho.base hb) ho.lt
    have h2 := h.high reg (ho.base hb) ho.lt
    exact ⟨by omega, by omega, fun hs => h.even hs reg (ho.base hb) ho.lt⟩
  -- a displacement leads past the encoding, from the base register and from the program counter
  have hplus {r : ℕ} {w : BitVec 32} (hr : r = regPC ∨ UsesBase mode ∧ r = reg)
      (hw : 0x40 ≤ w.toNat ∧ w.toNat ≤ 0x2000 ∧ w.toNat % 2 = 0) : Safe size' (u.reg r + w) := by
    have hbounds : 0xC000 ≤ (u.reg r).toNat ∧ (u.reg r).toNat ≤ 0x10004 ∧
        (size' ≠ .byte → (u.reg r).toNat % 2 = 0) := by
      obtain rfl | ⟨hb, rfl⟩ := hr
      · exact ⟨by omega, by omega, fun _ => by omega⟩
      · obtain ⟨h1, h2, h3⟩ := hbase hb
        exact ⟨by omega, h2, h3⟩
    obtain ⟨h1, h2, h3⟩ := hbounds
    exact safe_of_toNat (toNat_add_displacement hw.2.1 (by omega)) (by omega)
      (by unfold sampleBase; omega) fun hs => by have := h3 hs; omega
  have hindexed (hmode : mode = .indirectIndex ∨ mode = .pcIndex) (use : Use)
      (huse : use ≠ .address) : ∀ a ∈ dataAddress use mode reg size' u, Safe size' a := by
    obtain ⟨r, hr, haddress⟩ := dataAddress_index (o := ⟨use, mode, reg, size'⟩) u size' hmode
    have hext : u.extWord = (indexWord p).setWidth 32 := by
      rw [hword (by obtain rfl | rfl := hmode <;> rfl), Operand.sampleExt]
      obtain rfl | rfl := hmode <;> rfl
    intro a ha
    obtain rfl := Option.some.inj ((haddress use huse).symm.trans ha)
    rw [hext, h.extOffset hp, castInt8_indexWord, BitVec.add_assoc]
    exact hplus hr (by decide)
  intro a ha
  cases mode with
  | directData | directAddr | immediate | unknown => cases use <;> cases ha
  | indirect | indirectPostincrement =>
    obtain ⟨h1, h2, h3⟩ := hbase trivial
    have ha' : u.reg reg = a := by cases use <;> exact Option.some.inj ha
    exact safe_of_toNat (congrArg BitVec.toNat ha'.symm) (by omega) (by unfold sampleBase; omega) h3
  | indirectPredecrement =>
    obtain ⟨h1, h2, h3⟩ := hbase trivial
    obtain ⟨h4, h5, h6⟩ := toNat_decremented reg size' (by omega : 4 ≤ (u.reg reg).toNat)
    have ha' : decremented reg size' (u.reg reg) = a := by cases use <;> exact Option.some.inj ha
    exact safe_of_toNat (congrArg BitVec.toNat ha'.symm) (by omega) (by unfold sampleBase; omega)
      fun hs => by rw [h6 hs, h3 hs]
  | indirectDisplacement =>
    have ha' : u.reg reg + castInt16 u.extWord = a := by cases use <;> exact Option.some.inj ha
    rw [← ha', hword rfl]
    exact hplus (w := castInt16 0x1040) (.inr ⟨trivial, rfl⟩) (by decide)
  | pcDisplacement =>
    have ha' : u.reg regPC + castInt16 u.extWord = a := by cases use <;> exact Option.some.inj ha
    rw [← ha', hword rfl]
    exact hplus (w := castInt16 0x1040) (.inl rfl) (by decide)
  | indirectIndex => exact hindexed (.inl rfl) _ (by split_ifs <;> decide) a ha
  | pcIndex => exact hindexed (.inr rfl) _ (by split_ifs <;> decide) a ha
  | absWord =>
    have ha' : (0x1040 : BitVec 32) = a := by
      have hext : u.extWord = 0x1040 := hword rfl
      cases use <;> rw [← Option.some.inj ha, hext] <;> rfl
    exact safe_of_toNat (congrArg BitVec.toNat ha'.symm) (by decide) (by decide) fun _ => by decide
  | absLong =>
    have ha' : (0x101040 : BitVec 32) = a := by
      have hext : u.memory.read (u.reg regPC) .long = 0x101040 := h.extLong hn rfl
      cases use <;> exact hext.symm.trans (Option.some.inj ha)
    exact safe_of_toNat (congrArg BitVec.toNat ha'.symm) (by decide) (by decide) fun _ => by decide

/-- An operand that takes `D0` as a long index register is out of reach. -/
theorem InReach.outOfReach (h : InReach (o :: os) ((true, some .long) :: ps) n addr size u)
    (ho : o.Sound size) (hn : n ≤ 1) (hindex : o.mode = .indirectIndex ∨ o.mode = .pcIndex) :
    o.OutOfReach u ∧ ∀ a ∈ o.target u, ¬u.memory.Accessible a o.size := by
  have hhigh := h.pcHigh
  have heven := h.pcEven
  have hpc := h.toNat_pc hn
  have hsize := h.toNat_memSize
  unfold sampleBase at hhigh
  obtain ⟨r, hr, haddress⟩ := dataAddress_index u o.size hindex
  have hword : u.extWord = (indexWord (true, some .long)).setWidth 32 := by
    have hext := h.extWord hn (by obtain hmode | hmode := hindex <;> rw [hmode] <;> rfl)
    rw [hext, Operand.sampleExt]
    obtain hmode | hmode := hindex <;> rw [hmode]
  have hnear : (u.reg r).toNat ≤ 0x20000 := by
    obtain rfl | ⟨hbase, rfl⟩ := hr
    · omega
    · have := h.high o.reg (ho.base hbase) ho.lt
      omega
  -- the sum is behind the end of memory
  have hfar :
      ¬u.memory.Accessible (u.reg r + u.extOffset u.extWord + castInt8 u.extWord) o.size := by
    rw [hword, h.extOffset_long, castInt8_indexWord]
    have hsum : (u.reg r + 0x800000 + 0x40).toNat = (u.reg r).toNat + 0x800040 := by
      rw [BitVec.add_assoc, BitVec.toNat_add]
      exact Nat.mod_eq_of_lt (by simp only [BitVec.reduceAdd, BitVec.reduceToNat]; omega)
    rintro ⟨-, hinside⟩
    rw [maskAddr_eq_mod, hsum, hsize, Nat.mod_eq_of_lt (by omega)] at hinside
    omega
  have hfetch : u.memory.Accessible (u.reg regPC) .word :=
    accessible_of_even (.inr (by rw [hpc, heven]))
      (by rw [hpc, hsize, DataSize.bytes]; omega) (by omega)
  refine ⟨⟨hindex, hfetch, _, haddress .getSilent (by decide), hfar⟩, fun a ha => ?_⟩
  obtain rfl := Option.some.inj ((haddress _ (by split_ifs <;> decide)).symm.trans ha)
  exact hfar

theorem InReach.fetchable (h : InReach (o :: os) (p :: ps) n addr size u) (hn : n ≤ 1) :
    o.part.Fetchable u.memory (u.reg regPC) := by
  have hhigh := h.pcHigh
  have heven := h.pcEven
  have hpc := h.toNat_pc hn
  have hsize := h.toNat_memSize
  unfold sampleBase at hhigh
  refine (fetchable_of_even ?_ ?_ ?_ : Fetchable u.memory (u.reg regPC) [o.part]).1 <;> rw [hpc]
  · exact heven
  · rw [hsize, List.length_singleton]
    omega
  · rw [List.length_singleton]
    omega

/-- Any other can be accessed. -/
theorem InReach.usable (h : InReach (o :: os) (p :: ps) n addr size u)
    (ho : o.Sound size) (hn : n ≤ 1) (hp : p ≠ (true, some .long)) : o.Usable u where
  fetchable := h.fetchable hn
  accessible a ha := by
    rw [ho.size]
    exact (h.target_safe ho hn hp a ha).accessible h.memSize

/-- The address follows from the registers and the extension words. -/
theorem InReach.target_eq (h : InReach (o :: os) (p :: ps) n addr size u)
    (h' : InReach (o :: os) (p :: ps) n addr size v) (ho : o.reg < 16) (hn : n ≤ 1)
    (hreg : ∀ r < 16, u.reg r = v.reg r) : o.target u = o.target v := by
  have hpc : u.reg regPC = v.reg regPC := h.pc.trans h'.pc.symm
  have hword (he : extSize o.mode o.size = some .word) : u.extWord = v.extWord :=
    (h.extWord hn he).trans (h'.extWord hn he).symm
  have hlong (he : extSize o.mode o.size = some .long) :
      u.memory.read (u.reg regPC) .long = v.memory.read (v.reg regPC) .long :=
      (h.extLong hn he).trans (h'.extLong hn he).symm
  have hoffset (w : BitVec 32) : u.extOffset w = v.extOffset w := by
    rw [CPUState.extOffset, CPUState.extOffset, hreg _ (extReg_lt w)]
  have hlocate : dataAddress (if o.use = .get then .get else .getSilent) o.mode o.reg o.size u =
      dataAddress (if o.use = .get then .get else .getSilent) o.mode o.reg o.size v := by
    obtain ⟨use, mode, reg, size⟩ := o
    have hbase : u.reg reg = v.reg reg := hreg reg ho
    cases mode with
    | directData | directAddr | immediate | unknown => split_ifs <;> rfl
    | indirect | indirectPostincrement | indirectPredecrement =>
      split_ifs <;> simp only [dataAddress, CPUState.locate, hbase]
    | indirectDisplacement | indirectIndex | pcDisplacement | pcIndex | absWord =>
      split_ifs <;> simp only [dataAddress, CPUState.locate, hbase, hpc, hword rfl, hoffset]
    | absLong => split_ifs <;> simp only [dataAddress, CPUState.locate, hlong rfl]
  exact hlocate

end Addresses

/-! ### All operands -/

/-- No operand takes `D0` as a long index register. -/
def Plan.Clear (ps : Plan) : Prop := ∀ p ∈ ps, p ≠ (true, some .long)

/-- The first operand that takes `D0` as a long index register is accessed, and the
operands before it are read. -/
def Hits : List Operand → Plan → Prop
  | o :: os, p :: ps =>
    if p = (true, some .long) then o.use = .address → o.mode = .indirectIndex else o.use =
      .get ∧ Hits os ps
  | _, _ => False

/-- Operands as an object has them: all but the last are read. -/
def Chain : List Operand → Prop
  | [] => True
  | o :: os => (os ≠ [] → o.use = .get) ∧ Chain os

section Operands

variable {os : List Operand} {ps : Plan} {n addr : ℕ} {size : DataSize} {u : CPUState BaseMemory}

/-- The plan gives `D0` as a long register to index modes only. -/
theorem index_of_fits {o : Operand} (h : o.Fits (some .long)) :
    o.mode = .indirectIndex ∨ o.mode = .pcIndex := by
  obtain ⟨use, mode, reg, size⟩ := o
  cases mode with
  | indirectIndex => exact .inl rfl
  | pcIndex => exact .inr rfl
  | _ => cases h

/-- A read of an operand is at its target. -/
theorem mem_target {o : Operand} {a : BitVec 32} (h : a ∈ dataAddress o.use o.mode o.reg o.size u) :
    a ∈ o.target u := by
  obtain ⟨use, mode, reg, size⟩ := o
  cases use with
  | address => cases h
  | get | getSilent => exact h

theorem InReach.allUsable (h : InReach os ps n addr size u) (hsound : ∀ o ∈ os, o.Sound size)
    (hclear : ps.Clear)
    (hlength : os.length = ps.length) (hn : n + os.length ≤ 2) : AllUsable os u := by
  induction os generalizing ps n addr u with
  | nil => trivial
  | cons o os ih =>
    obtain _ | ⟨p, ps⟩ := ps
    · cases hlength
    · rw [List.length_cons] at hn
      have ho := hsound o List.mem_cons_self
      exact ⟨h.usable ho (by omega) (hclear p List.mem_cons_self), fun _ =>
        ih (h.advance ho (by omega)) (fun q hq => hsound q (List.mem_cons_of_mem o hq))
          (fun q hq => hclear q (List.mem_cons_of_mem p hq)) (Nat.succ.inj hlength) (by omega)⟩

theorem InReach.blocked (h : InReach os ps n addr size u) (hsound : ∀ o ∈ os, o.Sound size)
    (hfits : List.Forall₂ (fun o p => Operand.Fits o p.2) os ps) (hhits : Hits os ps)
    (hn : n + os.length ≤ 2) : Blocked os u := by
  induction hfits generalizing n addr u with
  | nil => exact hhits
  | @cons o p os ps hfit _ ih =>
    rw [List.length_cons] at hn
    have ho := hsound o List.mem_cons_self
    rw [Hits] at hhits
    split_ifs at hhits with hp
    · subst hp
      exact .inl ⟨(h.outOfReach ho (by omega) (index_of_fits hfit)).1, hhits⟩
    · exact .inr ⟨h.usable ho (by omega) hp, hhits.1, ih (h.advance ho (by omega))
        (fun q hq => hsound q (List.mem_cons_of_mem o hq)) hhits.2 (by omega)⟩

/-- What the operands read lies outside of the encoding, or cannot be read. -/
theorem InReach.reads (h : InReach os ps n addr size u) (hsound : ∀ o ∈ os, o.Sound size)
    (hchain : Chain os)
    (hfits : List.Forall₂ (fun o p => Operand.Fits o p.2) os ps) (hn : n + os.length ≤ 2) :
    ∀ r ∈ operandReads os u, Safe r.2 r.1 ∨ ¬u.memory.Accessible r.1 r.2 := by
  induction hfits generalizing n addr u with
  | nil => exact fun r hr => absurd hr List.not_mem_nil
  | @cons o p os ps hfit _ ih =>
    rw [List.length_cons] at hn
    have ho := hsound o List.mem_cons_self
    intro r hr
    obtain hr | hr := List.mem_append.1 hr
    · obtain ⟨a, ha, rfl⟩ := Option.mem_map.1 (Option.mem_toList.1 hr)
      have htarget := mem_target ha
      by_cases hp : p = (true, some .long)
      · subst hp
        exact .inr ((h.outOfReach ho (by omega) (index_of_fits hfit)).2 a htarget)
      · dsimp only
        rw [ho.size]
        exact .inl (h.target_safe ho (by omega) hp a htarget)
    · -- the operands behind one that is read
      rcases hget : o.getData u with ⟨v, t⟩ | ⟨e, t⟩ <;> rw [hget] at hr
      · have huse : o.use = .get := hchain.1 (by rintro rfl; exact absurd hr List.not_mem_nil)
        have hp : p ≠ (true, some .long) := by
          rintro rfl
          obtain ⟨⟨hmode, hfetch, hacc⟩, -⟩ := h.outOfReach ho (by omega) (index_of_fits hfit)
          obtain ⟨⟨e, w, hthrow⟩, -, -⟩ := index_throws ho.lt hmode hfetch hacc
          cases hget.symm.trans hthrow
        obtain ⟨-, rfl⟩ :=
          EStateM.Result.ok.inj (((h.usable ho (by omega) hp).getData ho.lt huse).symm.trans hget)
        have hmem : u.memory.memSize = (u.advanced o.mode o.reg o.size).memory.memSize := by
          rw [memory_advanced]
        rw [BaseMemory.accessible_congr hmem]
        exact ih (h.advance ho (by omega)) (fun q hq => hsound q (List.mem_cons_of_mem o hq))
          hchain.2 (by omega) r hr
      · exact absurd hr List.not_mem_nil

end Operands

end M68kEmu
