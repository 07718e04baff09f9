import M68kEmu.Lib.BubbleSort
import M68kEmu.Program.Image

/-!
# The test programs `bubblesort` and `benchmark`

`sortText` is the text of the two functions `bubblesort` and `bubblesort_reverse` in
`test/binary/benchmark.elf`, which differ in one branch; the first is also the one in
`test/binary/bubblesort.elf`.  The frame has `i` at `-4(a6)`, `j` at `-8(a6)` and `temp` at
`-12(a6)`; the arguments are the address of the table, at `8(a6)`, and its size, at `12(a6)`.

`Called` is the state at the entry of the function and `Busy` what holds between the prologue and
the epilogue, with the values of `i`, `j` and the cells of the table.  One turn of the inner loop is
`BubbleSort.sift`, the inner loop is `BubbleSort.pass` and the outer loop `BubbleSort.passes`.

`CMP` sets `V` to the overflow of a sum, so that the entries are compared correctly only if neither
their sum nor their difference overflows; `Small` entries do not.
-/

namespace M68kEmu

open BubbleSort ConditionCodes Refine

/-- The two functions. -/
inductive Direction where
  | ascending | descending
  deriving DecidableEq, Repr

namespace Direction

/-- The table is put in ascending order of the key. -/
def key : Direction → BitVec 32 → ℤ
  | ascending, v => v.toInt
  | descending, v => -v.toInt

/-- The branch over the exchange: `bge` and `ble`. -/
def branch : Direction → BitVec 16
  | ascending => 0x6C48
  | descending => 0x6F48

def condition : Direction → Condition
  | ascending => .greaterEqual
  | descending => .lessEqual

def comparison : Direction → Comparison
  | ascending => .sge
  | descending => .sle

theorem decode_branch (dir : Direction) :
    (decode dir.branch).derived = .bcc ⟨dir.condition, 0x48, .byte⟩ :=
  match dir with
  | ascending => derived_of_entry rfl
  | descending => derived_of_entry rfl

theorem comparison_condition (dir : Direction) : dir.condition.comparison = some dir.comparison :=
  match dir with
  | ascending => rfl
  | descending => rfl

theorem signed (dir : Direction) : dir.comparison = .sge ∨ dir.comparison = .sgt ∨
    dir.comparison = .sle :=
  match dir with
  | ascending => .inl rfl
  | descending => .inr (.inr rfl)

/-- The branch is taken unless the cells are out of order. -/
theorem holds_comparison (dir : Direction) (x y : BitVec 32) :
    dir.comparison.holds x y = decide ¬dir.key x < dir.key y := by
  cases dir <;> refine decide_eq_decide.2 ?_ <;> simp only [key] <;> omega

end Direction

/-- The functions `bubblesort` and `bubblesort_reverse`. -/
def sortText (dir : Direction) : List (BitVec 16) :=
  [0x4E56, 0xFFF4,  -- 00  link a6, #-12
   0x42AE, 0xFFFC,  -- 04  clr.l -4(a6)
   0x6000, 0x0090,  -- 08  bra 9a
   0x42AE, 0xFFF8,  -- 0c  clr.l -8(a6)
   0x6072,          -- 10  bra 84
   0x202E, 0xFFF8,  -- 12  move.l -8(a6), d0
   0xD080,          -- 16  add.l d0, d0
   0xD080,          -- 18  add.l d0, d0
   0x206E, 0x0008,  -- 1a  movea.l 8(a6), a0
   0xD1C0,          -- 1e  adda.l d0, a0
   0x2210,          -- 20  move.l (a0), d1
   0x202E, 0xFFF8,  -- 22  move.l -8(a6), d0
   0x5280,          -- 26  addq.l #1, d0
   0xD080,          -- 28  add.l d0, d0
   0xD080,          -- 2a  add.l d0, d0
   0x206E, 0x0008,  -- 2c  movea.l 8(a6), a0
   0xD1C0,          -- 30  adda.l d0, a0
   0x2010,          -- 32  move.l (a0), d0
   0xB081,          -- 34  cmp.l d1, d0
   dir.branch,      -- 36  bge 80, or ble 80
   0x202E, 0xFFF8,  -- 38  move.l -8(a6), d0
   0x5280,          -- 3c  addq.l #1, d0
   0xD080,          -- 3e  add.l d0, d0
   0xD080,          -- 40  add.l d0, d0
   0x206E, 0x0008,  -- 42  movea.l 8(a6), a0
   0xD1C0,          -- 46  adda.l d0, a0
   0x2D50, 0xFFF4,  -- 48  move.l (a0), -12(a6)
   0x202E, 0xFFF8,  -- 4c  move.l -8(a6), d0
   0xD080,          -- 50  add.l d0, d0
   0xD080,          -- 52  add.l d0, d0
   0x226E, 0x0008,  -- 54  movea.l 8(a6), a1
   0xD3C0,          -- 58  adda.l d0, a1
   0x202E, 0xFFF8,  -- 5a  move.l -8(a6), d0
   0x5280,          -- 5e  addq.l #1, d0
   0xD080,          -- 60  add.l d0, d0
   0xD080,          -- 62  add.l d0, d0
   0x206E, 0x0008,  -- 64  movea.l 8(a6), a0
   0xD1C0,          -- 68  adda.l d0, a0
   0x2011,          -- 6a  move.l (a1), d0
   0x2080,          -- 6c  move.l d0, (a0)
   0x202E, 0xFFF8,  -- 6e  move.l -8(a6), d0
   0xD080,          -- 72  add.l d0, d0
   0xD080,          -- 74  add.l d0, d0
   0x206E, 0x0008,  -- 76  movea.l 8(a6), a0
   0xD1C0,          -- 7a  adda.l d0, a0
   0x20AE, 0xFFF4,  -- 7c  move.l -12(a6), (a0)
   0x52AE, 0xFFF8,  -- 80  addq.l #1, -8(a6)
   0x202E, 0x000C,  -- 84  move.l 12(a6), d0
   0x5380,          -- 88  subq.l #1, d0
   0x90AE, 0xFFFC,  -- 8a  sub.l -4(a6), d0
   0xB0AE, 0xFFF8,  -- 8e  cmp.l -8(a6), d0
   0x6E00, 0xFF7E,  -- 92  bgt 12
   0x52AE, 0xFFFC,  -- 96  addq.l #1, -4(a6)
   0x202E, 0x000C,  -- 9a  move.l 12(a6), d0
   0x5380,          -- 9e  subq.l #1, d0
   0xB0AE, 0xFFFC,  -- a0  cmp.l -4(a6), d0
   0x6E00, 0xFF66,  -- a4  bgt 0c
   0x4E71,          -- a8  nop
   0x4E71,          -- aa  nop
   0x4E5E,          -- ac  unlk a6
   0x4E75]          -- ae  rts

/-! The instructions of the functions that the programs do not share. -/

theorem decode_4E71 : (decode 0x4E71).derived = .nop := derived_of_entry rfl
theorem decode_4879 : (decode 0x4879).derived = .pea (longDest .absLong 9) := derived_of_entry rfl
theorem decode_6072 : (decode 0x6072).derived = .bcc ⟨.true, 0x72, .byte⟩ := derived_of_entry rfl
theorem decode_6000 : (decode 0x6000).derived = .bcc ⟨.true, 0x00, .word⟩ := derived_of_entry rfl
theorem decode_6E00 : (decode 0x6E00).derived = .bcc ⟨.greaterThan, 0x00, .word⟩ :=
  derived_of_entry rfl
theorem decode_2210 : (decode 0x2210).derived = .move (longMove .indirect 8 .directData 1) :=
  derived_of_entry rfl
theorem decode_2010 : (decode 0x2010).derived = .move (longMove .indirect 8 .directData 0) :=
  derived_of_entry rfl
theorem decode_2011 : (decode 0x2011).derived = .move (longMove .indirect 9 .directData 0) :=
  derived_of_entry rfl
theorem decode_2D50 :
    (decode 0x2D50).derived = .move (longMove .indirect 8 .indirectDisplacement 14) :=
  derived_of_entry rfl
theorem decode_2080 : (decode 0x2080).derived = .move (longMove .directData 0 .indirect 8) :=
  derived_of_entry rfl
theorem decode_20AE :
    (decode 0x20AE).derived = .move (longMove .indirectDisplacement 14 .indirect 8) :=
  derived_of_entry rfl
theorem decode_206E : (decode 0x206E).derived = .move (longMovea .indirectDisplacement 14 8) :=
  derived_of_entry rfl
theorem decode_226E : (decode 0x226E).derived = .move (longMovea .indirectDisplacement 14 9) :=
  derived_of_entry rfl
theorem decode_D1C0 : (decode 0xD1C0).derived = .adda (longBoth .directData 0 .directAddr 8) :=
  derived_of_entry rfl
theorem decode_D3C0 : (decode 0xD3C0).derived = .adda (longBoth .directData 0 .directAddr 9) :=
  derived_of_entry rfl
theorem decode_D080 : (decode 0xD080).derived = .add (longBoth .directData 0 .directData 0) :=
  derived_of_entry rfl
theorem decode_90AE :
    (decode 0x90AE).derived = .sub (longBoth .indirectDisplacement 14 .directData 0) :=
  derived_of_entry rfl
theorem decode_B081 : (decode 0xB081).derived = .cmp (longBoth .directData 1 .directData 0) :=
  derived_of_entry rfl
theorem decode_42AE : (decode 0x42AE).derived = .clr (longDest .indirectDisplacement 14) :=
  derived_of_entry rfl
theorem decode_5280 : (decode 0x5280).derived = .addq (longQuick 1 .directData 0) :=
  derived_of_entry rfl
theorem decode_52AE : (decode 0x52AE).derived = .addq (longQuick 1 .indirectDisplacement 14) :=
  derived_of_entry rfl

/-! ### Comparisons -/

/-- Neither the sum nor the difference of two such numbers overflows. -/
def Small (v : BitVec 32) : Prop := -2 ^ 30 ≤ v.toInt ∧ v.toInt < 2 ^ 30

instance (v : BitVec 32) : Decidable (Small v) := inferInstanceAs (Decidable (_ ∧ _))

section Small

variable {x y : BitVec 32} {n : ℕ}

/-- `CMP` compares small numbers correctly. -/
theorem answer_of_small (hx : Small x) (hy : Small y) (cmp : Comparison)
    (hsigned : cmp = .sge ∨ cmp = .sgt ∨ cmp = .sle) :
    cmp.answer (arithmeticCodes x y (y - x)) = cmp.holds y x := by
  have hsum : x.saddOverflow y = false := by
    refine Bool.eq_false_iff.2 fun h => (saddOverflow_iff x y).1 h ?_
    unfold Small at hx hy
    unfold InSignedRange
    omega
  have hdiff : y.ssubOverflow x = false := by
    refine Bool.eq_false_iff.2 fun h => (ssubOverflow_iff y x).1 h ?_
    unfold Small at hx hy
    unfold InSignedRange
    omega
  rw [← answer_ofSub]
  obtain rfl | rfl | rfl :=
    hsigned <;> simp only [Comparison.answer, arithmeticCodes, Codes.ofSub, hsum, hdiff,
        difference_eq_zero_iff]

theorem toInt_ofNat_of_lt (h : n < 2 ^ 30) : (BitVec.ofNat 32 n).toInt = n := by
  rw [BitVec.toInt_ofNat']
  exact Int.bmod_eq_of_le (by omega) (by omega)

theorem small_ofNat (h : n < 2 ^ 30) : Small (BitVec.ofNat 32 n) := by
  rw [Small, toInt_ofNat_of_lt h]
  omega

theorem toInt_sub_of_range {a b : ℤ} (hx : x.toInt = a) (hy : y.toInt = b)
    (h : -2 ^ 30 ≤ a - b ∧ a - b < 2 ^ 30) : (x - y).toInt = a - b := by
  rw [BitVec.toInt_sub, hx, hy]
  exact Int.bmod_eq_of_le (by omega) (by omega)

end Small

/-! ### The states of a call -/

/-- The entry of a call with a table of `size` entries at the address `tp`, with the return address
at the address `p`. -/
structure Called (dir : Direction) (base p tp size : ℕ) (g : Guest) : Prop where
  text : Loaded g.memory base (sortText dir)
  sp : Points (g.reg 15) p
  even : p % 2 = 0
  below : 16 ≤ p
  above : p + 12 ≤ 2 ^ 24 ∧ p + 12 ≤ g.memory.memSize.toNat
  tableArg : Points (g.memory.long (p + 4)) tp
  sizeArg : g.memory.long (p + 8) = BitVec.ofNat 32 size
  tableEven : tp % 2 = 0
  tableEnd : tp + 4 * size ≤ 2 ^ 24 ∧ tp + 4 * size ≤ g.memory.memSize.toNat
  frameApart : p + 12 ≤ tp ∨ tp + 4 * size ≤ p - 16
  textApart : base + 176 ≤ p - 16 ∨ p ≤ base
  tableApart : base + 176 ≤ tp ∨ tp + 4 * size ≤ base
  small : ∀ k < size, Small (g.memory.long (tp + 4 * k))

/-- Inside the call entered at `g₀`. -/
structure Framed (p tp size : ℕ) (g₀ g : Guest) : Prop where
  fp : g.reg 14 = g₀.reg 15 - 4
  regs : ∀ r < 14, r ≠ 0 → r ≠ 1 → r ≠ 8 → r ≠ 9 → g.reg r = g₀.reg r
  savedFp : g.memory.long (p - 4) = g₀.reg 14
  memSize : g.memory.memSize = g₀.memory.memSize
  bytes : ∀ a, a + 16 < p ∨ p ≤ a → a < tp ∨ tp + 4 * size ≤ a →
    g.memory.baseAddr a = g₀.memory.baseAddr a

/-- Inside the call, with the values of the variables and of the table. -/
structure Busy (p tp size : ℕ) (g₀ : Guest) (i j : BitVec 32) (f : ℕ → BitVec 32) (g : Guest) : Prop
    extends Framed p tp size g₀ g where
  varI : g.memory.long (p - 8) = i
  varJ : g.memory.long (p - 12) = j
  cells : ∀ k < size, g.memory.long (tp + 4 * k) = f k

/-- The target of a branch, from the answer to its condition. -/
theorem ite_of_eq_decide {b : Bool} {c : Prop} [Decidable c] {m n : ℕ} (h : b = decide c) :
    (if b then m else n) = if c then m else n := by
  subst h
  simp

section Call

variable {dir : Direction} {stop : BitVec 32} {base p tp size a n k : ℕ} {g₀ g g' : Guest}
    {i j v : BitVec 32} {f : ℕ → BitVec 32}

theorem length_sortText : (sortText dir).length = 88 := rfl

namespace Framed

theorem text (h : Framed p tp size g₀ g) (h₀ : Called dir base p tp size g₀) :
    Loaded g.memory base (sortText dir) := by
  refine h₀.text.congr h.memSize fun i hi hi' => h.bytes i ?_ ?_
  · have htext := h₀.textApart
    have hbelow := h₀.below
    rw [length_sortText] at hi'
    omega
  · have htable := h₀.tableApart
    rw [length_sortText] at hi'
    omega

/-- The arguments are not written. -/
theorem argument (h : Framed p tp size g₀ g) (h₀ : Called dir base p tp size g₀)
    (ha : a = p + 4 ∨ a = p + 8) : g.memory.long a = g₀.memory.long a := by
  have hframe := h₀.frameApart
  have hbelow := h₀.below
  exact BaseMemory.long_congr fun i hi hi' => h.bytes i (by omega) (by omega)

/-- A variable or an argument, at its displacement from `A6`. -/
theorem points (h : Framed p tp size g₀ g) (h₀ : Called dir base p tp size g₀)
    {w : BitVec 16} {d : ℤ}
    (hd : (castInt16 (w.setWidth 32)).toInt = d) (ha : (a : ℤ) = p - 4 + d) (hle : a ≤ p + 8) :
    Points (g.reg 14 + castInt16 (w.setWidth 32)) a := by
  have hbelow := h₀.below
  have habove := h₀.above
  rw [h.fp]
  exact (h₀.sp.sub (n := 4) (by omega)).offset hd (by omega) (by omega)

theorem room (h : Framed p tp size g₀ g) (h₀ : Called dir base p tp size g₀) (heven : a % 2 = 0)
    (hle : a ≤ p + 8) : g.memory.Room a := by
  have habove := h₀.above
  refine ⟨heven, ?_⟩
  rw [h.memSize]
  omega

theorem room_cell (h : Framed p tp size g₀ g) (h₀ : Called dir base p tp size g₀) (hn : n < size) :
    g.memory.Room (tp + 4 * n) := by
  have heven := h₀.tableEven
  have hend := h₀.tableEnd
  refine ⟨by omega, ?_⟩
  rw [h.memSize]
  omega

/-- The variables and the table are free. -/
theorem put (h : Framed p tp size g₀ g) (h₀ : Called dir base p tp size g₀)
    (ha : p - 16 ≤ a ∧ a + 4 ≤ p - 4 ∨ tp ≤ a ∧ a + 4 ≤ tp + 4 * size) :
    Framed p tp size g₀ (g.putLong a v) where
  fp := h.fp
  regs := h.regs
  savedFp := by
    have hframe := h₀.frameApart
    have hbelow := h₀.below
    rw [Guest.memory_putLong, BaseMemory.long_putLong (by omega)]
    exact h.savedFp
  memSize := h.memSize
  bytes i hi hi' := by
    have hbelow := h₀.below
    rw [Guest.memory_putLong, BaseMemory.baseAddr_putLong (by omega)]
    exact h.bytes i hi hi'

end Framed

namespace Busy

/-- `D0`, `D1`, `A0` and `A1` are free. -/
theorem keep (h : Busy p tp size g₀ i j f g) (hmem : g'.memory = g.memory)
    (hregs : ∀ r, r ≠ 0 → r ≠ 1 → r ≠ 8 → r ≠ 9 → g'.reg r = g.reg r) :
    Busy p tp size g₀ i j f g' where
  fp := (hregs 14 (by decide) (by decide) (by decide) (by decide)).trans h.fp
  regs r hr h₀ h₁ h₈ h₉ := (hregs r h₀ h₁ h₈ h₉).trans (h.regs r hr h₀ h₁ h₈ h₉)
  savedFp := by rw [hmem]; exact h.savedFp
  memSize := by rw [hmem]; exact h.memSize
  bytes := by rw [hmem]; exact h.bytes
  varI := by rw [hmem]; exact h.varI
  varJ := by rw [hmem]; exact h.varJ
  cells := by rw [hmem]; exact h.cells

theorem putI (h : Busy p tp size g₀ i j f g) (h₀ : Called dir base p tp size g₀) :
    Busy p tp size g₀ v j f (g.putLong (p - 8) v) where
  toFramed := h.put h₀ (.inl (by have := h₀.below; omega))
  varI := BaseMemory.long_putLong_self
  varJ := by
    have hbelow := h₀.below
    rw [Guest.memory_putLong, BaseMemory.long_putLong (by omega), h.varJ]
  cells k hk := by
    have hbelow := h₀.below
    have hframe := h₀.frameApart
    rw [Guest.memory_putLong, BaseMemory.long_putLong (by omega), h.cells k hk]

theorem putJ (h : Busy p tp size g₀ i j f g) (h₀ : Called dir base p tp size g₀) :
    Busy p tp size g₀ i v f (g.putLong (p - 12) v) where
  toFramed := h.put h₀ (.inl (by have := h₀.below; omega))
  varI := by
    have hbelow := h₀.below
    rw [Guest.memory_putLong, BaseMemory.long_putLong (by omega), h.varI]
  varJ := BaseMemory.long_putLong_self
  cells k hk := by
    have hbelow := h₀.below
    have hframe := h₀.frameApart
    rw [Guest.memory_putLong, BaseMemory.long_putLong (by omega), h.cells k hk]

theorem putTemp (h : Busy p tp size g₀ i j f g) (h₀ : Called dir base p tp size g₀) :
    Busy p tp size g₀ i j f (g.putLong (p - 16) v) where
  toFramed := h.put h₀ (.inl (by have := h₀.below; omega))
  varI := by
    have hbelow := h₀.below
    rw [Guest.memory_putLong, BaseMemory.long_putLong (by omega), h.varI]
  varJ := by
    have hbelow := h₀.below
    rw [Guest.memory_putLong, BaseMemory.long_putLong (by omega), h.varJ]
  cells k hk := by
    have hbelow := h₀.below
    have hframe := h₀.frameApart
    rw [Guest.memory_putLong, BaseMemory.long_putLong (by omega), h.cells k hk]

theorem putCell (h : Busy p tp size g₀ i j f g) (h₀ : Called dir base p tp size g₀)
    (hn : n < size) : Busy p tp size g₀ i j (Function.update f n v) (g.putLong (tp + 4 * n) v) where
  toFramed := h.put h₀ (.inr (by omega))
  varI := by
    have hbelow := h₀.below
    have hframe := h₀.frameApart
    rw [Guest.memory_putLong, BaseMemory.long_putLong (by omega), h.varI]
  varJ := by
    have hbelow := h₀.below
    have hframe := h₀.frameApart
    rw [Guest.memory_putLong, BaseMemory.long_putLong (by omega), h.varJ]
  cells k hk := by
    by_cases hkn : k = n
    · subst hkn
      rw [Guest.memory_putLong, BaseMemory.long_putLong_self, Function.update_self]
    · rw [Guest.memory_putLong, BaseMemory.long_putLong (by omega), h.cells k hk,
        Function.update_of_ne hkn]

end Busy

/-! ### The address of a cell -/

/-- From the index in `D0` to the address in an address register. -/
theorem leads_address {movea adda : BitVec 16} {r : ℕ} (hstop : Beyond stop base (sortText dir))
    (h₀ : Called dir base p tp size g₀) (h : Busy p tp size g₀ i j f g)
    (hcode : StandsAt [0xD080, 0xD080, movea, 0x0008, adda] (sortText dir) k)
    (hmovea : (decode movea).derived = .move (longMovea .indirectDisplacement 14 r))
    (hadda : (decode adda).derived = .adda (longBoth .directData 0 .directAddr r))
    (hr : r = 8 ∨ r = 9) (hn : n < size) (hd0 : g.reg 0 = BitVec.ofNat 32 n) :
    ∃ g', Leads stop (g.goto (base + 2 * k)) g' ∧ g'.pc = base + 2 * (k + 5) ∧
    g'.memory = g.memory ∧
      Points (g'.reg r) (tp + 4 * n) ∧ ∀ q, q ≠ 0 → q ≠ r → g'.reg q = g.reg q := by
  have htext := h.text h₀
  have heven := h₀.even
  have hend := h₀.tableEnd
  have hlt : r < 16 := by omega
  have h14 : 14 < 16 := by decide
  have h0 : 0 < 16 := by decide
  have harg : Points (g.reg 14 + castInt16 ((0x0008 : BitVec 16).setWidth 32)) (p + 4) :=
    h.points h₀ (d := 8) rfl (by omega) (by omega)
  have start : Leads stop (g.goto (base + 2 * k)) (g.goto (base + 2 * k)) := .refl
  have run₁ := start.next hstop htext rfl (hcode.word 0 rfl) decode_D080 (does_readModifyWrite rfl
    (does_fetchSource (does_getData_data (by decide))) (does_getDataSilent_data (by decide))
    (does_setData_data (by decide)) does_setArithmeticFlags)
  have run₂ := run₁.next hstop htext rfl (hcode.word 1 rfl) decode_D080 (does_readModifyWrite rfl
    (does_fetchSource (does_getData_data (by decide))) (does_getDataSilent_data (by decide))
    (does_setData_data (by decide)) does_setArithmeticFlags)
  have run₃ := run₂.next hstop htext rfl (hcode.word 2 rfl) hmovea (does_movea rfl rfl
    (does_getData_displacement h14 (htext.codeWord (k + 3) (hcode.word 3 rfl)) harg
      (h.room h₀ (by omega) (by omega))) (does_setData_addr hlt))
  have run₄ :=
    run₃.next hstop htext rfl (hcode.word 4 rfl) hadda (does_adda rfl (does_getData_data h0)
    (does_getDataSilent_addr hlt) (does_setData_addr hlt))
  have hindex : g.reg 0 + g.reg 0 + (g.reg 0 + g.reg 0) = BitVec.ofNat 32 (4 * n) := by
    rw [hd0, ofNat_add_ofNat, ofNat_add_ofNat]
    congr 1
    omega
  have hne : (0 : ℕ) ≠ r := by omega
  refine ⟨_, run₄, rfl, rfl, ?_, fun q hq₀ hq => ?_⟩
  · have hpoints : Points (g.memory.long (p + 4) + BitVec.ofNat 32 (4 * n)) (tp + 4 * n) := by
      refine Points.add ?_ (by omega) (by omega)
      rw [h.argument h₀ (.inl rfl)]
      exact h₀.tableArg
    rw [← hindex, BitVec.add_comm] at hpoints
    simpa [hne] using hpoints
  · simp [hq₀, hq]

/-- `j` in `D0`. -/
theorem leads_index (hstop : Beyond stop base (sortText dir)) (h₀ : Called dir base p tp size g₀)
    (h : Busy p tp size g₀ i j f g) (hcode : StandsAt [0x202E, 0xFFF8] (sortText dir) k) :
    ∃ g', Leads stop (g.goto (base + 2 * k)) g' ∧ g'.pc = base + 2 * (k + 2) ∧
    g'.memory = g.memory ∧ g'.reg 0 = j ∧ ∀ q, q ≠ 0 → g'.reg q = g.reg q := by
  have htext := h.text h₀
  have heven := h₀.even
  have hbelow := h₀.below
  have start : Leads stop (g.goto (base + 2 * k)) (g.goto (base + 2 * k)) := .refl
  have run := start.next hstop htext rfl (hcode.word 0 rfl) decode_202E (does_move rfl rfl
    (does_getData_displacement (by decide) (htext.codeWord (k + 1) (hcode.word 1 rfl))
      (h.points (a := p - 12) h₀ (d := -8) rfl (by omega) (by omega))
      (h.room h₀ (by omega) (by omega))) (does_setData_data (by decide)))
  exact ⟨_, run, rfl, rfl, h.varJ, fun q hq => if_neg hq⟩

/-- `j + 1` in `D0`. -/
theorem leads_nextIndex (hstop : Beyond stop base (sortText dir))
    (h₀ : Called dir base p tp size g₀)
    (h : Busy p tp size g₀ i j f g) (hcode : StandsAt [0x202E, 0xFFF8, 0x5280] (sortText dir) k) :
    ∃ g', Leads stop (g.goto (base + 2 * k)) g' ∧ g'.pc = base + 2 * (k + 3) ∧
    g'.memory = g.memory ∧ g'.reg 0 = 1 + j ∧ ∀ q, q ≠ 0 → g'.reg q = g.reg q := by
  have hindex : StandsAt [0x202E, 0xFFF8] (sortText dir) k :=
    (List.prefix_append [0x202E, 0xFFF8] [0x5280]).trans hcode
  obtain ⟨g₁, run₁, hpc₁, hmem₁, hd0, hregs₁⟩ := leads_index hstop h₀ h hindex
  have htext : Loaded g₁.memory base (sortText dir) := hmem₁ ▸ h.text h₀
  have run₂ :=
    run₁.next hstop htext hpc₁ (hcode.word 2 rfl) decode_5280
      (does_readModifyWrite rfl (Turns.pure _ _)
    (does_getDataSilent_data (by decide)) (does_setData_data (by decide)) does_setArithmeticFlags)
  refine ⟨_, run₂, ?_, hmem₁, congrArg (fun v : BitVec 32 => 1 + v) hd0, fun q hq =>
    (if_neg hq).trans (hregs₁ q hq)⟩
  exact congrArg (fun n : ℕ => n + 2) hpc₁

/-- The address of the cell `j`. -/
theorem leads_cell {movea adda : BitVec 16} {r : ℕ} (hstop : Beyond stop base (sortText dir))
    (h₀ : Called dir base p tp size g₀) (h : Busy p tp size g₀ i (BitVec.ofNat 32 n) f g)
    (hindex : StandsAt [0x202E, 0xFFF8] (sortText dir) k)
    (hcode : StandsAt [0xD080, 0xD080, movea, 0x0008, adda] (sortText dir) (k + 2))
    (hmovea : (decode movea).derived = .move (longMovea .indirectDisplacement 14 r))
    (hadda : (decode adda).derived = .adda (longBoth .directData 0 .directAddr r))
    (hr : r = 8 ∨ r = 9) (hn : n < size) : ∃ g', Leads stop (g.goto (base + 2 * k)) g' ∧
    g'.pc = base + 2 * (k + 7) ∧ g'.memory = g.memory ∧
      Points (g'.reg r) (tp + 4 * n) ∧ ∀ q, q ≠ 0 → q ≠ r → g'.reg q = g.reg q := by
  obtain ⟨g₁, run₁, hpc₁, hmem₁, hd0, hregs₁⟩ := leads_index hstop h₀ h hindex
  have h₁ := h.keep hmem₁ fun q hq _ _ _ => hregs₁ q hq
  obtain ⟨g₂, run₂, hpc₂, hmem₂, hpoints, hregs₂⟩ :=
    leads_address hstop h₀ h₁ hcode hmovea hadda hr hn hd0
  exact ⟨g₂, run₁.andThen hpc₁ run₂, hpc₂, hmem₂.trans hmem₁, hpoints,
    fun q hq₀ hq => (hregs₂ q hq₀ hq).trans (hregs₁ q hq₀)⟩

/-- The address of the cell `j + 1`. -/
theorem leads_nextCell (hstop : Beyond stop base (sortText dir))
    (h₀ : Called dir base p tp size g₀) (h : Busy p tp size g₀ i (BitVec.ofNat 32 n) f g)
    (hindex : StandsAt [0x202E, 0xFFF8, 0x5280] (sortText dir) k)
    (hcode : StandsAt [0xD080, 0xD080, 0x206E, 0x0008, 0xD1C0] (sortText dir) (k + 3))
    (hn : n + 1 < size) : ∃ g', Leads stop (g.goto (base + 2 * k)) g' ∧ g'.pc = base + 2 * (k + 8) ∧
    g'.memory = g.memory ∧
      Points (g'.reg 8) (tp + 4 * (n + 1)) ∧ ∀ q, q ≠ 0 → q ≠ 8 → g'.reg q = g.reg q := by
  obtain ⟨g₁, run₁, hpc₁, hmem₁, hd0, hregs₁⟩ := leads_nextIndex hstop h₀ h hindex
  have h₁ := h.keep hmem₁ fun q hq _ _ _ => hregs₁ q hq
  have hd0' : g₁.reg 0 = BitVec.ofNat 32 (n + 1) := by
    rw [hd0, BitVec.add_comm]
    exact ofNat_add_ofNat n 1
  obtain ⟨g₂, run₂, hpc₂, hmem₂, hpoints, hregs₂⟩ :=
    leads_address hstop h₀ h₁ hcode decode_206E decode_D1C0 (.inl rfl) hn hd0'
  exact ⟨g₂, run₁.andThen hpc₁ run₂, hpc₂, hmem₂.trans hmem₁, hpoints,
    fun q hq₀ hq => (hregs₂ q hq₀ hq).trans (hregs₁ q hq₀)⟩

/-! ### The inner loop -/

/-- The cell `j` in `D1`. -/
theorem leads_loadCell (hstop : Beyond stop base (sortText dir)) (h₀ : Called dir base p tp size g₀)
    (h : Busy p tp size g₀ i (BitVec.ofNat 32 n) f g) (hn : n < size) :
    ∃ g', Leads stop (g.goto (base + 18)) g' ∧ g'.pc = base + 34 ∧
    Busy p tp size g₀ i (BitVec.ofNat 32 n) f g' ∧ g'.reg 1 = f n := by
  obtain ⟨g₁, run₁, hpc₁, hmem₁, hpoints, hregs⟩ := leads_cell (k := 9) hstop h₀ h ⟨_, rfl⟩ ⟨_, rfl⟩
    decode_206E decode_D1C0 (.inl rfl) hn
  have h₁ := h.keep hmem₁ fun q hq _ hq₈ _ => hregs q hq hq₈
  have run₂ := run₁.next (i := 16) hstop (h₁.text h₀) hpc₁ rfl decode_2210
    (does_move rfl rfl (does_getData_indirect (by decide) hpoints (h₁.room_cell h₀ hn))
      (does_setData_data (by decide)))
  exact ⟨_, run₂, congrArg (fun n : ℕ => n + 2) hpc₁, h₁.keep rfl fun q _ hq _ _ => if_neg hq,
    h₁.cells n hn⟩

/-- The cell `j + 1` in `D0`. -/
theorem leads_loadNext (hstop : Beyond stop base (sortText dir)) (h₀ : Called dir base p tp size g₀)
    (h : Busy p tp size g₀ i (BitVec.ofNat 32 n) f g) (hn : n + 1 < size) :
    ∃ g', Leads stop (g.goto (base + 34)) g' ∧ g'.pc = base + 52 ∧
    Busy p tp size g₀ i (BitVec.ofNat 32 n) f g' ∧ g'.reg 0 = f (n + 1) ∧ g'.reg 1 = g.reg 1 := by
  obtain ⟨g₁, run₁, hpc₁, hmem₁, hpoints, hregs⟩ :=
    leads_nextCell (k := 17) hstop h₀ h ⟨_, rfl⟩ ⟨_, rfl⟩ hn
  have h₁ := h.keep hmem₁ fun q hq _ hq₈ _ => hregs q hq hq₈
  have run₂ := run₁.next (i := 25) hstop (h₁.text h₀) hpc₁ rfl decode_2010
    (does_move rfl rfl (does_getData_indirect (by decide) hpoints (h₁.room_cell h₀ hn))
      (does_setData_data (by decide)))
  exact ⟨_, run₂, congrArg (fun n : ℕ => n + 2) hpc₁, h₁.keep rfl fun q hq _ _ _ => if_neg hq,
    h₁.cells (n + 1) hn, hregs 1 (by decide) (by decide)⟩

/-- The comparison of the cells `j` and `j + 1`. -/
theorem leads_compareCells (hstop : Beyond stop base (sortText dir))
    (h₀ : Called dir base p tp size g₀) (h : Busy p tp size g₀ i (BitVec.ofNat 32 n) f g)
    (hn : n + 1 < size) (hsmall : ∀ k < size, Small (f k)) :
    ∃ g', Leads stop (g.goto (base + 18)) g' ∧
    g'.pc = (if dir.key (f (n + 1)) < dir.key (f n) then base + 56 else base + 128) ∧
      Busy p tp size g₀ i (BitVec.ofNat 32 n) f g' := by
  obtain ⟨g₁, run₁, hpc₁, h₁, hd1⟩ := leads_loadCell hstop h₀ h (by omega)
  obtain ⟨g₂, run₂, hpc₂, h₂, hd0, hd1'⟩ := leads_loadNext hstop h₀ h₁ hn
  have htext := h₂.text h₀
  have run₃ := (run₁.andThen hpc₁ run₂).next (i := 26) hstop htext hpc₂ rfl decode_B081
    (does_compareWith rfl (does_fetchSource (does_getData_data (by decide)))
      (does_getData_data (by decide)))
  have hanswer :
    dir.comparison.answer (arithmeticCodes (g₂.reg 1) (g₂.reg 0) (g₂.reg 0 - g₂.reg 1)) =
      decide (¬dir.key (f (n + 1)) < dir.key (f n)) := by
    rw [hd1', hd1, hd0, answer_of_small (hsmall n (by omega)) (hsmall (n + 1) hn)
      dir.comparison dir.signed, dir.holds_comparison]
  have run₄ :=
    run₃.branch (i := 27) (d := 72) hstop htext (congrArg (fun n : ℕ => n + 2) hpc₂) rfl
      dir.decode_branch dir.comparison_condition rfl rfl (by omega : _ = ((base + 128 : ℕ) : ℤ))
      ((ite_of_eq_decide hanswer).trans (ite_not ..))
  exact ⟨_, run₄, rfl, h₂.keep rfl fun _ _ _ _ _ => rfl⟩

/-- `temp = table[j + 1];` -/
theorem leads_saveCell (hstop : Beyond stop base (sortText dir)) (h₀ : Called dir base p tp size g₀)
    (h : Busy p tp size g₀ i (BitVec.ofNat 32 n) f g) (hn : n + 1 < size) :
    ∃ g', Leads stop (g.goto (base + 56)) g' ∧ g'.pc = base + 76 ∧
    Busy p tp size g₀ i (BitVec.ofNat 32 n) f g' ∧ g'.memory.long (p - 16) = f (n + 1) := by
  have heven := h₀.even
  have hbelow := h₀.below
  obtain ⟨g₁, run₁, hpc₁, hmem₁, hpoints, hregs⟩ :=
    leads_nextCell (k := 28) hstop h₀ h ⟨_, rfl⟩ ⟨_, rfl⟩ hn
  have h₁ := h.keep hmem₁ fun q hq _ hq₈ _ => hregs q hq hq₈
  have htext := h₁.text h₀
  have hword : CodeWord g₁.memory (g₁.pc + 2) 0xFFF4 := by
    rw [hpc₁]
    exact htext.codeWord 37 rfl
  have run₂ := run₁.next (i := 36) hstop htext hpc₁ rfl decode_2D50
    (does_move rfl rfl (does_getData_indirect (by decide) hpoints (h₁.room_cell h₀ hn))
      (does_setData_displacement (by decide) hword
        (h₁.points (a := p - 16) h₀ (d := -12) rfl (by omega) (by omega))
        (h₁.room h₀ (by omega) (by omega))))
  refine ⟨_, run₂, congrArg (fun n : ℕ => n + 4) hpc₁,
    (h₁.putTemp h₀).keep rfl fun _ _ _ _ _ => rfl, ?_⟩
  exact BaseMemory.long_putLong_self.trans (h₁.cells (n + 1) hn)

/-- `table[j + 1] = table[j];` -/
theorem leads_copyCell (hstop : Beyond stop base (sortText dir)) (h₀ : Called dir base p tp size g₀)
    (h : Busy p tp size g₀ i (BitVec.ofNat 32 n) f g) (hn : n + 1 < size) :
    ∃ g', Leads stop (g.goto (base + 76)) g' ∧ g'.pc = base + 110 ∧
      Busy p tp size g₀ i (BitVec.ofNat 32 n) (Function.update f (n + 1) (f n)) g' ∧
      g'.memory.long (p - 16) = g.memory.long (p - 16) := by
  have hframe := h₀.frameApart
  have hbelow := h₀.below
  have hlt : n < size := by omega
  obtain ⟨g₁, run₁, hpc₁, hmem₁, hpoints₁, hregs₁⟩ :=
    leads_cell (k := 38) hstop h₀ h ⟨_, rfl⟩ ⟨_, rfl⟩ decode_226E decode_D3C0 (.inr rfl) hlt
  have h₁ := h.keep hmem₁ fun q hq _ _ hq₉ => hregs₁ q hq hq₉
  obtain ⟨g₂, run₂, hpc₂, hmem₂, hpoints₂, hregs₂⟩ :=
    leads_nextCell (k := 45) hstop h₀ h₁ ⟨_, rfl⟩ ⟨_, rfl⟩ hn
  have h₂ := h₁.keep hmem₂ fun q hq _ hq₈ _ => hregs₂ q hq hq₈
  have htext := h₂.text h₀
  have hpoints : Points (g₂.reg 9) (tp + 4 * n) := by
    rw [hregs₂ 9 (by decide) (by decide)]
    exact hpoints₁
  have run₃ := (run₁.andThen hpc₁ run₂).next (i := 53) hstop htext hpc₂ rfl decode_2011
    (does_move rfl rfl (does_getData_indirect (by decide) hpoints (h₂.room_cell h₀ hlt))
      (does_setData_data (by decide)))
  have run₄ := run₃.next (i := 54) hstop htext (congrArg (fun n : ℕ => n + 2) hpc₂) rfl decode_2080
    (does_move rfl rfl (does_getData_data (by decide))
      (does_setData_indirect (by decide) hpoints₂ (h₂.room_cell h₀ hn)))
  have hvalue : g₂.memory.long (tp + 4 * n) = f n := h₂.cells n hlt
  refine ⟨_, run₄, congrArg (fun n : ℕ => n + 4) hpc₂, ?_, ?_⟩
  · rw [← hvalue]
    exact (h₂.putCell h₀ hn).keep rfl fun q hq _ _ _ => if_neg hq
  · refine (BaseMemory.long_putLong (by omega)).trans ?_
    rw [Guest.memory_goto, Guest.memory_withCodes, Guest.memory_withReg,
      Guest.memory_goto, hmem₂, hmem₁]

/-- `table[j] = temp;` -/
theorem leads_restoreCell (hstop : Beyond stop base (sortText dir))
    (h₀ : Called dir base p tp size g₀)
    (h : Busy p tp size g₀ i (BitVec.ofNat 32 n) f g) (hn : n < size) :
    ∃ g', Leads stop (g.goto (base + 110)) g' ∧ g'.pc = base + 128 ∧
      Busy p tp size g₀ i (BitVec.ofNat 32 n)
        (Function.update f n (g.memory.long (p - 16))) g' := by
  have heven := h₀.even
  have hbelow := h₀.below
  obtain ⟨g₁, run₁, hpc₁, hmem₁, hpoints, hregs⟩ :=
    leads_cell (k := 55) hstop h₀ h ⟨_, rfl⟩ ⟨_, rfl⟩ decode_206E decode_D1C0 (.inl rfl) hn
  have h₁ := h.keep hmem₁ fun q hq _ hq₈ _ => hregs q hq hq₈
  have htext := h₁.text h₀
  have hword : CodeWord g₁.memory (g₁.pc + 2) 0xFFF4 := by
    rw [hpc₁]
    exact htext.codeWord 63 rfl
  have run₂ := run₁.next (i := 62) hstop htext hpc₁ rfl decode_20AE
    (does_move rfl rfl (does_getData_displacement (by decide) hword
      (h₁.points (a := p - 16) h₀ (d := -12) rfl (by omega) (by omega))
      (h₁.room h₀ (by omega) (by omega)))
      (does_setData_indirect (by decide) hpoints (h₁.room_cell h₀ hn)))
  refine ⟨_, run₂, congrArg (fun n : ℕ => n + 4) hpc₁, ?_⟩
  rw [← hmem₁]
  exact (h₁.putCell h₀ hn).keep rfl fun _ _ _ _ _ => rfl

/-- The cells `j` and `j + 1` are exchanged. -/
theorem leads_swap (hstop : Beyond stop base (sortText dir)) (h₀ : Called dir base p tp size g₀)
    (h : Busy p tp size g₀ i (BitVec.ofNat 32 n) f g) (hn : n + 1 < size) :
    ∃ g', Leads stop (g.goto (base + 56)) g' ∧ g'.pc = base + 128 ∧
      Busy p tp size g₀ i (BitVec.ofNat 32 n) (f ∘ Equiv.swap n (n + 1)) g' := by
  obtain ⟨g₁, run₁, hpc₁, h₁, htemp₁⟩ := leads_saveCell hstop h₀ h hn
  obtain ⟨g₂, run₂, hpc₂, h₂, htemp₂⟩ := leads_copyCell hstop h₀ h₁ hn
  obtain ⟨g₃, run₃, hpc₃, h₃⟩ := leads_restoreCell hstop h₀ h₂ (by omega)
  refine ⟨g₃, (run₁.andThen hpc₁ run₂).andThen hpc₂ run₃, hpc₃, ?_⟩
  rw [Equiv.comp_swap_eq_update, ← htemp₁, ← htemp₂]
  exact h₃

/-- `j++` -/
theorem leads_nextJ (hstop : Beyond stop base (sortText dir)) (h₀ : Called dir base p tp size g₀)
    (h : Busy p tp size g₀ i (BitVec.ofNat 32 n) f g) :
    ∃ g', Leads stop (g.goto (base + 128)) g' ∧ g'.pc = base + 132 ∧
      Busy p tp size g₀ i (BitVec.ofNat 32 (n + 1)) f g' := by
  have heven := h₀.even
  have hbelow := h₀.below
  have htext := h.text h₀
  have hpoints : Points (g.reg 14 + castInt16 ((0xFFF8 : BitVec 16).setWidth 32)) (p - 12) :=
    h.points h₀ (d := -8) rfl (by omega) (by omega)
  have hroom : g.memory.Room (p - 12) := h.room h₀ (by omega) (by omega)
  have start : Leads stop (g.goto (base + 128)) (g.goto (base + 128)) := .refl
  have run :=
    start.next (i := 64) hstop htext rfl rfl decode_52AE (does_readModifyWrite rfl (Turns.pure _ _)
    (does_getDataSilent_displacement (by decide) (htext.codeWord 65 rfl) hpoints hroom)
    (does_setData_displacement (by decide) (htext.codeWord 65 rfl) hpoints hroom)
    does_setArithmeticFlags)
  have hvalue : 1 + g.memory.long (p - 12) = BitVec.ofNat 32 (n + 1) := by
    rw [h.varJ, BitVec.add_comm]
    exact ofNat_add_ofNat n 1
  refine ⟨_, run, rfl, ?_⟩
  rw [← hvalue]
  exact (h.putJ h₀).keep rfl fun _ _ _ _ _ => rfl

/-- `size - 1` in `D0`. -/
theorem leads_bound (hstop : Beyond stop base (sortText dir)) (h₀ : Called dir base p tp size g₀)
    (h : Busy p tp size g₀ i j f g) (hcode : StandsAt [0x202E, 0x000C, 0x5380] (sortText dir) k) :
    ∃ g', Leads stop (g.goto (base + 2 * k)) g' ∧ g'.pc = base + 2 * (k + 3) ∧
    Busy p tp size g₀ i j f g' ∧ (g'.reg 0).toInt = size - 1 := by
  have htext := h.text h₀
  have heven := h₀.even
  have hend := h₀.tableEnd
  have start : Leads stop (g.goto (base + 2 * k)) (g.goto (base + 2 * k)) := .refl
  have run₁ := start.next hstop htext rfl (hcode.word 0 rfl) decode_202E (does_move rfl rfl
    (does_getData_displacement (by decide) (htext.codeWord (k + 1) (hcode.word 1 rfl))
      (h.points (a := p + 8) h₀ (d := 12) rfl (by omega) (by omega))
      (h.room h₀ (by omega) (by omega))) (does_setData_data (by decide)))
  have run₂ :=
    run₁.next hstop htext rfl (hcode.word 2 rfl) decode_5380
      (does_readModifyWrite rfl (Turns.pure _ _)
    (does_getDataSilent_data (by decide)) (does_setData_data (by decide)) does_setArithmeticFlags)
  refine ⟨_, run₂, rfl, h.keep rfl fun q hq _ _ _ => ?_, ?_⟩
  · simp [hq]
  · have hsize : g.memory.long (p + 8) = BitVec.ofNat 32 size :=
      (h.argument h₀ (.inr rfl)).trans h₀.sizeArg
    refine toInt_sub_of_range (y := 1) ?_ rfl (by omega)
    exact (congrArg BitVec.toInt hsize).trans (toInt_ofNat_of_lt (by omega))

/-- `j < size - 1 - i` -/
theorem leads_innerTest (hstop : Beyond stop base (sortText dir))
    (h₀ : Called dir base p tp size g₀) {m : ℕ} (hm : m < size)
    (hn : n < size) (h : Busy p tp size g₀ (BitVec.ofNat 32 m) (BitVec.ofNat 32 n) f g) :
    ∃ g', Leads stop (g.goto (base + 132)) g' ∧
    g'.pc = (if n < size - 1 - m then base + 18 else base + 150) ∧
      Busy p tp size g₀ (BitVec.ofNat 32 m) (BitVec.ofNat 32 n) f g' := by
  have heven := h₀.even
  have hbelow := h₀.below
  have hend := h₀.tableEnd
  obtain ⟨g₁, run₁, hpc₁, h₁, hd0⟩ := leads_bound (k := 66) hstop h₀ h ⟨_, rfl⟩
  have htext := h₁.text h₀
  have hword : CodeWord g₁.memory (g₁.pc + 2) 0xFFFC := by
    rw [hpc₁]
    exact htext.codeWord 70 rfl
  have hword' : CodeWord g₁.memory (g₁.pc + 2 + 2 + 2) 0xFFF8 := by
    rw [hpc₁]
    exact htext.codeWord 72 rfl
  have run₂ := run₁.next (i := 69) hstop htext hpc₁ rfl decode_90AE (does_readModifyWrite rfl
    (does_fetchSource (does_getData_displacement (by decide) hword
      (h₁.points (a := p - 8) h₀ (d := -4) rfl (by omega) (by omega))
      (h₁.room h₀ (by omega) (by omega))))
    (does_getDataSilent_data (by decide)) (does_setData_data (by decide)) does_setArithmeticFlags)
  have run₃ :=
    run₂.next (i := 71) hstop htext (congrArg (fun n : ℕ => n + 4) hpc₁) rfl decode_B0AE
      (does_compareWith rfl (does_fetchSource (does_getData_displacement (by decide) hword'
      (h₁.points (a := p - 12) h₀ (d := -8) rfl (by omega) (by omega))
      (h₁.room h₀ (by omega) (by omega)))) (does_getData_data (by decide)))
  have hdiff : (g₁.reg 0 - g₁.memory.long (p - 8)).toInt = (size : ℤ) - 1 - m := by
    rw [h₁.varI]
    exact toInt_sub_of_range hd0 (toInt_ofNat_of_lt (by omega)) (by omega)
  have hsmall : Small (g₁.reg 0 - g₁.memory.long (p - 8)) := by
    rw [Small, hdiff]
    omega
  have hanswer :
      Comparison.sgt.answer
      (arithmeticCodes (g₁.memory.long (p - 12)) (g₁.reg 0 - g₁.memory.long (p - 8))
      (g₁.reg 0 - g₁.memory.long (p - 8) - g₁.memory.long (p - 12))) =
      decide (n < size - 1 - m) := by
    rw [h₁.varJ, answer_of_small (small_ofNat (by omega)) hsmall .sgt (.inr (.inl rfl))]
    refine decide_eq_decide.2 ?_
    rw [hdiff, toInt_ofNat_of_lt (by omega)]
    omega
  have run₄ :=
    run₃.branchWord (i := 73) (d := -130) hstop htext (congrArg (fun n : ℕ => n + 8) hpc₁)
      rfl decode_6E00
    rfl rfl rfl rfl (by omega : _ = ((base + 18 : ℕ) : ℤ)) (ite_of_eq_decide hanswer)
  exact ⟨_, run₄, rfl, h₁.keep rfl fun q hq _ _ _ => if_neg hq⟩

/-- `i < size - 1` -/
theorem leads_outerTest (hstop : Beyond stop base (sortText dir))
    (h₀ : Called dir base p tp size g₀) {m : ℕ} (hm : m ≤ size)
    (h : Busy p tp size g₀ (BitVec.ofNat 32 m) j f g) :
    ∃ g', Leads stop (g.goto (base + 154)) g' ∧
    g'.pc = (if m < size - 1 then base + 12 else base + 168) ∧
      Busy p tp size g₀ (BitVec.ofNat 32 m) j f g' := by
  have heven := h₀.even
  have hbelow := h₀.below
  have hend := h₀.tableEnd
  obtain ⟨g₁, run₁, hpc₁, h₁, hd0⟩ := leads_bound (k := 77) hstop h₀ h ⟨_, rfl⟩
  have htext := h₁.text h₀
  have hword : CodeWord g₁.memory (g₁.pc + 2) 0xFFFC := by
    rw [hpc₁]
    exact htext.codeWord 81 rfl
  have run₂ := run₁.next (i := 80) hstop htext hpc₁ rfl decode_B0AE (does_compareWith rfl
    (does_fetchSource (does_getData_displacement (by decide) hword
      (h₁.points (a := p - 8) h₀ (d := -4) rfl (by omega) (by omega))
      (h₁.room h₀ (by omega) (by omega)))) (does_getData_data (by decide)))
  have hsmall : Small (g₁.reg 0) := by
    rw [Small, hd0]
    omega
  have hanswer : Comparison.sgt.answer (arithmeticCodes (g₁.memory.long (p - 8)) (g₁.reg 0)
      (g₁.reg 0 - g₁.memory.long (p - 8))) = decide (m < size - 1) := by
    rw [h₁.varI, answer_of_small (small_ofNat (by omega)) hsmall .sgt (.inr (.inl rfl))]
    refine decide_eq_decide.2 ?_
    rw [hd0, toInt_ofNat_of_lt (by omega)]
    omega
  have run₃ :=
    run₂.branchWord (i := 82) (d := -154) hstop htext (congrArg (fun n : ℕ => n + 4) hpc₁)
      rfl decode_6E00
    rfl rfl rfl rfl (by omega : _ = ((base + 12 : ℕ) : ℤ)) (ite_of_eq_decide hanswer)
  exact ⟨_, run₃, rfl, h₁.keep rfl fun _ _ _ _ _ => rfl⟩

variable {m : ℕ}

/-- One turn of the inner loop. -/
theorem leads_innerTurn (hstop : Beyond stop base (sortText dir))
    (h₀ : Called dir base p tp size g₀) (hm : m < size)
    (hn : n < size - 1 - m) (h : Busy p tp size g₀ (BitVec.ofNat 32 m) (BitVec.ofNat 32 n) f g)
    (hsmall : ∀ k < size, Small (f k)) :
    ∃ g', Leads stop (g.goto (base + 132)) g' ∧ g'.pc = base + 132 ∧
      Busy p tp size g₀ (BitVec.ofNat 32 m) (BitVec.ofNat 32 (n + 1)) (sift dir.key f n) g' := by
  obtain ⟨g₁, run₁, hpc₁, h₁⟩ := leads_innerTest hstop h₀ hm (by omega) h
  rw [if_pos hn] at hpc₁
  obtain ⟨g₂, run₂, hpc₂, h₂⟩ := leads_compareCells hstop h₀ h₁ (by omega) hsmall
  have run := run₁.andThen hpc₁ run₂
  unfold sift
  split_ifs at hpc₂ ⊢ with hlt
  · obtain ⟨g₃, run₃, hpc₃, h₃⟩ := leads_swap hstop h₀ h₂ (by omega)
    obtain ⟨g₄, run₄, hpc₄, h₄⟩ := leads_nextJ hstop h₀ h₃
    exact ⟨g₄, (run.andThen hpc₂ run₃).andThen hpc₃ run₄, hpc₄, h₄⟩
  · obtain ⟨g₃, run₃, hpc₃, h₃⟩ := leads_nextJ hstop h₀ h₂
    exact ⟨g₃, run.andThen hpc₂ run₃, hpc₃, h₃⟩

/-- The inner loop is a pass. -/
theorem leads_innerLoop (hstop : Beyond stop base (sortText dir))
    (h₀ : Called dir base p tp size g₀) (hm : m < size)
    (h : Busy p tp size g₀ (BitVec.ofNat 32 m) 0 f g) (hsmall : ∀ k < size, Small (f k)) :
    ∃ j g', Leads stop (g.goto (base + 132)) g' ∧ g'.pc = base + 150 ∧
      Busy p tp size g₀ (BitVec.ofNat 32 m) j (pass dir.key f (size - 1 - m)) g' := by
  obtain ⟨g₁, run₁, hpc₁, h₁⟩ := path_upTo (n := size - 1 - m) (g := g.goto (base + 132))
    (I := fun n g => g.pc = base + 132 ∧
      Busy p tp size g₀ (BitVec.ofNat 32 m) (BitVec.ofNat 32 n) (pass dir.key f n) g)
    (fun n hn g ⟨hpc, h⟩ => by
      have hpass := (rearranged_pass dir.key f n).mono (n := size) (by omega)
      obtain ⟨g', run, hpc', h'⟩ :=
        leads_innerTurn hstop h₀ hm hn h fun k hk => hpass.forall_below hsmall hk
      rw [Guest.goto_self hpc] at run
      exact ⟨g', run, hpc', h'⟩)
    ⟨rfl, h.keep rfl fun _ _ _ _ _ => rfl⟩
  obtain ⟨g₂, run₂, hpc₂, h₂⟩ := leads_innerTest hstop h₀ hm (by omega) h₁
  rw [if_neg (lt_irrefl _)] at hpc₂
  exact ⟨_, g₂, Leads.andThen run₁ hpc₁ run₂, hpc₂, h₂⟩

/-! ### The outer loop -/

/-- `j = 0` -/
theorem leads_firstJ (hstop : Beyond stop base (sortText dir)) (h₀ : Called dir base p tp size g₀)
    (h : Busy p tp size g₀ i j f g) :
    ∃ g', Leads stop (g.goto (base + 12)) g' ∧ g'.pc = base + 132 ∧ Busy p tp size g₀ i 0 f g' := by
  have heven := h₀.even
  have hbelow := h₀.below
  have htext := h.text h₀
  have start : Leads stop (g.goto (base + 12)) (g.goto (base + 12)) := .refl
  have run₁ := start.next (i := 6) hstop htext rfl rfl decode_42AE (does_clr rfl
    (does_setData_displacement (by decide) (htext.codeWord 7 rfl)
      (h.points (a := p - 12) h₀ (d := -8) rfl (by omega) (by omega))
      (h.room h₀ (by omega) (by omega))))
  have h₁ : Busy p tp size g₀ i 0 f (g.putLong (p - 12) 0) := h.putJ h₀
  have run₂ := run₁.always (i := 8) (d := 114) hstop (h₁.text h₀) rfl rfl decode_6072 rfl rfl rfl
    (by omega : _ = ((base + 132 : ℕ) : ℤ))
  exact ⟨_, run₂, rfl, h₁.keep rfl fun _ _ _ _ _ => rfl⟩

/-- `i++` -/
theorem leads_nextI (hstop : Beyond stop base (sortText dir)) (h₀ : Called dir base p tp size g₀)
    (h : Busy p tp size g₀ (BitVec.ofNat 32 m) j f g) :
    ∃ g', Leads stop (g.goto (base + 150)) g' ∧ g'.pc = base + 154 ∧
      Busy p tp size g₀ (BitVec.ofNat 32 (m + 1)) j f g' := by
  have heven := h₀.even
  have hbelow := h₀.below
  have htext := h.text h₀
  have hpoints : Points (g.reg 14 + castInt16 ((0xFFFC : BitVec 16).setWidth 32)) (p - 8) :=
    h.points h₀ (d := -4) rfl (by omega) (by omega)
  have hroom : g.memory.Room (p - 8) := h.room h₀ (by omega) (by omega)
  have start : Leads stop (g.goto (base + 150)) (g.goto (base + 150)) := .refl
  have run :=
    start.next (i := 75) hstop htext rfl rfl decode_52AE (does_readModifyWrite rfl (Turns.pure _ _)
    (does_getDataSilent_displacement (by decide) (htext.codeWord 76 rfl) hpoints hroom)
    (does_setData_displacement (by decide) (htext.codeWord 76 rfl) hpoints hroom)
    does_setArithmeticFlags)
  have hvalue : 1 + g.memory.long (p - 8) = BitVec.ofNat 32 (m + 1) := by
    rw [h.varI, BitVec.add_comm]
    exact ofNat_add_ofNat m 1
  refine ⟨_, run, rfl, ?_⟩
  rw [← hvalue]
  exact (h.putI h₀).keep rfl fun _ _ _ _ _ => rfl

/-- One turn of the outer loop. -/
theorem leads_outerTurn (hstop : Beyond stop base (sortText dir))
    (h₀ : Called dir base p tp size g₀) (hm : m < size - 1)
    (h : Busy p tp size g₀ (BitVec.ofNat 32 m) j f g) (hsmall : ∀ k < size, Small (f k)) :
    ∃ j' g', Leads stop (g.goto (base + 154)) g' ∧ g'.pc = base + 154 ∧
      Busy p tp size g₀ (BitVec.ofNat 32 (m + 1)) j' (pass dir.key f (size - 1 - m)) g' := by
  obtain ⟨g₁, run₁, hpc₁, h₁⟩ := leads_outerTest hstop h₀ (by omega) h
  rw [if_pos hm] at hpc₁
  obtain ⟨g₂, run₂, hpc₂, h₂⟩ := leads_firstJ hstop h₀ h₁
  obtain ⟨j', g₃, run₃, hpc₃, h₃⟩ := leads_innerLoop hstop h₀ (by omega) h₂ hsmall
  obtain ⟨g₄, run₄, hpc₄, h₄⟩ := leads_nextI hstop h₀ h₃
  exact ⟨j', g₄, ((run₁.andThen hpc₁ run₂).andThen hpc₂ run₃).andThen hpc₃ run₄, hpc₄, h₄⟩

/-- The outer loop sorts. -/
theorem leads_outerLoop (hstop : Beyond stop base (sortText dir))
    (h₀ : Called dir base p tp size g₀)
    (h : Busy p tp size g₀ 0 j f g) (hsmall : ∀ k < size, Small (f k)) :
    ∃ j' g', Leads stop (g.goto (base + 154)) g' ∧ g'.pc = base + 168 ∧
      Busy p tp size g₀ (BitVec.ofNat 32 (size - 1)) j' (passes dir.key size f (size - 1)) g' := by
  obtain ⟨g₁, run₁, hpc₁, j', h₁⟩ := path_upTo (n := size - 1) (g := g.goto (base + 154))
    (I := fun m g => g.pc = base + 154 ∧
      ∃ j, Busy p tp size g₀ (BitVec.ofNat 32 m) j (passes dir.key size f m) g)
    (fun m hm g ⟨hpc, j, h⟩ => by
      have hpasses := rearranged_passes dir.key size f m
      obtain ⟨j', g', run, hpc', h'⟩ :=
        leads_outerTurn hstop h₀ hm h fun k hk => hpasses.forall_below hsmall hk
      rw [Guest.goto_self hpc] at run
      exact ⟨g', run, hpc', j', h'⟩)
    ⟨rfl, j, h.keep rfl fun _ _ _ _ _ => rfl⟩
  obtain ⟨g₂, run₂, hpc₂, h₂⟩ := leads_outerTest hstop h₀ (by omega) h₁
  rw [if_neg (lt_irrefl _)] at hpc₂
  exact ⟨j', g₂, Leads.andThen run₁ hpc₁ run₂, hpc₂, h₂⟩

/-! ### The function -/

/-- The cells of the table at the entry. -/
def cellsOf (tp : ℕ) (g : Guest) (k : ℕ) : BitVec 32 := g.memory.long (tp + 4 * k)

/-- The prologue, and `i = 0`. -/
theorem leads_enter (hstop : Beyond stop base (sortText dir)) (h : Called dir base p tp size g) :
    ∃ j g', Leads stop (g.goto base) g' ∧ g'.pc = base + 154 ∧
    Busy p tp size g 0 j (cellsOf tp g) g' := by
  have heven := h.even
  have hbelow := h.below
  have habove := h.above
  have hframe := h.frameApart
  have htext := h.text
  have hfp : Points (g.reg 15 - 4) (p - 4) := h.sp.sub (n := 4) (by omega)
  have hroom : g.memory.Room (p - 4) := ⟨by omega, by omega⟩
  have hlocals : g.reg 15 - 4 + castInt16 ((0xFFF4 : BitVec 16).setWidth 32) =
      g.reg 15 - 4 - 12 := by
    rw [BitVec.sub_eq_add_neg (g.reg 15 - 4) 12]
    rfl
  have start : Leads stop (g.goto base) (g.goto base) := .refl
  have run₁ := start.next (i := 0) hstop htext rfl rfl decode_4E56
    (does_link (by decide) (htext.codeWord 1 rfl) hfp hroom hlocals)
  -- after `link`, the variables hold what was in the memory before
  have h₁ : Busy p tp size g (g.memory.long (p - 8)) (g.memory.long (p - 12)) (cellsOf tp g)
      (((((g.goto (base + 4)).withReg 15 (g.reg 15 - 4)).putLong (p - 4) (g.reg 14)).withReg 14
        (g.reg 15 - 4)).withReg 15 (g.reg 15 - 4 - 12)) := by
    refine ⟨⟨rfl, fun r hr _ _ _ _ => ?_, BaseMemory.long_putLong_self, rfl, fun a ha _ => ?_⟩, ?_,
      ?_, fun k hk => ?_⟩
    · have h₁₄ : r ≠ 14 := by omega
      have h₁₅ : r ≠ 15 := by omega
      simp [h₁₄, h₁₅]
    · exact BaseMemory.baseAddr_putLong (by omega)
    · exact BaseMemory.long_putLong (by omega)
    · exact BaseMemory.long_putLong (by omega)
    · exact BaseMemory.long_putLong (by omega)
  have htext₁ := h₁.text h
  have run₂ := run₁.next (i := 2) hstop htext₁ rfl rfl decode_42AE (does_clr rfl
    (does_setData_displacement (by decide) (htext₁.codeWord 3 rfl)
      (h₁.points (a := p - 8) h (d := -4) rfl (by omega) (by omega))
      (h₁.room h (by omega) (by omega))))
  have h₂ := h₁.putI (v := 0) h
  have run₃ :=
    run₂.alwaysWord (i := 4) (d := 144) hstop (h₂.text h) rfl rfl decode_6000 rfl rfl rfl rfl
    (by omega : _ = ((base + 154 : ℕ) : ℤ))
  exact ⟨_, _, run₃, rfl, h₂.keep rfl fun _ _ _ _ _ => rfl⟩

/-- The registers and the memory after a call that uses the stack from `low` to `high`, compared
with those before it; the stack pointer is left out. -/
structure Sorted (dir : Direction) (low high tp size : ℕ) (g g' : Guest) : Prop where
  regs : ∀ r < 15, r ≠ 0 → r ≠ 1 → r ≠ 8 → r ≠ 9 → g'.reg r = g.reg r
  memSize : g'.memory.memSize = g.memory.memSize
  bytes : ∀ a, a < low ∨ high ≤ a → a < tp ∨ tp + 4 * size ≤ a →
    g'.memory.baseAddr a = g.memory.baseAddr a
  ordered : ∀ a b, a ≤ b → b < size → dir.key (cellsOf tp g' a) ≤ dir.key (cellsOf tp g' b)
  rearranged : ∃ f, Rearranged size (cellsOf tp g) f ∧ ∀ k < size, cellsOf tp g' k = f k

/-- The epilogue. -/
theorem leads_leave (hstop : Beyond stop base (sortText dir)) (h₀ : Called dir base p tp size g₀)
    (h : Busy p tp size g₀ i j (passes dir.key size (cellsOf tp g₀) (size - 1)) g) :
    ∃ g', Leads stop (g.goto (base + 168)) g' ∧ g'.pc = (g₀.memory.long p).toNat ∧
    g'.reg 15 = g₀.reg 15 + 4 ∧ Sorted dir (p - 16) p tp size g₀ g' := by
  have heven := h₀.even
  have hbelow := h₀.below
  have hframe := h₀.frameApart
  have htext := h.text h₀
  have hfp : Points (g.reg 14) (p - 4) := by
    rw [h.fp]
    exact h₀.sp.sub (n := 4) (by omega)
  have hret : Points (g.reg 14 + 4) p := by
    rw [h.fp, BitVec.sub_add_cancel]
    exact h₀.sp
  have start : Leads stop (g.goto (base + 168)) (g.goto (base + 168)) := .refl
  have run₁ := start.next (i := 84) hstop htext rfl rfl decode_4E71 does_nop
  have run₂ := run₁.next (i := 85) hstop htext rfl rfl decode_4E71 does_nop
  have run₃ := run₂.next (i := 86) hstop htext rfl rfl decode_4E5E
    (does_unlk (by decide) hfp (h.room h₀ (by omega) (by omega)))
  have run₄ :=
    run₃.next (i := 87) hstop htext rfl rfl decode_4E75 (does_rts hret (h.room h₀ heven (by omega)))
  refine ⟨_, run₄, ?_, ?_, fun r hr hr₀ hr₁ hr₈ hr₉ => ?_, h.memSize, fun a ha =>
    h.bytes a (by omega), fun a b hab hb => ?_, ⟨_, rearranged_passes _ _ _ _, h.cells⟩⟩
  · exact congrArg BitVec.toNat (BaseMemory.long_congr fun i hi hi' =>
      h.bytes i (.inr hi) (by omega))
  · refine congrArg (fun v : BitVec 32 => v + 4) ?_
    exact (congrArg (fun v : BitVec 32 => v + 4) h.fp).trans (BitVec.sub_add_cancel _ _)
  · by_cases h₁₄ : r = 14
    · subst h₁₄
      exact h.savedFp
    · have h₁₅ : r ≠ 15 := by omega
      simp only [Guest.reg_goto, Guest.reg_withReg, if_neg h₁₅, if_neg h₁₄]
      exact h.regs r (by omega) hr₀ hr₁ hr₈ hr₉
  · have hcell (k : ℕ) (hk : k < size) : g.memory.long (tp + 4 * k) = _ := h.cells k hk
    simp only [cellsOf, Guest.memory_goto, Guest.memory_withReg]
    rw [hcell a (by omega), hcell b hb]
    exact sorted_passes dir.key size (cellsOf tp g₀) hab hb

/-- Every call of the function returns, with the table in order. -/
theorem sort_leads (hstop : Beyond stop base (sortText dir)) (h : Called dir base p tp size g) :
    ∃ g', Leads stop (g.goto base) g' ∧ g'.pc = (g.memory.long p).toNat ∧ g'.reg 15 = g.reg 15 + 4 ∧
      Sorted dir (p - 16) p tp size g g' := by
  obtain ⟨j₁, g₁, run₁, hpc₁, h₁⟩ := leads_enter hstop h
  obtain ⟨j₂, g₂, run₂, hpc₂, h₂⟩ := leads_outerLoop hstop h h₁ h.small
  obtain ⟨g₃, run₃, hpc₃, h₃⟩ := leads_leave hstop h h₂
  exact ⟨g₃, (run₁.andThen hpc₁ run₂).andThen hpc₂ run₃, hpc₃, h₃⟩

/-! ### The call from `main` -/

/-- The state before a call, with the stack pointer at the address `q`. -/
structure Prepared (dir : Direction) (base q tp size : ℕ) (g : Guest) : Prop where
  text : Loaded g.memory base (sortText dir)
  sp : Points (g.reg 15) q
  even : q % 2 = 0
  below : 28 ≤ q
  above : q ≤ g.memory.memSize.toNat
  tableEven : tp % 2 = 0
  tableBelow : tp < 2 ^ 24
  tableEnd : tp + 4 * size ≤ 2 ^ 24 ∧ tp + 4 * size ≤ g.memory.memSize.toNat
  frameApart : q ≤ tp ∨ tp + 4 * size ≤ q - 28
  textApart : base + 176 ≤ q - 28 ∨ q ≤ base
  tableApart : base + 176 ≤ tp ∨ tp + 4 * size ≤ base
  small : ∀ k < size, Small (cellsOf tp g k)

/-- The memory with the arguments and the return address pushed. -/
def pushed (mem : BaseMemory) (q tp size : ℕ) (ret : BitVec 32) : BaseMemory :=
  ((mem.putLong (q - 4) (BitVec.ofNat 32 size)).putLong (q - 8) (BitVec.ofNat 32 tp)).putLong
    (q - 12) ret

/-- `pea size` and `pea tp`, at the word `k` of a text. -/
theorem leads_arguments {text : List (BitVec 16)} {q : ℕ} {w hi lo : BitVec 16}
    (hstop : Beyond stop base text)
    (htext : Loaded g.memory base text) (hcode : StandsAt [0x4878, w, 0x4879, hi, lo] text k)
    (hsp : Points (g.reg 15) q) (heven : q % 2 = 0) (hbelow : 8 ≤ q)
    (habove : q ≤ g.memory.memSize.toNat) (hapart : base + 2 * text.length ≤ q - 8 ∨ q ≤ base) :
    ∃ u, Leads stop (g.goto (base + 2 * k)) u ∧ u.pc = base + 2 * (k + 5) ∧
      u.memory = (g.memory.putLong (q - 4) (w.setWidth 32)).putLong (q - 8)
        (hi.setWidth 32 <<< 16 ||| lo.setWidth 32) ∧
      u.reg 15 = g.reg 15 - 4 - 4 ∧ ∀ r, r ≠ 15 → u.reg r = g.reg r := by
  have hroom (b : ℕ) (hb : b % 2 = 0 ∧ b + 4 ≤ q) : g.memory.Room b := ⟨hb.1, by omega⟩
  have hsize : Points (g.reg 15 - 4) (q - 4) := hsp.sub (n := 4) (by omega)
  have htable : Points (g.reg 15 - 4 - 4) (q - 8) := hsize.sub (n := 4) (by omega)
  have htext₁ : Loaded (g.memory.putLong (q - 4) (w.setWidth 32)) base text :=
    htext.putLong (by omega)
  have start : Leads stop (g.goto (base + 2 * k)) (g.goto (base + 2 * k)) := .refl
  have run₁ := start.next hstop htext rfl (hcode.word 0 rfl) decode_4878 (does_pea rfl
    (does_getControlAddress_absWord (htext.codeWord (k + 1) (hcode.word 1 rfl))) hsize
    (hroom _ (by omega)))
  have run₂ := run₁.next hstop htext₁ rfl (hcode.word 2 rfl) decode_4879 (does_pea rfl
    (does_getControlAddress_absLong (htext₁.codeWord (k + 3) (hcode.word 3 rfl))
      (htext₁.codeWord (k + 4) (hcode.word 4 rfl))) htable (hroom _ (by omega)))
  exact ⟨_, run₂, rfl, rfl, rfl, fun r hr => by simp [hr]⟩

section Pushed

variable {mem : BaseMemory} {q : ℕ} {ret : BitVec 32} {u : Guest}

theorem baseAddr_pushed (hq : 28 ≤ q) (ha : a < q - 12 ∨ q ≤ a) :
    (pushed mem q tp size ret).baseAddr a = mem.baseAddr a := by
  unfold pushed
  rw [BaseMemory.baseAddr_putLong (by omega), BaseMemory.baseAddr_putLong (by omega),
    BaseMemory.baseAddr_putLong (by omega)]

theorem Prepared.cells (h : Prepared dir base q tp size g) (hn : n < size) :
    (pushed g.memory q tp size ret).long (tp + 4 * n) = cellsOf tp g n := by
  have hbelow := h.below
  have hframe := h.frameApart
  exact BaseMemory.long_congr fun i _ _ => baseAddr_pushed h.below (by omega)

/-- The function is entered. -/
theorem Prepared.called (h : Prepared dir base q tp size g)
    (hmem : u.memory = pushed g.memory q tp size ret)
    (hsp : u.reg 15 = g.reg 15 - 4 - 4 - 4) : Called dir base (q - 12) tp size u := by
  have hlt := h.sp.lt
  have heven := h.even
  have hbelow := h.below
  have habove := h.above
  have hframe := h.frameApart
  have htext := h.textApart
  have hsize : u.memory.memSize = g.memory.memSize := by
    rw [hmem]
    rfl
  refine ⟨?_, ?_, by omega, by omega, ?_, ?_, ?_, h.tableEven, ?_, by omega, by omega,
    h.tableApart, fun k hk => ?_⟩
  · refine h.text.congr hsize fun i hi hi' => ?_
    rw [length_sortText] at hi'
    rw [hmem, baseAddr_pushed h.below (by omega)]
  · rw [hsp]
    exact ((h.sp.sub (n := 4) (by omega)).sub (n := 4) (by omega)).sub (n := 4) (by omega)
  · rw [hsize]
    omega
  · rw [hmem, pushed,
      show q - 12 + 4 =
        q - 8 by omega, BaseMemory.long_putLong (by omega), BaseMemory.long_putLong_self]
    exact points_ofNat h.tableBelow
  · rw [hmem, pushed, show q - 12 + 8 = q - 4 by omega, BaseMemory.long_putLong (by omega),
      BaseMemory.long_putLong (by omega), BaseMemory.long_putLong_self]
  · rw [hsize]
    exact h.tableEnd
  · rw [hmem, h.cells hk]
    exact h.small k hk

/-- The function returns. -/
theorem Prepared.leads (h : Prepared dir base q tp size g) (hstop : Beyond stop base (sortText dir))
    (hmem : u.memory = pushed g.memory q tp size ret) (hsp : u.reg 15 = g.reg 15 - 4 - 4 - 4)
    (hregs : ∀ r, r ≠ 0 → r ≠ 15 → u.reg r = g.reg r) :
    ∃ v, Leads stop (u.goto base) v ∧ v.pc = ret.toNat ∧ 8 + v.reg 15 = g.reg 15 ∧
      Sorted dir (q - 28) q tp size g v := by
  have hbelow := h.below
  obtain ⟨v, run, hpc, hvsp, hsorted⟩ := sort_leads hstop (h.called hmem hsp)
  have hcells (k : ℕ) (hk : k < size) : cellsOf tp u k = cellsOf tp g k := by
    rw [cellsOf, hmem, h.cells hk]
  refine ⟨v, run, ?_, ?_, fun r hr hr₀ hr₁ hr₈ hr₉ => ?_, ?_, fun a ha ha' => ?_,
    hsorted.ordered, ?_⟩
  · rw [hpc, hmem, pushed, BaseMemory.long_putLong_self]
  · rw [hvsp, hsp]
    bv_omega
  · rw [hsorted.regs r hr hr₀ hr₁ hr₈ hr₉, hregs r hr₀ (by omega)]
  · rw [hsorted.memSize, hmem]
    rfl
  · rw [hsorted.bytes a (by omega) ha', hmem, baseAddr_pushed h.below (by omega)]
  · obtain ⟨f, ⟨σ, hσ, rfl⟩, hrearranged⟩ := hsorted.rearranged
    refine ⟨_, ⟨σ, hσ, rfl⟩, fun k hk => ?_⟩
    rw [hrearranged k hk, Function.comp_apply, Function.comp_apply, hcells _ (perm_lt hσ hk)]

end Pushed

/-- `link a6, #locals` at the word `k` of a text, with the stack pointer at the end
of the memory. -/
theorem leads_linkMain {text : List (BitVec 16)} {w : BitVec 16} {locals : BitVec 32}
    (hstop : Beyond stop base text) (htext : Loaded g.memory base text)
    (hcode : StandsAt [0x4E56, w] text k) (hsize : g.memory.memSize = memorySize)
    (hsp : g.reg 15 = memorySize) (hlocals : castInt16 (w.setWidth 32) = locals) :
    ∃ g', Leads stop (g.goto (base + 2 * k)) g' ∧ g'.pc = base + 2 * (k + 2) ∧
      g'.memory = g.memory.putLong 0xFFFFFC (g.reg 14) ∧ g'.reg 14 = 0xFFFFFC ∧
      g'.reg 15 = 0xFFFFFC + locals := by
  subst hlocals
  have hfp : Points (g.reg 15 - 4) 0xFFFFFC := by
    rw [hsp]
    rfl
  have hroom : g.memory.Room 0xFFFFFC := by
    refine ⟨rfl, ?_⟩
    rw [hsize]
    decide
  have start : Leads stop (g.goto (base + 2 * k)) (g.goto (base + 2 * k)) := .refl
  have run := start.next hstop htext rfl (hcode.word 0 rfl) decode_4E56
    (does_link (by decide) (htext.codeWord (k + 1) (hcode.word 1 rfl)) hfp hroom rfl)
  have hsp' : g.reg 15 - 4 = 0xFFFFFC := by
    rw [hsp]
    decide
  exact ⟨_, run, rfl, rfl, hsp', congrArg (fun v : BitVec 32 => v + castInt16 (w.setWidth 32)) hsp'⟩

end Call

/-! ### A loaded table -/

section Table

variable {file : ElfFile} {t u : CPUState BaseMemory} {g : Guest} {tp size k : ℕ}
    {data : ℕ → BitVec 8} {v : BitVec 32}

theorem toInt_of_lt (h : v.toNat < 2 ^ 30) : v.toInt = v.toNat :=
  BitVec.toInt_eq_toNat_of_lt (by omega)

theorem small_of_lt (h : v.toNat < 2 ^ 30) : Small v := by
  rw [Small, toInt_of_lt h]
  omega

theorem Started.cells (h : Started file t) (hdata : file.Carries tp (4 * size) data)
    (hk : k < size) : cellsOf tp t.guest k = readRealMem data (4 * k) .long := by
  have hbytes := h.bytes _ _ _ hdata
  simp only [cellsOf, CPUState.guest, BaseMemory.long, readRealMem, Nat.add_assoc]
  rw [hbytes _ (by omega), hbytes _ (by omega), hbytes _ (by omega), hbytes _ (by omega)]

/-- The test reads the table through `memory.get`. -/
theorem Shows.memGet_cell (h : Shows u g) (hsize : g.memory.memSize = memorySize)
    (heven : tp % 2 = 0) (hend : tp + 4 * k + 4 ≤ 2 ^ 24) :
    memGet (BitVec.ofNat 32 (tp + 4 * k)) .long u = .ok (cellsOf tp g k) u := by
  have hpoints : maskAddr (BitVec.ofNat 32 (tp + 4 * k)).toNat = tp + 4 * k :=
    points_ofNat (by omega)
  have hread : u.memory.read (BitVec.ofNat 32 (tp + 4 * k)) .long = cellsOf tp g k := by
    rw [BaseMemory.read, hpoints, h.memory]
    rfl
  rw [← hread]
  refine memGet_of_accessible ⟨.inr ?_, ?_⟩ <;> rw [hpoints]
  · omega
  · rw [h.memory, hsize]
    exact hend

end Table

/-! ### The function on the machine -/

/-- A call of either function, as a caller sees it: `while (pc != ret) cpu.step();` ends, the
table is in order and a rearrangement of what it was, and only the free registers, the frame and
the table have changed. -/
theorem sort_returns (dir : Direction) (base p tp size : ℕ) (s : CPUState BaseMemory)
    (hcalled : Called dir base p tp size s.guest) (hpc : s.reg regPC = BitVec.ofNat 32 base)
    (hret : Beyond (s.memory.long p) base (sortText dir)) :
    ∃ t, Run step (fun u => u.reg regPC = s.memory.long p) s t ∧ t.reg regPC = s.memory.long p ∧
      (∀ a b, a ≤ b → b < size → dir.key (t.memory.long (tp + 4 * a)) ≤
        dir.key (t.memory.long (tp + 4 * b))) ∧ (∃ σ : Equiv.Perm ℕ, (∀ k, size ≤ k → σ k = k) ∧
        ∀ k < size, t.memory.long (tp + 4 * k) = s.memory.long (tp + 4 * σ k)) ∧
      t.reg regUSP = s.reg regUSP + 4 ∧
      (∀ r < 15, r ≠ 0 → r ≠ 1 → r ≠ 8 → r ≠ 9 → t.reg r = s.reg r) ∧
      t.memory.memSize = s.memory.memSize ∧
      ∀ a, a + 16 < p ∨ p ≤ a → a < tp ∨ tp + 4 * size ≤ a →
      t.memory.baseAddr a = s.memory.baseAddr a := by
  have hbelow := hcalled.below
  obtain ⟨g, hleads, hend, hsp, hsorted⟩ := sort_leads hret hcalled
  obtain ⟨t, hrun, hdone, ht⟩ := hleads.returns hpc hend
  refine ⟨t, hrun, hdone, ?_, ?_, ?_, fun r hr hr₀ hr₁ hr₈ hr₉ => ?_, ?_, fun a ha ha' => ?_⟩
  · rw [ht.memory]
    exact hsorted.ordered
  · obtain ⟨f, ⟨σ, hσ, rfl⟩, hcells⟩ := hsorted.rearranged
    rw [ht.memory]
    exact ⟨σ, hσ, hcells⟩
  · rw [ht.reg regUSP (by decide)]
    exact hsp
  · rw [ht.reg r (by omega)]
    exact hsorted.regs r hr hr₀ hr₁ hr₈ hr₉
  · rw [ht.memory]
    exact hsorted.memSize
  · rw [ht.memory]
    exact hsorted.bytes a (by omega) ha'

/-- A call of `bubblesort_reverse` with a table of two entries, at the address `204`, and the return
address `0x200`. -/
def sortCall : CPUState BaseMemory :=
  ⟨simpleMemory
    (textByte (sortText .descending ++ List.replicate 8 0 ++ [0, 0x200, 0, 204, 0, 2, 0, 3, 0, 9])),
    ⟨fun r => if r = regUSP then 192 else 0⟩⟩

theorem called_sortCall : Called .descending 0 192 204 2 sortCall.guest := by
  have htext : Loaded sortCall.guest.memory 0
      (sortText .descending ++ (List.replicate 8 0 ++ [0, 0x200, 0, 204, 0, 2, 0, 3, 0, 9])) :=
    .of_bytes rfl (by decide) (by decide) fun i _ => by
      rw [← List.append_assoc, Nat.zero_add]
      rfl
  refine ⟨htext.left, rfl,
    rfl, by decide, by decide, rfl, rfl, rfl, by decide, .inl (by decide), .inl (by decide),
    .inl (by decide), fun k hk => ?_⟩
  obtain rfl | rfl : k = 0 ∨ k = 1 := by omega
  · decide
  · decide

theorem sort_returns_two :
    ∃ t, Run step (fun u => u.reg regPC = 0x200) sortCall t ∧
      (t.memory.long 208).toInt ≤ (t.memory.long 204).toInt := by
  obtain ⟨t, hrun, -, hordered, -⟩ :=
    sort_returns .descending 0 192 204 2 sortCall called_sortCall rfl
    (.inr (by decide))
  exact ⟨t, hrun, Int.neg_le_neg_iff.1 (hordered 0 1 (by decide) (by decide))⟩

end M68kEmu
