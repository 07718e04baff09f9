import Mathlib.Data.Nat.Fib.Basic
import M68kEmu.Program.Image

/-!
# The test program `fibonacci`

`fibonacci` is the text of the recursive function in `test/binary/fibonacci.elf`,
compiled from `fibonacci.c`.  It addresses itself relative to the program counter only,
so it may be loaded anywhere.

A call with the argument `n` uses `stackUse n` bytes below the return address.  `Entered` is the
state at the entry of the function, `Body` what holds between the prologue and the epilogue, and
`Returned` compares the state after the return with the one at the entry.  The recursion is by
induction on the argument (`fibonacci_leads`).
-/

namespace M68kEmu

open ConditionCodes Refine

/-- The function `fibonacci`. -/
def fibonacci : List (BitVec 16) :=
  [0x4E56, 0x0000,  -- 00  link a6, #0
   0x2F02,          -- 04  move.l d2, -(a7)
   0x4AAE, 0x0008,  -- 06  tst.l 8(a6)
   0x6604,          -- 0a  bne 10
   0x7000,          -- 0c  moveq #0, d0
   0x602C,          -- 0e  bra 3c
   0x7001,          -- 10  moveq #1, d0
   0xB0AE, 0x0008,  -- 12  cmp.l 8(a6), d0
   0x6604,          -- 16  bne 1c
   0x7001,          -- 18  moveq #1, d0
   0x6020,          -- 1a  bra 3c
   0x202E, 0x0008,  -- 1c  move.l 8(a6), d0
   0x5580,          -- 20  subq.l #2, d0
   0x2F00,          -- 22  move.l d0, -(a7)
   0x4EBA, 0xFFDA,  -- 24  jsr 0(pc)
   0x588F,          -- 28  addq.l #4, a7
   0x2400,          -- 2a  move.l d0, d2
   0x202E, 0x0008,  -- 2c  move.l 8(a6), d0
   0x5380,          -- 30  subq.l #1, d0
   0x2F00,          -- 32  move.l d0, -(a7)
   0x4EBA, 0xFFCA,  -- 34  jsr 0(pc)
   0x588F,          -- 38  addq.l #4, a7
   0xD082,          -- 3a  add.l d2, d0
   0x242E, 0xFFFC,  -- 3c  move.l -4(a6), d2
   0x4E5E,          -- 40  unlk a6
   0x4E75]          -- 42  rts

/-! The instructions that only this program has. -/

theorem decode_6604 : (decode 0x6604).derived = .bcc ⟨.notEqual, 0x04, .byte⟩ :=
  derived_of_entry rfl
theorem decode_602C : (decode 0x602C).derived = .bcc ⟨.true, 0x2C, .byte⟩ := derived_of_entry rfl
theorem decode_6020 : (decode 0x6020).derived = .bcc ⟨.true, 0x20, .byte⟩ := derived_of_entry rfl
theorem decode_7000 : (decode 0x7000).derived = .moveq (longQuick 0 .directData 0) :=
  derived_of_entry rfl
theorem decode_2F00 :
    (decode 0x2F00).derived = .move (longMove .directData 0 .indirectPredecrement 15) :=
  derived_of_entry rfl
theorem decode_2F02 :
    (decode 0x2F02).derived = .move (longMove .directData 2 .indirectPredecrement 15) :=
  derived_of_entry rfl
theorem decode_242E :
    (decode 0x242E).derived = .move (longMove .indirectDisplacement 14 .directData 2) :=
  derived_of_entry rfl
theorem decode_2400 : (decode 0x2400).derived = .move (longMove .directData 0 .directData 2) :=
  derived_of_entry rfl
theorem decode_23C0 : (decode 0x23C0).derived = .move (longMove .directData 0 .absLong 9) :=
  derived_of_entry rfl
theorem decode_D082 : (decode 0xD082).derived = .add (longBoth .directData 2 .directData 0) :=
  derived_of_entry rfl
theorem decode_4AAE : (decode 0x4AAE).derived = .tst (longDest .indirectDisplacement 14) :=
  derived_of_entry rfl
theorem decode_588F : (decode 0x588F).derived = .addq (longQuick 4 .directAddr 15) :=
  derived_of_entry rfl
theorem decode_5580 : (decode 0x5580).derived = .subq (longQuick 2 .directData 0) :=
  derived_of_entry rfl

/-- The bytes below the return address that a call uses. -/
def stackUse (n : ℕ) : ℕ := 16 * (n - 1) + 8

/-! ### The states of a call -/

/-- The entry of a call with the argument `n`, with the return address at the address `p`. -/
structure Entered (base p n : ℕ) (g : Guest) : Prop where
  text : Loaded g.memory base fibonacci
  sp : Points (g.reg 15) p
  even : p % 2 = 0
  above : p + 8 < 2 ^ 24 ∧ p + 8 ≤ g.memory.memSize.toNat
  below : stackUse n ≤ p
  apart : base + 68 ≤ p - stackUse n ∨ p ≤ base
  argument : g.memory.long (p + 4) = BitVec.ofNat 32 n

/-- The registers and the memory after a call, compared with those at its entry. -/
structure Returned (p n : ℕ) (g g' : Guest) : Prop where
  result : g'.reg 0 = BitVec.ofNat 32 (Nat.fib n)
  sp : g'.reg 15 = g.reg 15 + 4
  regs : ∀ r < 15, r ≠ 0 → g'.reg r = g.reg r
  memSize : g'.memory.memSize = g.memory.memSize
  bytes : ∀ i, i + stackUse n < p ∨ p ≤ i → g'.memory.baseAddr i = g.memory.baseAddr i

/-- Inside the call entered at `g₀`, with the stack pointer at the saved `D2`. -/
structure Body (p n : ℕ) (g₀ g : Guest) : Prop where
  sp : g.reg 15 = g₀.reg 15 - 4 - 4
  fp : g.reg 14 = g₀.reg 15 - 4
  regs : ∀ r < 14, r ≠ 0 → r ≠ 2 → g.reg r = g₀.reg r
  savedFp : g.memory.long (p - 4) = g₀.reg 14
  savedD2 : g.memory.long (p - 8) = g₀.reg 2
  memSize : g.memory.memSize = g₀.memory.memSize
  bytes : ∀ i, i + stackUse n < p ∨ p ≤ i → g.memory.baseAddr i = g₀.memory.baseAddr i

section Call

variable {stop : BitVec 32} {base p n m : ℕ} {g₀ g g' : Guest}

theorem stackUse_ge (n : ℕ) : 8 ≤ stackUse n := by
  unfold stackUse
  omega

namespace Body

/-- `D0` and `D2` are free. -/
theorem keep (h : Body p n g₀ g) (hmem : g'.memory = g.memory)
    (hregs : ∀ r, r ≠ 0 → r ≠ 2 → g'.reg r = g.reg r) : Body p n g₀ g' where
  sp := (hregs 15 (by decide) (by decide)).trans h.sp
  fp := (hregs 14 (by decide) (by decide)).trans h.fp
  regs r hr h₀ h₂ := (hregs r h₀ h₂).trans (h.regs r hr h₀ h₂)
  savedFp := by rw [hmem]; exact h.savedFp
  savedD2 := by rw [hmem]; exact h.savedD2
  memSize := by rw [hmem]; exact h.memSize
  bytes i hi := by rw [hmem]; exact h.bytes i hi

theorem text (h : Body p n g₀ g) (h₀ : Entered base p n g₀) : Loaded g.memory base fibonacci := by
  refine h₀.text.congr h.memSize fun i hi hi' => h.bytes i ?_
  have hlen : fibonacci.length = 34 := rfl
  have hapart := h₀.apart
  have hbelow := h₀.below
  omega

/-- The operand `8(a6)`. -/
theorem points_argument (h : Body p n g₀ g) (h₀ : Entered base p n g₀) :
    Points (g.reg 14 + castInt16 ((0x0008 : BitVec 16).setWidth 32)) (p + 4) := by
  have hbelow := h₀.below
  have hge := stackUse_ge n
  have habove := h₀.above
  rw [h.fp]
  refine (h₀.sp.sub (n := 4) (by omega)).offset (d := 8) rfl ?_ (by omega)
  omega

theorem argument (h : Body p n g₀ g) (h₀ : Entered base p n g₀) :
    g.memory.long (p + 4) = BitVec.ofNat 32 n := by
  rw [← h₀.argument]
  exact BaseMemory.long_congr fun i hi _ => h.bytes i (.inr (by omega))

theorem room (h : Body p n g₀ g) (h₀ : Entered base p n g₀) {a : ℕ} (heven : a % 2 = 0)
    (ha : a ≤ p + 4) : g.memory.Room a := by
  have habove := h₀.above
  refine ⟨heven, ?_⟩
  rw [h.memSize]
  omega

end Body

/-- The prologue, up to the first branch. -/
theorem leads_prologue (hstop : Beyond stop base fibonacci) (h : Entered base p n g) :
    ∃ g', Leads stop (g.goto base) g' ∧ g'.pc = base + 10 ∧ Body p n g g' ∧
      g'.codes.z = decide (BitVec.ofNat 32 n = 0) := by
  have hge := stackUse_ge n
  have hbelow := h.below
  have habove := h.above
  have heven := h.even
  have hlen : fibonacci.length = 34 := rfl
  have hapart := h.apart
  have hroom (a : ℕ) (ha : a % 2 = 0 ∧ a ≤ p + 4) : g.memory.Room a := ⟨ha.1, by omega⟩
  have hfp : Points (g.reg 15 - 4) (p - 4) := h.sp.sub (n := 4) (by omega)
  have hsp : Points (g.reg 15 - 4 - 4) (p - 8) := hfp.sub (n := 4) (by omega)
  have harg : Points (g.reg 15 - 4 + castInt16 ((0x0008 : BitVec 16).setWidth 32)) (p + 4) :=
    hfp.offset (d := 8) rfl (by omega) (by omega)
  have htext := h.text
  have htext₁ : Loaded (g.memory.putLong (p - 4) (g.reg 14)) base fibonacci :=
    htext.putLong (by omega)
  have htext₂ :
      Loaded ((g.memory.putLong (p - 4) (g.reg 14)).putLong (p - 8) (g.reg 2)) base fibonacci :=
    htext₁.putLong (by omega)
  have start : Leads stop (g.goto base) (g.goto base) := .refl
  have run₁ := start.next (i := 0) hstop htext rfl rfl decode_4E56
    (does_link (by decide) (htext.codeWord 1 rfl) hfp (hroom _ (by omega)) (BitVec.add_zero _))
  have run₂ := run₁.next (i := 2) hstop htext₁ rfl rfl decode_2F02
    (does_move rfl rfl (does_getData_data (by decide))
      (does_setData_predecrement (by decide) hsp (hroom _ (by omega))))
  have run₃ := run₂.next (i := 3) hstop htext₂ rfl rfl decode_4AAE
    (does_tst rfl (does_getData_displacement (by decide) (htext₂.codeWord 4 rfl) harg
      (hroom _ (by omega))))
  refine ⟨_, run₃, rfl, ⟨?_, ?_, ?_, ?_, ?_, ?_, ?_⟩, ?_⟩ <;> simp
  · intro r hr _ _
    rw [if_neg (by omega), if_neg (by omega), if_neg (by omega), if_neg (by omega)]
  · rw [BaseMemory.long_putLong (by omega), BaseMemory.long_putLong_self]
  · intro i hi
    rw [BaseMemory.baseAddr_putLong (by omega), BaseMemory.baseAddr_putLong (by omega)]
  · rw [BaseMemory.long_putLong (by omega), BaseMemory.long_putLong (by omega), h.argument]
    rfl

/-- The argument is `0`. -/
theorem leads_zero (hstop : Beyond stop base fibonacci) (h₀ : Entered base p 0 g₀)
    (h : Body p 0 g₀ g) (hz : g.codes.z = true) :
    ∃ g', Leads stop (g.goto (base + 10)) g' ∧ g'.pc = base + 60 ∧ Body p 0 g₀ g' ∧
    g'.reg 0 = 0 := by
  have htext := h.text h₀
  have start : Leads stop (g.goto (base + 10)) (g.goto (base + 10)) := .refl
  have run₁ :=
    start.branch (i := 5) (d := 4) (n := base + 12) hstop htext rfl rfl decode_6604 rfl rfl rfl
    (by omega : _ = ((base + 16 : ℕ) : ℤ)) (by simp [Comparison.answer, hz])
  have run₂ :=
    run₁.next (i := 6) hstop htext rfl rfl decode_7000
      (does_moveq rfl (does_setData_data (by decide)))
  have run₃ := run₂.always (i := 7) (d := 44) hstop htext rfl rfl decode_602C rfl rfl rfl
    (by omega : _ = ((base + 60 : ℕ) : ℤ))
  exact ⟨_, run₃, rfl, h.keep rfl fun r hr _ => if_neg hr, rfl⟩

/-- The argument is not `0`, up to the second branch. -/
theorem leads_compare (hstop : Beyond stop base fibonacci) (h₀ : Entered base p n g₀)
    (h : Body p n g₀ g) (hz : g.codes.z = false) :
    ∃ g', Leads stop (g.goto (base + 10)) g' ∧ g'.pc = base + 22 ∧ Body p n g₀ g' ∧
      g'.codes.z = decide (BitVec.ofNat 32 n = 1) := by
  have htext := h.text h₀
  have heven := h₀.even
  have start : Leads stop (g.goto (base + 10)) (g.goto (base + 10)) := .refl
  have run₁ :=
    start.branch (i := 5) (d := 4) (n := base + 16) hstop htext rfl rfl decode_6604 rfl rfl rfl
    (by omega : _ = ((base + 16 : ℕ) : ℤ)) (by simp [Comparison.answer, hz])
  have run₂ :=
    run₁.next (i := 8) hstop htext rfl rfl decode_7001
      (does_moveq rfl (does_setData_data (by decide)))
  have run₃ := run₂.next (i := 9) hstop htext rfl rfl decode_B0AE (does_compareWith rfl
    (does_getData_displacement (by decide) (htext.codeWord 10 rfl) (h.points_argument h₀)
      (h.room h₀ (by omega) le_rfl)) (does_getData_data (by decide)))
  refine ⟨_, run₃, rfl, h.keep rfl fun r hr _ => if_neg hr, ?_⟩
  have hsub (x y : BitVec 32) : x - y = 0 ↔ y = x := difference_eq_zero_iff.trans eq_comm
  simp only [Guest.codes_withCodes, arithmeticCodes, hsub]
  exact congrArg (fun v : BitVec 32 => decide (v = 1)) (h.argument h₀)

/-- The argument is `1`. -/
theorem leads_one (hstop : Beyond stop base fibonacci) (h₀ : Entered base p 1 g₀)
    (h : Body p 1 g₀ g) (hz : g.codes.z = true) :
    ∃ g', Leads stop (g.goto (base + 22)) g' ∧ g'.pc = base + 60 ∧ Body p 1 g₀ g' ∧
    g'.reg 0 = 1 := by
  have htext := h.text h₀
  have start : Leads stop (g.goto (base + 22)) (g.goto (base + 22)) := .refl
  have run₁ :=
    start.branch (i := 11) (d := 4) (n := base + 24) hstop htext rfl rfl decode_6604 rfl rfl rfl
    (by omega : _ = ((base + 28 : ℕ) : ℤ)) (by simp [Comparison.answer, hz])
  have run₂ :=
    run₁.next (i := 12) hstop htext rfl rfl decode_7001
      (does_moveq rfl (does_setData_data (by decide)))
  have run₃ := run₂.always (i := 13) (d := 32) hstop htext rfl rfl decode_6020 rfl rfl rfl
    (by omega : _ = ((base + 60 : ℕ) : ℤ))
  exact ⟨_, run₃, rfl, h.keep rfl fun r hr _ => if_neg hr, rfl⟩

/-- The argument of the first call is on its way. -/
theorem leads_first (hstop : Beyond stop base fibonacci) (h₀ : Entered base p (n + 2) g₀)
    (h : Body p (n + 2) g₀ g) (hz : g.codes.z = false) :
    ∃ g', Leads stop (g.goto (base + 22)) g' ∧ g'.pc = base + 34 ∧ Body p (n + 2) g₀ g' ∧
      g'.reg 0 = BitVec.ofNat 32 n := by
  have htext := h.text h₀
  have heven := h₀.even
  have start : Leads stop (g.goto (base + 22)) (g.goto (base + 22)) := .refl
  have run₁ :=
    start.branch (i := 11) (d := 4) (n := base + 28) hstop htext rfl rfl decode_6604 rfl rfl rfl
    (by omega : _ = ((base + 28 : ℕ) : ℤ)) (by simp [Comparison.answer, hz])
  have run₂ := run₁.next (i := 14) hstop htext rfl rfl decode_202E (does_move rfl rfl
    (does_getData_displacement (by decide) (htext.codeWord 15 rfl) (h.points_argument h₀)
      (h.room h₀ (by omega) le_rfl)) (does_setData_data (by decide)))
  have run₃ :=
    run₂.next (i := 16) hstop htext rfl rfl decode_5580 (does_readModifyWrite rfl (Turns.pure _ _)
    (does_getDataSilent_data (by decide)) (does_setData_data (by decide)) does_setArithmeticFlags)
  refine ⟨_, run₃, rfl, h.keep rfl fun r hr _ => ?_, ?_⟩
  · simp [hr]
  · have hsub : BitVec.ofNat 32 (n + 2) - 2 = BitVec.ofNat 32 n := by
      rw [BitVec.ofNat_add]
      exact BitVec.add_sub_cancel _ _
    exact (congrArg (fun v : BitVec 32 => v - 2) (h.argument h₀)).trans hsub

/-- What is proved of the calls with smaller arguments. -/
def Returns (stop : BitVec 32) (base m : ℕ) : Prop :=
  ∀ p g, Entered base p m g →
    ∃ g', Leads stop (g.goto base) g' ∧ g'.pc = (g.memory.long p).toNat ∧ Returned p m g g'

section Recursion

variable {k : ℕ} {off : BitVec 16} {d : ℤ}

/-- `move.l d0, -(a7)` and `jsr 0(pc)`, at the word `k` of the text. -/
theorem leads_jsr (hstop : Beyond stop base fibonacci) (h₀ : Entered base p n g₀)
    (h : Body p n g₀ g) (huse : 24 ≤ stackUse n) (hpush : fibonacci[k]? = some 0x2F00)
    (hjsr : fibonacci[k + 1]? = some 0x4EBA) (hoff : fibonacci[k + 2]? = some off)
    (hd : (castInt16 (off.setWidth 32)).toInt = d) (hback : 2 * (k : ℤ) + 4 + d = 0) :
    ∃ u : Guest, Leads stop (g.goto (base + 2 * k)) (u.goto base) ∧
      u.memory = (g.memory.putLong (p - 12) (g.reg 0)).putLong (p - 16)
        (BitVec.ofNat 32 (base + 2 * (k + 3))) ∧
      u.reg 15 = g.reg 15 - 4 - 4 ∧ ∀ r, r ≠ 15 → u.reg r = g.reg r := by
  have hbelow := h₀.below
  have heven := h₀.even
  have hlen : fibonacci.length = 34 := rfl
  have hapart := h₀.apart
  have htext := h.text h₀
  have hsp : Points (g.reg 15) (p - 8) := by
    rw [h.sp]
    exact (h₀.sp.sub (n := 4) (by omega)).sub (n := 4) (by omega)
  have harg : Points (g.reg 15 - 4) (p - 12) := hsp.sub (n := 4) (by omega)
  have hret : Points (g.reg 15 - 4 - 4) (p - 16) := harg.sub (n := 4) (by omega)
  have htext₁ : Loaded (g.memory.putLong (p - 12) (g.reg 0)) base fibonacci :=
    htext.putLong (by omega)
  have start : Leads stop (g.goto (base + 2 * k)) (g.goto (base + 2 * k)) := .refl
  have run₁ :=
    start.next hstop htext rfl hpush decode_2F00 (does_move rfl rfl (does_getData_data (by decide))
    (does_setData_predecrement (by decide) harg (h.room h₀ (by omega) (by omega))))
  have run₂ :=
    run₁.call (i := k + 1) hstop htext₁ rfl hjsr decode_4EBA hoff hd
      (by omega : _ = ((base : ℕ) : ℤ)) hret (h.room h₀ (by omega) (by omega))
  exact ⟨_, run₂, rfl, rfl, fun r hr => by simp [hr]⟩

/-- The callee starts in the state of a call. -/
theorem entered_of_jsr {u : Guest} {ret : BitVec 32} (h₀ : Entered base p n g₀) (h : Body p n g₀ g)
    (huse : stackUse m + 16 ≤ stackUse n) (hd0 : g.reg 0 = BitVec.ofNat 32 m)
    (hmem : u.memory = (g.memory.putLong (p - 12) (g.reg 0)).putLong (p - 16) ret)
    (hsp : u.reg 15 = g.reg 15 - 4 - 4) : Entered base (p - 16) m u := by
  have hge := stackUse_ge m
  have hbelow := h₀.below
  have habove := h₀.above
  have heven := h₀.even
  have hlen : fibonacci.length = 34 := rfl
  have hapart := h₀.apart
  have hpoints : Points (g₀.reg 15 - 4 - 4 - 4 - 4) (p - 16) :=
    (((h₀.sp.sub (n := 4) (by omega)).sub (n := 4) (by omega)).sub (n := 4) (by omega)).sub
      (n := 4) (by omega)
  refine ⟨?_, ?_, by omega, ?_, by omega, by omega, ?_⟩
  · rw [hmem]
    exact ((h.text h₀).putLong (by omega)).putLong (by omega)
  · rw [hsp, h.sp]
    exact hpoints
  · rw [hmem, BaseMemory.memSize_putLong, BaseMemory.memSize_putLong, h.memSize]
    omega
  · rw [hmem,
      show p - 16 + 4 =
        p - 12 by omega, BaseMemory.long_putLong (by omega), BaseMemory.long_putLong_self, hd0]

/-- A call from inside the function, with the argument taken off the stack after it. -/
theorem leads_call (hstop : Beyond stop base fibonacci) (h₀ : Entered base p n g₀)
    (h : Body p n g₀ g) (hcall : Returns stop base m) (huse : stackUse m + 16 ≤ stackUse n)
    (hd0 : g.reg 0 = BitVec.ofNat 32 m) (hpush : fibonacci[k]? = some 0x2F00)
    (hjsr : fibonacci[k + 1]? = some 0x4EBA) (hoff : fibonacci[k + 2]? = some off)
    (hpop : fibonacci[k + 3]? = some 0x588F) (hd : (castInt16 (off.setWidth 32)).toInt = d)
    (hback : 2 * (k : ℤ) + 4 + d = 0) :
    ∃ g', Leads stop (g.goto (base + 2 * k)) g' ∧ g'.pc = base + 2 * (k + 4) ∧ Body p n g₀ g' ∧
      g'.reg 0 = BitVec.ofNat 32 (Nat.fib m) ∧ g'.reg 2 = g.reg 2 := by
  have hge := stackUse_ge m
  have hbelow := h₀.below
  have hlen : fibonacci.length = 34 := rfl
  have hlt : k < fibonacci.length := (List.getElem?_eq_some_iff.1 hpush).1
  have hend := h₀.text.below
  obtain ⟨u, run₁, hmem, hsp, hregs⟩ := leads_jsr hstop h₀ h (by omega) hpush hjsr hoff hd hback
  obtain ⟨v, run₂, hpc, hret⟩ := hcall (p - 16) u (entered_of_jsr h₀ h huse hd0 hmem hsp)
  have hpc' : v.pc = base + 2 * (k + 3) := by
    rw [hpc, hmem, BaseMemory.long_putLong_self, BitVec.toNat_ofNat, Nat.mod_eq_of_lt (by omega)]
  have hlong (a : ℕ) (ha : p - 8 ≤ a) : v.memory.long a = g.memory.long a := by
    rw [BaseMemory.long_congr fun i hi _ => hret.bytes i (.inr (by omega)), hmem,
      BaseMemory.long_putLong (by omega), BaseMemory.long_putLong (by omega)]
  have hbytes (i : ℕ) (hi : i + stackUse n < p ∨ p ≤ i) :
      v.memory.baseAddr i = g.memory.baseAddr i := by
    rw [hret.bytes i (by omega), hmem, BaseMemory.baseAddr_putLong (by omega),
      BaseMemory.baseAddr_putLong (by omega)]
  have hsize : v.memory.memSize = g.memory.memSize := by
    rw [hret.memSize, hmem, BaseMemory.memSize_putLong, BaseMemory.memSize_putLong]
  have htext : Loaded v.memory base fibonacci := by
    refine (h.text h₀).congr hsize fun i hi hi' => hbytes i ?_
    have hapart := h₀.apart
    omega
  have hregs' (r : ℕ) (hr : r < 15) (h₀ : r ≠ 0) : v.reg r = g.reg r := by
    rw [hret.regs r hr h₀, hregs r (by omega)]
  have hpopped : 4 + v.reg 15 = g.reg 15 := by
    rw [hret.sp, hsp, BitVec.sub_add_cancel, BitVec.add_comm, BitVec.sub_add_cancel]
  have run : Leads stop (g.goto (base + 2 * k)) v := run₁.trans run₂
  have run₃ := run.next hstop htext hpc' hpop decode_588F (does_readModifyWrite rfl (Turns.pure _ _)
    (does_getDataSilent_addr (by decide)) (does_setData_addr (by decide)) (Turns.pure _ _))
  refine ⟨_, run₃, ?_, ⟨hpopped.trans h.sp, ?_, fun r hr h₀ h₂ => ?_, ?_, ?_, ?_, fun i hi => ?_⟩,
    ?_, ?_⟩
  · rw [Guest.pc_withReg, Guest.pc_goto, hpc']
    omega
  · exact (hregs' 14 (by decide) (by decide)).trans h.fp
  · have h₁₅ : r ≠ 15 := by omega
    exact (if_neg h₁₅).trans ((hregs' r (by omega) h₀).trans (h.regs r hr h₀ h₂))
  · exact (hlong (p - 4) (by omega)).trans h.savedFp
  · exact (hlong (p - 8) (by omega)).trans h.savedD2
  · exact hsize.trans h.memSize
  · exact (hbytes i hi).trans (h.bytes i hi)
  · exact hret.result
  · exact hregs' 2 (by decide) (by decide)

/-- Between the two calls. -/
theorem leads_between (hstop : Beyond stop base fibonacci) (h₀ : Entered base p (n + 2) g₀)
    (h : Body p (n + 2) g₀ g) :
    ∃ g', Leads stop (g.goto (base + 42)) g' ∧ g'.pc = base + 50 ∧ Body p (n + 2) g₀ g' ∧
      g'.reg 0 = BitVec.ofNat 32 (n + 1) ∧ g'.reg 2 = g.reg 0 := by
  have htext := h.text h₀
  have heven := h₀.even
  have start : Leads stop (g.goto (base + 42)) (g.goto (base + 42)) := .refl
  have run₁ := start.next (i := 21) hstop htext rfl rfl decode_2400
    (does_move rfl rfl (does_getData_data (by decide)) (does_setData_data (by decide)))
  have run₂ := run₁.next (i := 22) hstop htext rfl rfl decode_202E (does_move rfl rfl
    (does_getData_displacement (by decide) (htext.codeWord 23 rfl) (h.points_argument h₀)
      (h.room h₀ (by omega) le_rfl)) (does_setData_data (by decide)))
  have run₃ :=
    run₂.next (i := 24) hstop htext rfl rfl decode_5380 (does_readModifyWrite rfl (Turns.pure _ _)
    (does_getDataSilent_data (by decide)) (does_setData_data (by decide)) does_setArithmeticFlags)
  refine ⟨_, run₃, rfl, h.keep rfl fun r hr hr' => ?_, ?_, rfl⟩
  · simp [hr, hr']
  · have hsub : BitVec.ofNat 32 (n + 2) - 1 = BitVec.ofNat 32 (n + 1) := by
      rw [show n + 2 = n + 1 + 1 from rfl, BitVec.ofNat_add]
      exact BitVec.add_sub_cancel _ _
    exact (congrArg (fun v : BitVec 32 => v - 1) (h.argument h₀)).trans hsub

/-- The sum of the two results. -/
theorem leads_sum (hstop : Beyond stop base fibonacci) (h₀ : Entered base p n g₀)
    (h : Body p n g₀ g) : ∃ g', Leads stop (g.goto (base + 58)) g' ∧ g'.pc = base + 60 ∧
    Body p n g₀ g' ∧ g'.reg 0 = g.reg 2 + g.reg 0 := by
  have htext := h.text h₀
  have start : Leads stop (g.goto (base + 58)) (g.goto (base + 58)) := .refl
  have run := start.next (i := 29) hstop htext rfl rfl decode_D082 (does_readModifyWrite rfl
    (does_fetchSource (does_getData_data (by decide))) (does_getDataSilent_data (by decide))
    (does_setData_data (by decide)) does_setArithmeticFlags)
  exact ⟨_, run, rfl, h.keep rfl fun r hr _ => if_neg hr, rfl⟩

/-- The epilogue. -/
theorem leads_epilogue (hstop : Beyond stop base fibonacci) (h₀ : Entered base p n g₀)
    (h : Body p n g₀ g) (hd0 : g.reg 0 = BitVec.ofNat 32 (Nat.fib n)) :
    ∃ g', Leads stop (g.goto (base + 60)) g' ∧ g'.pc = (g₀.memory.long p).toNat ∧
    Returned p n g₀ g' := by
  have hge := stackUse_ge n
  have hbelow := h₀.below
  have habove := h₀.above
  have heven := h₀.even
  have htext := h.text h₀
  have hfp : Points (g.reg 14) (p - 4) := by
    rw [h.fp]
    exact h₀.sp.sub (n := 4) (by omega)
  have hsaved : Points (g.reg 14 + castInt16 ((0xFFFC : BitVec 16).setWidth 32)) (p - 8) :=
    hfp.offset (d := -4) rfl (by omega) (by omega)
  have hret : Points (g.reg 14 + 4) p := by
    rw [h.fp, BitVec.sub_add_cancel]
    exact h₀.sp
  have start : Leads stop (g.goto (base + 60)) (g.goto (base + 60)) := .refl
  have run₁ := start.next (i := 30) hstop htext rfl rfl decode_242E (does_move rfl rfl
    (does_getData_displacement (by decide) (htext.codeWord 31 rfl) hsaved
      (h.room h₀ (by omega) (by omega))) (does_setData_data (by decide)))
  have run₂ := run₁.next (i := 32) hstop htext rfl rfl decode_4E5E
    (does_unlk (by decide) hfp (h.room h₀ (by omega) (by omega)))
  have run₃ :=
    run₂.next (i := 33) hstop htext rfl rfl decode_4E75 (does_rts hret (h.room h₀ heven (by omega)))
  refine ⟨_, run₃, ?_, hd0, ?_, fun r hr h₀ => ?_, h.memSize, h.bytes⟩
  · exact congrArg BitVec.toNat (BaseMemory.long_congr fun i hi _ => h.bytes i (.inr hi))
  · refine congrArg (fun v : BitVec 32 => v + 4) ?_
    exact (congrArg (fun v : BitVec 32 => v + 4) h.fp).trans (BitVec.sub_add_cancel _ _)
  · by_cases h₁₄ : r = 14
    · subst h₁₄
      exact h.savedFp
    · by_cases h₂ : r = 2
      · subst h₂
        exact h.savedD2
      · have h₁₅ : r ≠ 15 := by omega
        simp only [Guest.reg_goto, Guest.reg_withReg, Guest.reg_withCodes, if_neg h₁₅,
          if_neg h₁₄, if_neg h₂]
        exact h.regs r (by omega) h₀ h₂

end Recursion

/-- Every call of the function returns. -/
theorem fibonacci_leads (hstop : Beyond stop base fibonacci) (n : ℕ) : Returns stop base n := by
  induction n using Nat.strongRecOn with
  | ind n ih =>
    intro p g₀ h₀
    have hbelow := h₀.below
    have hsp := h₀.sp.lt
    obtain ⟨g₁, run₁, hpc₁, hbody₁, hz₁⟩ := leads_prologue hstop h₀
    rcases n with _ | _ | n
    · obtain ⟨g₂, run₂, hpc₂, hbody₂, hd0⟩ := leads_zero hstop h₀ hbody₁ (by rw [hz₁]; rfl)
      obtain ⟨g₃, run₃, hend⟩ := leads_epilogue hstop h₀ hbody₂ hd0
      exact ⟨g₃, (run₁.andThen hpc₁ run₂).andThen hpc₂ run₃, hend⟩
    · obtain ⟨g₂, run₂, hpc₂, hbody₂, hz₂⟩ := leads_compare hstop h₀ hbody₁ (by rw [hz₁]; rfl)
      obtain ⟨g₃, run₃, hpc₃, hbody₃, hd0⟩ := leads_one hstop h₀ hbody₂ (by rw [hz₂]; rfl)
      obtain ⟨g₄, run₄, hend⟩ := leads_epilogue hstop h₀ hbody₃ hd0
      exact ⟨g₄, ((run₁.andThen hpc₁ run₂).andThen hpc₂ run₃).andThen hpc₃ run₄, hend⟩
    · have huse : stackUse (n + 1 + 1) = 16 * (n + 1) + 8 := rfl
      have huse₀ : stackUse n = 16 * (n - 1) + 8 := rfl
      have huse₁ : stackUse (n + 1) = 16 * n + 8 := rfl
      have hne (m : ℕ) (hm : m < 2) :
          decide (BitVec.ofNat 32 (n + 2) = BitVec.ofNat 32 m) = false := by
        refine decide_eq_false fun h => ?_
        have := congrArg BitVec.toNat h
        rw [BitVec.toNat_ofNat, BitVec.toNat_ofNat, Nat.mod_eq_of_lt (by omega),
          Nat.mod_eq_of_lt (by omega)] at this
        omega
      obtain ⟨g₂, run₂, hpc₂, hbody₂, hz₂⟩ :=
        leads_compare hstop h₀ hbody₁ (hz₁.trans (hne 0 (by omega)))
      obtain ⟨g₃, run₃, hpc₃, hbody₃, hd0₃⟩ :=
        leads_first hstop h₀ hbody₂ (hz₂.trans (hne 1 (by omega)))
      -- the two calls, of `n` and of `n + 1`
      obtain ⟨g₄, run₄, hpc₄, hbody₄, hd0₄, -⟩ :=
        leads_call (k := 17) (d := -38) hstop h₀ hbody₃ (ih n (by omega))
        (by omega) hd0₃ rfl rfl rfl rfl rfl (by decide)
      obtain ⟨g₅, run₅, hpc₅, hbody₅, hd0₅, hd2₅⟩ := leads_between hstop h₀ hbody₄
      obtain ⟨g₆, run₆, hpc₆, hbody₆, hd0₆, hd2₆⟩ := leads_call (k := 25) (d := -54) hstop h₀ hbody₅
        (ih (n + 1) (by omega)) (by omega) hd0₅ rfl rfl rfl rfl rfl (by decide)
      obtain ⟨g₇, run₇, hpc₇, hbody₇, hd0₇⟩ := leads_sum hstop h₀ hbody₆
      have hsum : g₇.reg 0 = BitVec.ofNat 32 (Nat.fib (n + 2)) := by
        rw [hd0₇, hd2₆, hd2₅, hd0₄, hd0₆, ofNat_add_ofNat, ← Nat.fib_add_two]
      obtain ⟨g₈, run₈, hend⟩ := leads_epilogue hstop h₀ hbody₇ hsum
      have run := (((run₁.andThen hpc₁ run₂).andThen hpc₂ run₃).andThen hpc₃ run₄).andThen hpc₄ run₅
      exact ⟨g₈, ((run.andThen hpc₅ run₆).andThen hpc₆ run₇).andThen hpc₇ run₈, hend⟩

end Call

/-! ### The function on the machine -/

/-- A call of the function, as a caller sees it: `while (pc != ret) cpu.step();` ends,
with the result in `D0`. -/
theorem fibonacci_returns (base p n : ℕ) (s : CPUState BaseMemory)
    (hentered : Entered base p n s.guest)
    (hpc : s.reg regPC = BitVec.ofNat 32 base) (hret : Beyond (s.memory.long p) base fibonacci) :
    ∃ t, Run step (fun u => u.reg regPC = s.memory.long p) s t ∧ t.reg regPC = s.memory.long p ∧
      t.reg 0 = BitVec.ofNat 32 (Nat.fib n) ∧ t.reg regUSP = s.reg regUSP + 4 ∧
      (∀ r, 0 < r → r < 15 → t.reg r = s.reg r) ∧ t.memory.memSize = s.memory.memSize ∧
      ∀ i, i + stackUse n < p ∨ p ≤ i → t.memory.baseAddr i = s.memory.baseAddr i := by
  obtain ⟨g, hleads, hend, hreturned⟩ := fibonacci_leads hret n p s.guest hentered
  obtain ⟨t, hrun, hdone, ht⟩ := hleads.returns hpc hend
  refine ⟨t, hrun, hdone, ?_, ?_, fun r hr hr' => ?_, ?_, fun i hi => ?_⟩
  · rw [ht.reg 0 (by decide), hreturned.result]
  · rw [ht.reg regUSP (by decide)]
    exact hreturned.sp
  · rw [ht.reg r (by omega)]
    exact hreturned.regs r hr' (by omega)
  · rw [ht.memory]
    exact hreturned.memSize
  · rw [ht.memory]
    exact hreturned.bytes i hi

/-- A call with the argument `2` and the return address `0x100`. -/
def fibonacciCall : CPUState BaseMemory :=
  ⟨simpleMemory (textByte (fibonacci ++ List.replicate 14 0 ++ [0, 0x100, 0, 2])),
    ⟨fun r => if r = regUSP then 96 else 0⟩⟩

theorem entered_fibonacciCall : Entered 0 96 2 fibonacciCall.guest := by
  have htext :
      Loaded fibonacciCall.guest.memory 0
      (fibonacci ++ (List.replicate 14 0 ++ [0, 0x100, 0, 2])) :=
    .of_bytes rfl (by decide) (by decide) fun i _ => by
      rw [← List.append_assoc, Nat.zero_add]
      rfl
  exact ⟨htext.left, rfl, rfl, by decide, by decide, .inl (by decide), rfl⟩

theorem fibonacci_returns_two :
    ∃ t, Run step (fun u => u.reg regPC = 0x100) fibonacciCall t ∧
    t.reg 0 = BitVec.ofNat 32 (Nat.fib 2) := by
  obtain ⟨t, hrun, -, hresult, -⟩ :=
    fibonacci_returns 0 96 2 fibonacciCall entered_fibonacciCall rfl (.inr (by decide))
  exact ⟨t, hrun, hresult⟩

/-! ### The test -/

/-- The function `main`, behind the function `fibonacci`, up to the loop at its end. -/
def fibonacciMain : List (BitVec 16) :=
  [0x4E56, 0x0000,          -- 44  link a6, #0
   0x4878, 0x0014,          -- 48  pea 20
   0x4EBA, 0xFFB2,          -- 4c  jsr 0(pc)
   0x588F,                  -- 50  addq.l #4, a7
   0x23C0, 0x0000, 0x4000]  -- 52  move.l d0, $4000

/-- The text of `test/binary/fibonacci.elf`; the last word is the loop. -/
def fibonacciText : List (BitVec 16) := (fibonacci ++ fibonacciMain) ++ [0x60FE]

section Main

variable {g : Guest}

theorem beyond_main : Beyond 0x10058 0x10000 (fibonacci ++ fibonacciMain) := .inr (by decide)

/-- From the entry of `main` to the call of `fibonacci`. -/
theorem leads_main (htext : Loaded g.memory 0x10000 (fibonacci ++ fibonacciMain))
    (hsize : g.memory.memSize = memorySize) (hsp : g.reg 15 = memorySize) :
    ∃ u : Guest, Leads 0x10058 (g.goto 0x10044) (u.goto 0x10000) ∧ u.reg 15 = 0xFFFFF4 ∧
      u.memory = ((g.memory.putLong 0xFFFFFC (g.reg 14)).putLong 0xFFFFF8 20).putLong
        0xFFFFF4 0x10050 := by
  have hroom (a : ℕ) (ha : a % 2 = 0 ∧ a + 4 ≤ 2 ^ 24) : g.memory.Room a := by
    refine ⟨ha.1, ?_⟩
    rw [hsize]
    exact ha.2
  have hlen : (fibonacci ++ fibonacciMain).length = 44 := rfl
  have hfp : Points (g.reg 15 - 4) 0xFFFFFC := by
    rw [hsp]
    rfl
  have htext₁ :
      Loaded (g.memory.putLong 0xFFFFFC (g.reg 14)) 0x10000 (fibonacci ++ fibonacciMain) :=
    htext.putLong (by omega)
  have htext₂ :
      Loaded ((g.memory.putLong 0xFFFFFC (g.reg 14)).putLong 0xFFFFF8 20) 0x10000
      (fibonacci ++ fibonacciMain) :=
    htext₁.putLong (by omega)
  have start : Leads 0x10058 (g.goto 0x10044) (g.goto 0x10044) := .refl
  have run₁ := start.next (i := 34) beyond_main htext rfl rfl decode_4E56
    (does_link (by decide) (htext.codeWord 35 rfl) hfp (hroom _ (by omega)) (BitVec.add_zero _))
  have run₂ := run₁.next (i := 36) beyond_main htext₁ rfl rfl decode_4878 (does_pea rfl
    (does_getControlAddress_absWord (htext₁.codeWord 37 rfl)) (hfp.sub (n := 4) (by omega))
    (hroom _ (by omega)))
  have run₃ := run₂.call (i := 38) (d := -78) beyond_main htext₂ rfl rfl decode_4EBA rfl rfl
    (by omega : _ = ((0x10000 : ℕ) : ℤ)) ((hfp.sub (n := 4) (by omega)).sub (n := 4) (by omega))
    (hroom _ (by omega))
  refine ⟨_, run₃, ?_, rfl⟩
  refine (congrArg (fun v : BitVec 32 => v - 4 - 4 - 4) hsp).trans ?_
  decide

/-- From the return to the loop. -/
theorem leads_loop (htext : Loaded g.memory 0x10000 (fibonacci ++ fibonacciMain))
    (hsize : g.memory.memSize = memorySize) : ∃ g', Leads 0x10058 (g.goto 0x10050) g' ∧
    g'.pc = 0x10058 ∧ g'.memory = g.memory.putLong 0x4000 (g.reg 0) := by
  have hroom : g.memory.Room 0x4000 := by
    refine ⟨rfl, ?_⟩
    rw [hsize]
    decide
  have start : Leads 0x10058 (g.goto 0x10050) (g.goto 0x10050) := .refl
  have run₁ :=
    start.next (i := 40) beyond_main htext rfl rfl decode_588F
      (does_readModifyWrite rfl (Turns.pure _ _)
    (does_getDataSilent_addr (by decide)) (does_setData_addr (by decide)) (Turns.pure _ _))
  have run₂ := run₁.next (i := 41) beyond_main htext rfl rfl decode_23C0 (does_move rfl rfl
    (does_getData_data (by decide))
    (does_setData_absLong (a := 0x4000) (htext.codeWord 42 rfl) (htext.codeWord 43 rfl) rfl hroom))
  exact ⟨_, run₂, rfl, rfl⟩

/-- `main` calls `fibonacci(20)`. -/
theorem entered_of_main {u : Guest} (htext : Loaded g.memory 0x10000 (fibonacci ++ fibonacciMain))
    (hsize : g.memory.memSize = memorySize) (hsp : u.reg 15 = 0xFFFFF4)
    (hmem : u.memory = ((g.memory.putLong 0xFFFFFC (g.reg 14)).putLong 0xFFFFF8 20).putLong
      0xFFFFF4 0x10050) : Entered 0x10000 0xFFFFF4 20 u := by
  have huse : stackUse 20 = 312 := rfl
  refine ⟨?_, ?_, by decide, ⟨by decide, ?_⟩, by omega, .inl (by omega), ?_⟩
  · rw [hmem]
    have hlen : fibonacci.length = 34 := rfl
    exact ((htext.left.putLong (by omega)).putLong (by omega)).putLong (by omega)
  · rw [hsp]
    rfl
  · rw [hmem, BaseMemory.memSize_putLong, BaseMemory.memSize_putLong,
      BaseMemory.memSize_putLong, hsize]
    decide
  · rw [hmem, BaseMemory.long_putLong (by omega), BaseMemory.long_putLong_self]
    rfl

/-- The program, from the entry of `main` to the loop at its end. -/
theorem leads_program (htext : Loaded g.memory 0x10000 (fibonacci ++ fibonacciMain))
    (hsize : g.memory.memSize = memorySize) (hsp : g.reg 15 = memorySize) :
    ∃ g', Leads 0x10058 (g.goto 0x10044) g' ∧ g'.pc = 0x10058 ∧ g'.memory.memSize = memorySize ∧
      g'.memory.long 0x4000 = 6765 := by
  have hlen : (fibonacci ++ fibonacciMain).length = 44 := rfl
  obtain ⟨u, run₁, husp, humem⟩ := leads_main htext hsize hsp
  have hstop : Beyond 0x10058 0x10000 fibonacci := .inr (by decide)
  obtain ⟨v, run₂, hpc, hret⟩ :=
    fibonacci_leads hstop 20 _ u (entered_of_main htext hsize husp humem)
  have hpc' : v.pc = 0x10050 := by
    rw [hpc, humem, BaseMemory.long_putLong_self]
    rfl
  have hvsize : v.memory.memSize = memorySize := by
    rw [hret.memSize, humem]
    exact hsize
  have hvtext : Loaded v.memory 0x10000 (fibonacci ++ fibonacciMain) := by
    refine htext.congr (hvsize.trans hsize.symm) fun i hi hi' => ?_
    have huse : stackUse 20 = 312 := rfl
    rw [hret.bytes i (by omega), humem, BaseMemory.baseAddr_putLong (by omega),
      BaseMemory.baseAddr_putLong (by omega), BaseMemory.baseAddr_putLong (by omega)]
  obtain ⟨w, run₃, hend, hmem⟩ := leads_loop hvtext hvsize
  have run : Leads 0x10058 (g.goto 0x10044) v := run₁.trans run₂
  refine ⟨w, run.andThen hpc' run₃, hend, by rw [hmem]; exact hvsize, ?_⟩
  rw [hmem, BaseMemory.long_putLong_self, hret.result]
  decide

end Main

/-- The test `test_fibonacci.cpp`: whatever the memory and the registers held before, `load_elf`
loads the program, the loop of the test ends, and the result is that of `fibonacci(20)`. -/
theorem fibonacci_test (load : String → Option ElfFile) (fileName : String) (file : ElfFile)
    (hload : load fileName = some file) (hheader : file.Supported) (hsep : Separated file.sections)
    (htext : file.Carries 0x10000 90 (textByte fibonacciText)) (hentry : file.entry = 0x10044)
    (s : CPUState BaseMemory) (hsize : s.memory.memSize = memorySize) :
    ∃ t u, loadElf load fileName s = .ok true t ∧ Run step (fun v => v.reg regPC = 0x10058) t u ∧
      u.reg regPC = 0x10058 ∧ memGet 0x4000 .long u = .ok 6765 u := by
  obtain ⟨t, hstart, hstarted⟩ := loadElf_started hload hheader hsep hsize
  have hloaded : Loaded t.memory 0x10000 fibonacciText :=
    hstarted.loaded htext (by decide) (by decide)
  obtain ⟨g, hleads, hpc, hgsize, hresult⟩ :=
    leads_program (g := t.guest) hloaded.left hstarted.memSize hstarted.sp
  have hstartpc : t.reg regPC = BitVec.ofNat 32 0x10044 := by
    rw [hstarted.pc, hentry]
    rfl
  obtain ⟨u, hrun, hdone, hu⟩ := hleads.returns hstartpc hpc
  refine ⟨t, u, hstart, hrun, hdone, ?_⟩
  rw [← hresult, ← hu.memory]
  refine memGet_of_accessible ⟨.inr rfl, ?_⟩
  rw [hu.memory, hgsize]
  decide

/-- The section of `test/binary/fibonacci.elf` that is loaded. -/
def fibonacciFile : ElfFile := executable 0x10044 [⟨ptLoad, 6, 0x10000, 90, textByte fibonacciText⟩]

theorem fibonacci_test_file :
    ∃ t u, loadElf (fun _ => some fibonacciFile) "fibonacci.elf" ⟨simpleMemory fun _ => 0xFF,
      ⟨fun _ => 0⟩⟩ = .ok true t ∧ Run step (fun v => v.reg regPC = 0x10058) t u ∧
      memGet 0x4000 .long u = .ok 6765 u := by
  have hsep : Separated fibonacciFile.sections := by
    refine ⟨fun segment hmem _ addr hcov => ?_, List.pairwise_singleton _ _⟩
    obtain rfl := List.mem_singleton.1 hmem
    simp [ElfSection.Covers] at hcov
    omega
  obtain ⟨t, u, hload, hrun, -, hresult⟩ :=
    fibonacci_test (fun _ => some fibonacciFile) "fibonacci.elf" fibonacciFile rfl
    ⟨rfl, rfl, rfl, rfl⟩ hsep ⟨_, List.mem_cons_self, rfl, rfl, rfl, fun _ _ => rfl⟩ rfl
    ⟨simpleMemory fun _ => 0xFF, ⟨fun _ => 0⟩⟩ rfl
  exact ⟨t, u, hload, hrun, hresult⟩

end M68kEmu
