import M68kEmu.Lib.Rotation
import M68kEmu.Semantics.Flags
import M68kEmu.Semantics.ShiftCounts

/-!
# The rotation helpers

`ROL` and `ROR` choose the helper of the operand size.  Those rotate, up to a count of the width
(`rolSized_eq`, `rorSized_eq`), but the wrappers return `bool`: of the rotated value only comes back
whether it is zero.
-/

namespace M68kEmu

open BitVec Watched

variable {a b : BitVec 64} {size : DataSize}

/-! ### The helpers of the sizes -/

/-- The value that `ROL` returns, before its conversion to `bool`. -/
def rolSized (a b : BitVec 64) : DataSize → BitVec 64
  | .byte => rol8 a b
  | .word => rol16 a b
  | .long => rol32 a b

/-- The value that `ROR` returns, before its conversion to `bool`. -/
def rorSized (a b : BitVec 64) : DataSize → BitVec 64
  | .byte => ror8 a b
  | .word => ror16 a b
  | .long => ror32 a b

theorem rol_eq (a b : BitVec 64) (size : DataSize) : rol a b size = (rolSized a b size != 0) := by
  cases size <;> rfl

theorem ror_eq (a b : BitVec 64) (size : DataSize) : ror a b size = (rorSized a b size != 0) := by
  cases size <;> rfl

section Shifts

variable {w : ℕ}

/-- A value below `2 ^ w` is that of its lower bits. -/
theorem setWidth_setWidth_of_lt (ha : a.toNat < 2 ^ w) : (a.setWidth w).setWidth 64 = a := by
  apply eq_of_toNat_eq
  rw [toNat_setWidth, toNat_setWidth, Nat.mod_eq_of_lt ha, Nat.mod_eq_of_lt a.isLt]

theorem and_eq_setWidth (y : BitVec 64) (hw : w ≤ 64) :
    y &&& BitVec.ofNat 64 (2 ^ w - 1) = (y.setWidth w).setWidth 64 := by
  have hpow : 2 ^ w ≤ 2 ^ 64 := Nat.pow_le_pow_right (by decide) hw
  have hpos : 0 < 2 ^ w := Nat.two_pow_pos w
  have hlt : y.toNat % 2 ^ w < 2 ^ 64 := (Nat.mod_lt _ hpos).trans_le hpow
  apply eq_of_toNat_eq
  rw [toNat_and, toNat_ofNat, Nat.mod_eq_of_lt (by omega), Nat.and_two_pow_sub_one_eq_mod,
    toNat_setWidth, toNat_setWidth, Nat.mod_eq_of_lt hlt]

/-- The complementary count of a helper. -/
theorem toNat_complement (hw : w ≤ 32) (hb : b.toNat ≤ w) :
    b.toNat % 64 = b.toNat ∧ (BitVec.ofNat 64 w - b).toNat % 64 = w - b.toNat := by
  have hw' : (BitVec.ofNat 64 w).toNat = w := by rw [toNat_ofNat, Nat.mod_eq_of_lt (by omega)]
  have hle : b ≤ BitVec.ofNat 64 w := by rwa [BitVec.le_def, hw']
  rw [toNat_sub_of_le hle, hw']
  omega

theorem setWidth_rolShifts (hw : w ≤ 32) (ha : a.toNat < 2 ^ w) (hb : b.toNat ≤ w) :
    (lsl a b ||| lsr a (BitVec.ofNat 64 w - b)).setWidth w = (a.setWidth w).rotateLeft b.toNat := by
  obtain ⟨hcount, hrest⟩ := toNat_complement hw hb
  unfold lsl lsr
  rw [hcount, hrest, ← setWidth_or_shifts_eq_rotateLeft (by omega : w ≤ 64) hb,
    setWidth_setWidth_of_lt ha]

theorem setWidth_rorShifts (hw : w ≤ 32) (ha : a.toNat < 2 ^ w) (hb : b.toNat ≤ w) :
    (lsr a b ||| lsl a (BitVec.ofNat 64 w - b)).setWidth w =
    (a.setWidth w).rotateRight b.toNat := by
  obtain ⟨hcount, hrest⟩ := toNat_complement hw hb
  unfold lsl lsr
  rw [hcount, hrest, ← setWidth_or_shifts_eq_rotateRight (by omega : w ≤ 64) hb,
    setWidth_setWidth_of_lt ha]

end Shifts

/-- The value rotated to the left within the size. -/
def rotatedLeft (a b : BitVec 64) (size : DataSize) : BitVec 64 :=
  ((a.setWidth size.bits).rotateLeft (b.toNat % size.bits)).setWidth 64

/-- The value rotated to the right within the size. -/
def rotatedRight (a b : BitVec 64) (size : DataSize) : BitVec 64 :=
  ((a.setWidth size.bits).rotateRight (b.toNat % size.bits)).setWidth 64

theorem bits_le_width (size : DataSize) : size.bits ≤ 64 := (bits_le size).trans (by decide)

/-- Up to a count of the width, the helpers of the sizes rotate. -/
theorem rolSized_eq (ha : a.toNat < 2 ^ size.bits) (hb : b.toNat ≤ size.bits) :
    rolSized a b size = rotatedLeft a b size := by
  unfold rotatedLeft
  rw [rotateLeft_mod_eq_rotateLeft, ← setWidth_rolShifts (bits_le size) ha hb,
    ← and_eq_setWidth _ (bits_le_width size)]
  cases size <;> rfl

theorem rorSized_eq (ha : a.toNat < 2 ^ size.bits) (hb : b.toNat ≤ size.bits) :
    rorSized a b size = rotatedRight a b size := by
  unfold rotatedRight
  rw [rotateRight_mod_eq_rotateRight, ← setWidth_rorShifts (bits_le size) ha hb,
    ← and_eq_setWidth _ (bits_le_width size)]
  cases size <;> rfl

/-! ### The wrappers -/

/-- `ROL(a, b, size)` as a `uint64_t`. -/
def rolValue (a b : BitVec 64) (size : DataSize) : BitVec 64 := if rol a b size then 1 else 0

/-- `ROR(a, b, size)` as a `uint64_t`. -/
def rorValue (a b : BitVec 64) (size : DataSize) : BitVec 64 := if ror a b size then 1 else 0

/-- The counts of the two shifts that either wrapper evaluates. -/
def helperCounts (b : BitVec 64) (size : DataSize) : List (BitVec 64) :=
  [b, BitVec.ofNat 64 size.bits - b]

theorem recorded_rol {M : Type} (s : CPUState M) :
    recorded (CountM.rol a b size : CountM M Bool) s = helperCounts b size := by
  cases size <;> rfl

theorem recorded_ror {M : Type} (s : CPUState M) :
    recorded (CountM.ror a b size : CountM M Bool) s = helperCounts b size := by
  cases size <;> rfl

/-- The wrappers have a value, which is the rotated one, and they undo each other. -/
structure HelpersRotate (a b : BitVec 64) (size : DataSize) : Prop where
  counts : ∀ count ∈ helperCounts b size, InWidth count
  left : rolValue a b size = rotatedLeft a b size
  right : rorValue a b size = rotatedRight a b size
  inverse : rorValue (rolValue a b size) b size = a

section Wrappers

theorem forall_helperCounts_iff (hb : b.toNat < 64) :
    (∀ count ∈ helperCounts b size, InWidth count) ↔ b.toNat ≤ size.bits := by
  have hsize : (BitVec.ofNat 64 size.bits).toNat = size.bits := by cases size <;> rfl
  have hsub := inWidth_sub (b := b) (n := BitVec.ofNat 64 size.bits) hb (by cases size <;> decide)
  rw [helperCounts, List.forall_mem_cons, List.forall_mem_singleton, hsub, hsize]
  exact and_iff_right hb

theorem bits_pos (size : DataSize) : 0 < size.bits := by
  cases size <;> decide

theorem setWidth_eq_zero_iff (ha : a.toNat < 2 ^ size.bits) :
    a.setWidth size.bits = 0#(size.bits) ↔ a = 0 := by
  constructor
  · intro h
    rw [← setWidth_setWidth_of_lt ha, h, setWidth_zero]
    rfl
  · rintro rfl
    exact setWidth_zero _ _

/-- A widened vector that is zero. -/
theorem widen_eq_zero_iff {v : BitVec size.bits} : v.setWidth 64 = 0 ↔ v = 0#(size.bits) := by
  constructor
  · intro h
    have hlow := congrArg (setWidth size.bits) h
    rw [setWidth_setWidth_of_le _ (bits_le_width size), setWidth_eq] at hlow
    rw [hlow]
    exact setWidth_zero _ _
  · rintro rfl
    exact setWidth_zero _ _

theorem rotatedLeft_eq_zero_iff (ha : a.toNat < 2 ^ size.bits) :
    rotatedLeft a b size = 0 ↔ a = 0 := by
  unfold rotatedLeft
  rw [widen_eq_zero_iff, rotateLeft_eq_zero_iff, setWidth_eq_zero_iff ha]

theorem rotatedRight_eq_zero_iff (ha : a.toNat < 2 ^ size.bits) :
    rotatedRight a b size = 0 ↔ a = 0 := by
  unfold rotatedRight
  rw [widen_eq_zero_iff, rotateRight_eq_zero_iff, setWidth_eq_zero_iff ha]

theorem boolValue_eq {x : BitVec 64} (h : x = 0 ↔ a = 0) :
    (if x != 0 then (1 : BitVec 64) else 0) = if a = 0 then 0 else 1 := by
  by_cases ha : a = 0
  · rw [if_pos ha, h.2 ha]
    rfl
  · rw [if_neg ha, if_pos (bne_iff_ne.2 (h.not.2 ha))]

/-- The wrapper answers whether the value is zero. -/
theorem rolValue_eq (ha : a.toNat < 2 ^ size.bits) (hb : b.toNat ≤ size.bits) :
    rolValue a b size = if a = 0 then 0 else 1 := by
  unfold rolValue
  rw [rol_eq, rolSized_eq ha hb]
  exact boolValue_eq (rotatedLeft_eq_zero_iff ha)

theorem rorValue_eq (ha : a.toNat < 2 ^ size.bits) (hb : b.toNat ≤ size.bits) :
    rorValue a b size = if a = 0 then 0 else 1 := by
  unfold rorValue
  rw [ror_eq, rorSized_eq ha hb]
  exact boolValue_eq (rotatedRight_eq_zero_iff ha)

theorem one_lt_two_pow_bits (size : DataSize) : (1 : BitVec 64).toNat < 2 ^ size.bits := by
  cases size <;> decide

/-- A single bit is back in its place after whole turns only. -/
theorem rotatedLeft_one_iff : rotatedLeft 1 b size = 1 ↔ b.toNat % size.bits = 0 := by
  have hone : (1 : BitVec 64).setWidth size.bits = 1#(size.bits) := by cases size <;> rfl
  have hwide : (1#(size.bits)).setWidth 64 = 1 := by cases size <;> rfl
  unfold rotatedLeft
  rw [hone]
  constructor
  · intro h
    have hlow := congrArg (setWidth size.bits) h
    rw [setWidth_setWidth_of_le _ (bits_le_width size), setWidth_eq, hone,
      one_rotateLeft_eq_self_iff (bits_pos size), Nat.mod_mod] at hlow
    exact hlow
  · intro h
    rw [(one_rotateLeft_eq_self_iff (bits_pos size)).2 (by rw [Nat.mod_mod, h]), hwide]

theorem rotatedRight_one (h : b.toNat % size.bits = 0) : rotatedRight 1 b size = 1 := by
  unfold rotatedRight
  rw [rotateRight_eq_self.2 (.of_mod_eq_zero (by rw [Nat.mod_mod, h]))]
  exact setWidth_setWidth_of_lt (one_lt_two_pow_bits size)

end Wrappers

/-- The wrappers rotate a value of 0, by a count up to the width, and a value of 1
that stays in its place. -/
theorem rotation_helpers_rotate_iff (a b : BitVec 64) (size : DataSize)
    (ha : a.toNat < 2 ^ size.bits) (hb : b.toNat < 64) :
    HelpersRotate a b size ↔
      b.toNat ≤ size.bits ∧ (a = 0 ∨ a = 1 ∧ (b.toNat = 0 ∨ b.toNat = size.bits)) := by
  have hone := one_lt_two_pow_bits size
  constructor
  · intro h
    have hle : b.toNat ≤ size.bits := (forall_helperCounts_iff hb).1 h.counts
    refine ⟨hle, or_iff_not_imp_left.2 fun hne => ?_⟩
    have hrol : rolValue a b size = 1 := by rw [rolValue_eq ha hle, if_neg hne]
    -- the way back starts from 1, and ends there
    have hror : rorValue 1 b size = 1 := by rw [rorValue_eq hone hle, if_neg (by decide)]
    have heq : a = 1 := by rw [← h.inverse, hrol, hror]
    have hleft := h.left
    rw [hrol, heq] at hleft
    have hturn := rotatedLeft_one_iff.1 hleft.symm
    obtain hlt | hend := Nat.lt_or_eq_of_le hle
    · exact ⟨heq, .inl (by rwa [Nat.mod_eq_of_lt hlt] at hturn)⟩
    · exact ⟨heq, .inr hend⟩
  · rintro ⟨hle, rfl | ⟨rfl, hcount⟩⟩
    · have hrol : rolValue 0 b size = 0 := by rw [rolValue_eq ha hle, if_pos rfl]
      have hror : rorValue 0 b size = 0 := by rw [rorValue_eq ha hle, if_pos rfl]
      refine ⟨(forall_helperCounts_iff hb).2 hle, ?_, ?_, by rw [hrol, hror]⟩
      · rw [hrol, (rotatedLeft_eq_zero_iff ha).2 rfl]
      · rw [hror, (rotatedRight_eq_zero_iff ha).2 rfl]
    · have hturn : b.toNat % size.bits = 0 := by
        obtain h | h := hcount <;> rw [h]
        · exact Nat.zero_mod _
        · exact Nat.mod_self _
      have hrol : rolValue 1 b size = 1 := by rw [rolValue_eq hone hle, if_neg (by decide)]
      have hror : rorValue 1 b size = 1 := by rw [rorValue_eq hone hle, if_neg (by decide)]
      refine ⟨(forall_helperCounts_iff hb).2 hle, ?_, ?_, by rw [hrol, hror]⟩
      · rw [hrol, rotatedLeft_one_iff.2 hturn]
      · rw [hror, rotatedRight_one hturn]

/-- `ROL(1, 8, SIZE_BYTE)`, a whole turn. -/
theorem rotation_helpers_rotate_one : HelpersRotate 1 8 .byte :=
  (rotation_helpers_rotate_iff 1 8 .byte (by decide) (by decide)).2
    ⟨by decide, .inr ⟨rfl, .inr rfl⟩⟩

/-- `ROL(0x81, 1, SIZE_BYTE)` is 1, where 3 should be. -/
theorem rol_returns_bool : ¬HelpersRotate 0x81 1 .byte := by
  intro h
  have hleft := h.left
  exact absurd hleft (by decide)

end M68kEmu
