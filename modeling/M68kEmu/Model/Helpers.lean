import M68kEmu.Model.Defines

/-!
# The function templates of `helpers.hpp`

The templates are instantiated at `uint8_t`, `uint32_t` and `uint64_t`; here the type is the width
`w`. `lsl` and `lsr` are `<<` and `>>` on the 64-bit temporaries of `BitShift`: a count of 64 or
more has no meaning in C++, and the model takes it modulo 64, which is what the shift instructions
of the usual hosts do.
-/

namespace M68kEmu

section Masks

variable {w : ℕ}

def msb8 (value : BitVec w) : BitVec w := value &&& 0x80
def msb16 (value : BitVec w) : BitVec w := value &&& 0x8000
def msb32 (value : BitVec w) : BitVec w := value &&& 0x80000000

def mask8 (value : BitVec w) : BitVec w := value &&& 0xff
def mask9 (value : BitVec w) : BitVec w := value &&& 0x1ff
def mask16 (value : BitVec w) : BitVec w := value &&& 0xffff
def mask17 (value : BitVec w) : BitVec w := value &&& 0x1ffff
def mask32 (value : BitVec w) : BitVec w := value &&& 0xffffffff
def mask33 (value : BitVec w) : BitVec w := value &&& 0x1ffffffff

def maskAbove8 (value : BitVec w) : BitVec w := value &&& ~~~0xff
def maskAbove16 (value : BitVec w) : BitVec w := value &&& ~~~0xffff

end Masks

/-- `MASK_ABOVE_32`: the complement is taken in `unsigned int`, where it is `0`. -/
def maskAbove32 (value : BitVec 32) : BitVec 32 := value &&& ~~~0xffffffff

/-- `MASK_ADDR` on a `size_t`. -/
def maskAddr (address : ℕ) : ℕ := address &&& 0x00ffffff

theorem maskAddr_eq_mod (address : ℕ) : maskAddr address = address % 2 ^ 24 :=
  Nat.and_two_pow_sub_one_eq_mod address 24

def lsl (a b : BitVec 64) : BitVec 64 := a <<< (b.toNat % 64)
def lsr (a b : BitVec 64) : BitVec 64 := a >>> (b.toNat % 64)

def rol8 (a b : BitVec 64) : BitVec 64 := mask8 (lsl a b ||| lsr a (8 - b))
def rol9 (a b : BitVec 64) : BitVec 64 := mask9 (lsl a b ||| lsr a (9 - b))
def rol16 (a b : BitVec 64) : BitVec 64 := mask16 (lsl a b ||| lsr a (16 - b))
def rol17 (a b : BitVec 64) : BitVec 64 := mask17 (lsl a b ||| lsr a (17 - b))
def rol32 (a b : BitVec 64) : BitVec 64 := mask32 (lsl a b ||| lsr a (32 - b))
def rol33 (a b : BitVec 64) : BitVec 64 := mask33 (lsl a b ||| lsr a (33 - b))

def ror8 (a b : BitVec 64) : BitVec 64 := mask8 (lsr a b ||| lsl a (8 - b))
def ror9 (a b : BitVec 64) : BitVec 64 := mask9 (lsr a b ||| lsl a (9 - b))
def ror16 (a b : BitVec 64) : BitVec 64 := mask16 (lsr a b ||| lsl a (16 - b))
def ror17 (a b : BitVec 64) : BitVec 64 := mask17 (lsr a b ||| lsl a (17 - b))
def ror32 (a b : BitVec 64) : BitVec 64 := mask32 (lsr a b ||| lsl a (32 - b))
def ror33 (a b : BitVec 64) : BitVec 64 := mask33 (lsr a b ||| lsl a (33 - b))

/-- `ROL`: the wrapper returns `bool`, so only whether the rotated value is zero comes back. -/
def rol (a b : BitVec 64) : DataSize → Bool
  | .byte => rol8 a b != 0
  | .word => rol16 a b != 0
  | .long => rol32 a b != 0

/-- `ROR`, with the return type of `ROL`. -/
def ror (a b : BitVec 64) : DataSize → Bool
  | .byte => ror8 a b != 0
  | .word => ror16 a b != 0
  | .long => ror32 a b != 0

def isMemoryAlterable (mode : AddressingMode) : Bool :=
  !(mode == .unknown || mode == .pcDisplacement || mode == .pcIndex || mode == .immediate)

def isDataAlterable (mode : AddressingMode) : Bool :=
  !(mode == .unknown || mode == .directAddr || mode == .pcDisplacement || mode == .pcIndex ||
    mode == .immediate)

def isControlAddr (mode : AddressingMode) : Bool :=
  !(mode == .unknown || mode == .directData || mode == .directAddr ||
    mode == .indirectPostincrement || mode == .indirectPredecrement || mode == .immediate)

def isNegative {w : ℕ} (v : BitVec w) : DataSize → Bool
  | .byte => msb8 v != 0
  | .word => msb16 v != 0
  | .long => msb32 v != 0

def isZero {w : ℕ} (v : BitVec w) : DataSize → Bool
  | .byte => mask8 v == 0
  | .word => mask16 v == 0
  | .long => mask32 v == 0

def isOverflow (a b : BitVec 32) : DataSize → Bool
  | .byte => (msb8 a == msb8 b) && (msb8 a != msb8 (a + b))
  | .word => (msb16 a == msb16 b) && (msb16 a != msb16 (a + b))
  | .long => (msb32 a == msb32 b) && (msb32 a != msb32 (a + b))

def isCarry {w : ℕ} (v : BitVec w) : DataSize → Bool
  | .byte => mask8 v < v
  | .word => mask16 v < v
  | .long => mask32 v < v

/-! ### Casts -/

/-- `static_cast<int16_t>(v)`, widened to 32 bits again. -/
def castInt16 (v : BitVec 32) : BitVec 32 := (v.setWidth 16).signExtend 32

theorem toNat_castInt16 {v : BitVec 32} (h : v.toNat < 0x10000) :
    (castInt16 v).toNat = if v.toNat < 0x8000 then v.toNat else v.toNat + 0xFFFF0000 := by
  have hlow : (v.setWidth 16).toNat = v.toNat := by rw [BitVec.toNat_setWidth, Nat.mod_eq_of_lt h]
  have hmsb : (v.setWidth 16).msb = decide (0x8000 ≤ v.toNat) := by rw [BitVec.msb_eq_decide, hlow]
  rw [castInt16, BitVec.toNat_signExtend, BitVec.toNat_setWidth, hlow, hmsb,
    Nat.mod_eq_of_lt (by omega)]
  simp only [decide_eq_true_eq]
  split_ifs <;> omega

/-- `static_cast<int8_t>(v)`, widened to 32 bits again. -/
def castInt8 (v : BitVec 32) : BitVec 32 := (v.setWidth 8).signExtend 32

end M68kEmu
