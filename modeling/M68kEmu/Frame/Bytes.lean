import M68kEmu.Lib.Limbs
import M68kEmu.Model.Memory

/-!
# Reading and writing bytes

`IMemory::read_real_mem` and `IMemory::write_real_mem` as operations on a sequence of bytes: a read
is the big-endian number of the bytes of its operand, a write changes those bytes only, and a long
word is read back as it was written.
-/

namespace M68kEmu

section Bytes

variable {bytes bytes' : ℕ → BitVec 8} {addr i : ℕ} {data : BitVec 32} {size : DataSize}

theorem putByte_of_ne {value : BitVec 8} (h : i ≠ addr) : putByte bytes addr value i = bytes i :=
  if_neg h

/-- A write changes the bytes of its operand only. -/
theorem writeRealMem_of_outside (h : i < addr ∨ addr + size.bytes ≤ i) :
    writeRealMem bytes addr data size i = bytes i := by
  cases size with
  | byte =>
    simp only [DataSize.bytes] at h
    rw [writeRealMem, putByte_of_ne (by omega)]
  | word =>
    simp only [DataSize.bytes] at h
    rw [writeRealMem, putByte_of_ne (by omega), putByte_of_ne (by omega)]
  | long =>
    simp only [DataSize.bytes] at h
    rw [writeRealMem, putByte_of_ne (by omega), putByte_of_ne (by omega), putByte_of_ne (by omega),
      putByte_of_ne (by omega)]

/-- A read depends on the bytes of its operand only. -/
theorem readRealMem_congr (h : ∀ i, addr ≤ i → i < addr + size.bytes → bytes i = bytes' i) :
    readRealMem bytes addr size = readRealMem bytes' addr size := by
  cases size with
  | byte => rw [readRealMem, readRealMem, h addr (by omega) (by simp [DataSize.bytes])]
  | word =>
    simp only [DataSize.bytes] at h
    rw [readRealMem, readRealMem, h addr (by omega) (by omega), h (addr + 1) (by omega) (by omega)]
  | long =>
    simp only [DataSize.bytes] at h
    rw [readRealMem, readRealMem, h addr (by omega) (by omega), h (addr + 1) (by omega) (by omega),
      h (addr + 2) (by omega) (by omega), h (addr + 3) (by omega) (by omega)]

/-- One more byte at the low end. -/
theorem toNat_shiftLeft_or {acc : BitVec 32} (byte : BitVec 8) (h : acc.toNat < 2 ^ 24) :
    ((acc <<< 8) ||| byte.setWidth 32).toNat = acc.toNat * 256 + byte.toNat := by
  have hbyte := byte.isLt
  rw [BitVec.toNat_or, BitVec.toNat_shiftLeft, BitVec.toNat_setWidth, Nat.shiftLeft_eq,
    Nat.mod_eq_of_lt (by omega),
    Nat.mod_eq_of_lt (by omega), ← Nat.shiftLeft_eq, ← Nat.shiftLeft_add_eq_or_of_lt hbyte,
    Nat.shiftLeft_eq]

/-- A read is the big-endian number of its bytes. -/
theorem toNat_readRealMem : (readRealMem bytes addr size).toNat =
    match size with
    | .byte => (bytes addr).toNat
    | .word => (bytes addr).toNat * 256 + (bytes (addr + 1)).toNat
    | .long =>
      (((bytes addr).toNat * 256 + (bytes (addr + 1)).toNat) * 256 + (bytes (addr + 2)).toNat) *
        256 + (bytes (addr + 3)).toNat := by
  have h₀ := (bytes addr).isLt
  have h₁ := (bytes (addr + 1)).isLt
  have h₂ := (bytes (addr + 2)).isLt
  have hbyte : ((bytes addr).setWidth 32).toNat = (bytes addr).toNat := by
    rw [BitVec.toNat_setWidth, Nat.mod_eq_of_lt (by omega)]
  cases size with
  | byte => exact hbyte
  | word => rw [readRealMem, toNat_shiftLeft_or _ (by omega), hbyte]
  | long =>
    have hword :=
      toNat_shiftLeft_or (bytes (addr + 1)) (by omega : ((bytes addr).setWidth 32).toNat < 2 ^ 24)
    have hthree := toNat_shiftLeft_or (bytes (addr + 2)) (by rw [hword]; omega)
    rw [readRealMem, toNat_shiftLeft_or _ (by rw [hthree]; omega), hthree, hword, hbyte]

theorem pow_bytes (size : DataSize) : 256 ^ size.bytes = 2 ^ size.bits := by cases size <;> decide

/-- `IMemory::read_real_mem` returns the number in its bytes. -/
theorem toNat_readRealMem_eq_number (bytes : ℕ → BitVec 8) (addr : ℕ) (size : DataSize) :
    (readRealMem bytes addr size).toNat = Limbs.number bytes addr size.bytes := by
  rw [toNat_readRealMem]
  cases size <;> simp only [DataSize.bytes, Limbs.number, Nat.add_zero] <;> omega

/-- A read returns a value of the size of its operand. -/
theorem readRealMem_lt : (readRealMem bytes addr size).toNat < 2 ^ size.bits := by
  have h₀ := (bytes addr).isLt
  have h₁ := (bytes (addr + 1)).isLt
  rw [toNat_readRealMem]
  cases size with
  | byte => exact h₀
  | word => simp only [DataSize.bits, DataSize.bytes]; omega
  | long =>
    have h₂ := (bytes (addr + 2)).isLt
    have h₃ := (bytes (addr + 3)).isLt
    simp only [DataSize.bits, DataSize.bytes]
    omega

theorem toNat_mask8 {v : BitVec 32} : (mask8 v).toNat = v.toNat % 256 := by
  rw [mask8, BitVec.toNat_and]
  exact Nat.and_two_pow_sub_one_eq_mod v.toNat 8

/-- An operand is read back as the low bits of what was written. -/
theorem toNat_readRealMem_writeRealMem :
    (readRealMem (writeRealMem bytes addr data size) addr size).toNat =
    data.toNat % 2 ^ size.bits := by
  have hdata := data.isLt
  rw [toNat_readRealMem]
  cases size <;> simp only [writeRealMem, putByte, DataSize.bits, DataSize.bytes] <;>
    simp [toNat_mask8, Nat.shiftRight_eq_div_pow] <;> omega

/-- A long word is read back as it was written. -/
theorem readRealMem_writeRealMem :
    readRealMem (writeRealMem bytes addr data .long) addr .long = data := by
  refine BitVec.eq_of_toNat_eq ?_
  rw [toNat_readRealMem_writeRealMem]
  exact Nat.mod_eq_of_lt data.isLt

end Bytes

end M68kEmu
