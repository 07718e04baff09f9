import M68kEmu.Frame.Bytes
import M68kEmu.Lib.ByteStore
import M68kEmu.Lib.Outcome

/-!
# The law of `BaseMemory`

An access is rejected for its alignment or for the length of the buffer, and a rejected access
changes nothing.  An accepted `set` is a patch of the big-endian bytes of its value, and `get` is
the big-endian number of its bytes.  So after any sequence of `set`s every byte of a `get` is the
one that the last accepted `set` over it has written.
-/

namespace M68kEmu

open ByteStore Limbs Outcome

/-! ### The two encodings -/

section Encodings

variable {bytes : ℕ → BitVec 8} {addr : ℕ} {size : DataSize}

/-- A byte of the value that a shift brings down. -/
theorem setWidth_mask8_ushiftRight (data : BitVec 32) (k : ℕ) :
    (mask8 (data >>> (8 * k))).setWidth 8 = BitVec.ofNat 8 (data.toNat / 256 ^ k) := by
  have hpow : (256 : ℕ) ^ k = 2 ^ (8 * k) := (pow_mul 2 8 k).symm
  refine BitVec.eq_of_toNat_eq ?_
  rw [BitVec.toNat_setWidth, toNat_mask8, BitVec.toNat_ushiftRight, Nat.shiftRight_eq_div_pow,
    BitVec.toNat_ofNat, hpow, Nat.mod_mod_of_dvd _ (by decide)]

/-- `IMemory::write_real_mem` writes the most significant byte first. -/
theorem writeRealMem_inside {data : BitVec 32} {k : ℕ} (h : k < size.bytes) :
    writeRealMem bytes addr data size (addr + k) = byteAt size.bytes data.toNat k := by
  have h₀ := setWidth_mask8_ushiftRight data 0
  have h₁ := setWidth_mask8_ushiftRight data 1
  have h₂ := setWidth_mask8_ushiftRight data 2
  have h₃ := setWidth_mask8_ushiftRight data 3
  simp only [Nat.mul_zero, BitVec.ushiftRight_zero, Nat.mul_one] at h₀ h₁ h₂ h₃
  cases size with
  | byte =>
    obtain rfl : k = 0 := by simp only [DataSize.bytes] at h; omega
    simp [writeRealMem, putByte, byteAt, DataSize.bytes, h₀]
  | word =>
    obtain rfl | rfl : k = 0 ∨ k = 1 := by simp only [DataSize.bytes] at h; omega
    · simp [writeRealMem, putByte, byteAt, DataSize.bytes, h₁]
    · simp [writeRealMem, putByte, byteAt, DataSize.bytes, h₀]
  | long =>
    obtain rfl | rfl | rfl | rfl :
        k = 0 ∨ k = 1 ∨ k = 2 ∨ k = 3 := by simp only [DataSize.bytes] at h; omega
    · simp [writeRealMem, putByte, byteAt, DataSize.bytes, h₃]
    · simp [writeRealMem, putByte, byteAt, DataSize.bytes, h₂]
    · simp [writeRealMem, putByte, byteAt, DataSize.bytes, h₁]
    · simp [writeRealMem, putByte, byteAt, DataSize.bytes, h₀]

/-- What `set` writes. -/
def valuePatch (addr : ℕ) (size : DataSize) (data : BitVec 32) : Patch (BitVec 8) where
  address := addr
  length := size.bytes
  contents := byteAt size.bytes data.toNat

/-- A write is a patch of the bytes of its value. -/
theorem writeRealMem_eq_onto (data : BitVec 32) :
    writeRealMem bytes addr data size = (valuePatch addr size data).onto bytes := by
  funext i
  by_cases h : (valuePatch addr size data).Covers i
  · obtain ⟨k, rfl⟩ : ∃ k, i = addr + k := Nat.exists_eq_add_of_le h.1
    have hk : k < size.bytes := Nat.add_lt_add_iff_left.1 h.2
    rw [writeRealMem_inside hk]
    exact (Patch.onto_add (p := valuePatch addr size data) hk).symm
  · rw [Patch.onto_of_not_covers h]
    simp only [Patch.Covers, valuePatch] at h
    exact writeRealMem_of_outside (by omega)

end Encodings

/-! ### One access -/

/-- The access is rejected. -/
def BaseMemory.Rejects (mem : BaseMemory) (address : ℕ) (size : DataSize) : Prop :=
  (size ≠ .byte ∧ address % 2 ^ 24 % 2 ≠ 0) ∨ mem.memSize.toNat < address % 2 ^ 24 + size.bytes

instance (mem : BaseMemory) (address : ℕ) (size : DataSize) :
    Decidable (mem.Rejects address size) :=
  inferInstanceAs (Decidable (_ ∨ _))

namespace BaseMemory

variable {mem : BaseMemory} {address : ℕ} {size : DataSize}

theorem check_of_rejects (h : mem.Rejects address size) :
    ∃ e, mem.check (address % 2 ^ 24) size = .error e := by
  rw [check]
  split_ifs with h₁ h₂
  · exact ⟨_, rfl⟩
  · exact ⟨_, rfl⟩
  · exact absurd h (not_or.2 ⟨h₁, h₂⟩)

theorem check_of_not_rejects (h : ¬mem.Rejects address size) :
    mem.check (address % 2 ^ 24) size = .ok () := by
  obtain ⟨h₁, h₂⟩ := not_or.1 h
  rw [check, if_neg h₁, if_neg h₂]

theorem set_of_rejects (h : mem.Rejects address size) (value : BitVec 32) :
    ∃ e, set address size value mem = .error e mem := by
  obtain ⟨e, he⟩ := check_of_rejects h
  exact ⟨e, by simp only [set, maskAddr_eq_mod, he]⟩

theorem get_of_rejects (h : mem.Rejects address size) :
    ∃ e, get address size mem = .error e mem := by
  obtain ⟨e, he⟩ := check_of_rejects h
  exact ⟨e, by simp only [get, maskAddr_eq_mod, he]⟩

theorem set_of_not_rejects (h : ¬mem.Rejects address size) (value : BitVec 32) :
    set address size value mem =
      .ok () { mem with
        baseAddr := (valuePatch (address % 2 ^ 24) size value).onto mem.baseAddr } := by
  simp only [set, maskAddr_eq_mod, check_of_not_rejects h, writeRealMem_eq_onto]

theorem get_of_not_rejects (h : ¬mem.Rejects address size) :
    get address size mem = .ok (readRealMem mem.baseAddr (address % 2 ^ 24) size) mem := by
  simp only [get, maskAddr_eq_mod, check_of_not_rejects h]

end BaseMemory

/-- What one `set` does. -/
structure SetLaw (mem : BaseMemory) (address : ℕ) (size : DataSize) (value : BitVec 32) : Prop where
  throws_iff : (∃ e mem', BaseMemory.set address size value mem = .error e mem') ↔
    mem.Rejects address size
  throws_keeps : ∀ e mem', BaseMemory.set address size value mem = .error e mem' → mem' = mem
  stored : ∀ u mem', BaseMemory.set address size value mem = .ok u mem' →
    number mem'.baseAddr (address % 2 ^ 24) size.bytes = value.toNat % 2 ^ size.bits
  inside : ∀ u mem', BaseMemory.set address size value mem = .ok u mem' →
    address % 2 ^ 24 + size.bytes ≤ mem'.memSize.toNat ∧ mem'.memSize = mem.memSize
  outside : ∀ u mem', BaseMemory.set address size value mem = .ok u mem' →
    ∀ i, i < address % 2 ^ 24 ∨ address % 2 ^ 24 + size.bytes ≤ i → mem'.baseAddr i = mem.baseAddr i

theorem setLaw (mem : BaseMemory) (address : ℕ) (size : DataSize) (value : BitVec 32) :
    SetLaw mem address size value := by
  by_cases h : mem.Rejects address size
  · obtain ⟨e, he⟩ := BaseMemory.set_of_rejects h value
    refine ⟨iff_of_true ⟨e, mem, he⟩ h, fun e' mem' h' => ?_, fun u mem' h' => ?_, fun u mem' h' =>
      ?_, fun u mem' h' => ?_⟩ <;>
      rw [he] at h' <;> cases h'
    rfl
  · have hset := BaseMemory.set_of_not_rejects h value
    refine ⟨iff_of_false ?_ h, fun e' mem' h' => ?_, fun u mem' h' => ?_, fun u mem' h' => ?_,
      fun u mem' h' i hi => ?_⟩
    · rintro ⟨e, mem', he⟩
      rw [hset] at he
      cases he
    all_goals
      rw [hset] at h'
      cases h'
    · rw [← pow_bytes]
      exact number_of_byteAt fun k hk =>
        Patch.onto_add (p := valuePatch (address % 2 ^ 24) size value) hk
    · exact ⟨Nat.not_lt.1 fun hlt => h (.inr hlt), rfl⟩
    · exact Patch.onto_of_not_covers fun hcovers => by
        simp only [Patch.Covers, valuePatch] at hcovers; omega

/-- What one `get` does. -/
structure GetLaw (mem : BaseMemory) (address : ℕ) (size : DataSize) : Prop where
  throws_iff : (∃ e mem', BaseMemory.get address size mem = .error e mem') ↔
    mem.Rejects address size
  keeps : after (BaseMemory.get address size) mem = mem
  read : ∀ v mem', BaseMemory.get address size mem = .ok v mem' →
    v.toNat = number mem.baseAddr (address % 2 ^ 24) size.bytes

theorem getLaw (mem : BaseMemory) (address : ℕ) (size : DataSize) : GetLaw mem address size := by
  by_cases h : mem.Rejects address size
  · obtain ⟨e, he⟩ := BaseMemory.get_of_rejects h
    refine ⟨iff_of_true ⟨e, mem, he⟩ h, after_of_error he, fun v mem' h' => ?_⟩
    rw [he] at h'
    cases h'
  · have hget := BaseMemory.get_of_not_rejects h
    refine ⟨iff_of_false ?_ h, after_of_ok hget, fun v mem' h' => ?_⟩
    · rintro ⟨e, mem', he⟩
      rw [hget] at he
      cases he
    · rw [hget] at h'
      cases h'
      exact toNat_readRealMem_eq_number _ _ _

/-! ### Any history -/

/-- A call of `BaseMemory::set`. -/
structure Store where
  address : ℕ
  size : DataSize
  value : BitVec 32
  deriving DecidableEq, Repr

namespace Store

/-- The memory after the call, whether it returns or throws. -/
def run (mem : BaseMemory) (w : Store) : BaseMemory :=
  after (BaseMemory.set w.address w.size w.value) mem

/-- What the call writes if it is accepted. -/
def patch (w : Store) : Patch (BitVec 8) := valuePatch (w.address % 2 ^ 24) w.size w.value

end Store

/-- The memory after a sequence of calls. -/
def BaseMemory.runStores (mem : BaseMemory) (history : List Store) : BaseMemory :=
  history.foldl Store.run mem

/-- The patches of the calls that are accepted; what is accepted depends on the
length of the buffer only. -/
def BaseMemory.accepted (mem : BaseMemory) (history : List Store) : List (Patch (BitVec 8)) :=
  (history.filter fun w => ¬mem.Rejects w.address w.size).map Store.patch

/-- The last value written to a byte, or the byte that was there at first. -/
def BaseMemory.lastWritten (mem : BaseMemory) (history : List Store) (i : ℕ) : BitVec 8 :=
  (latest (mem.accepted history) i).getD (mem.baseAddr i)

/-- A history leaves the accepted patches. -/
theorem runStores_eq (mem : BaseMemory) (history : List Store) :
    mem.runStores history =
    { mem with baseAddr := patched mem.baseAddr (mem.accepted history) } := by
  induction history generalizing mem with
  | nil => rfl
  | cons w history ih =>
    rw [BaseMemory.runStores, List.foldl_cons, ← BaseMemory.runStores]
    by_cases h : mem.Rejects w.address w.size
    · obtain ⟨e, he⟩ := BaseMemory.set_of_rejects h w.value
      have haccepted : mem.accepted (w :: history) = mem.accepted history := by
        simp [BaseMemory.accepted, h]
      rw [Store.run, after_of_error he, ih, haccepted]
    · have haccepted : mem.accepted (w :: history) = w.patch :: mem.accepted history := by
        simp [BaseMemory.accepted, h]
      rw [Store.run, after_of_ok (BaseMemory.set_of_not_rejects h w.value), ih, haccepted]
      rfl

/-- The law of `BaseMemory`: what one `set` and one `get` do, and what a `get` returns after any
sequence of `set`s. -/
theorem memory_law (mem : BaseMemory) :
    (∀ address size value, SetLaw mem address size value) ∧
    (∀ address size, GetLaw mem address size) ∧ ∀ (history : List Store) address size,
        ((∃ e mem', BaseMemory.get address size (mem.runStores history) = .error e mem') ↔
          mem.Rejects address size) ∧
        ∀ v mem', BaseMemory.get address size (mem.runStores history) = .ok v mem' →
          v.toNat = number (mem.lastWritten history) (address % 2 ^ 24) size.bytes := by
  refine ⟨setLaw mem, getLaw mem, fun history address size => ?_⟩
  have hget := getLaw (mem.runStores history) address size
  rw [runStores_eq] at hget ⊢
  refine ⟨hget.throws_iff, fun v mem' h => ?_⟩
  rw [hget.read v mem' h]
  exact number_congr fun i _ _ => patched_eq_latest _ _ _

end M68kEmu
