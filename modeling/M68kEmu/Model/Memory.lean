import M68kEmu.Model.Helpers

/-!
# Memory (`memory.hpp`, `memory.cpp`)

* `IMemory`: the abstract class.  An implementation is a state of type `M` with its two virtual
  functions; both may change the state and both may throw, and a throwing call keeps the
  changes made so far;
* `BaseMemory`: a buffer of `memSize` bytes behind the 24-bit address mask.  `SimpleMemory` is the
  one of `memorySize` bytes.
-/

namespace M68kEmu

/-- `IMemory`. -/
class IMemory (M : Type) where
  get : (address : ℕ) → (size : DataSize) → EStateM Fault M (BitVec 32)
  set : (address : ℕ) → (size : DataSize) → (data : BitVec 32) → EStateM Fault M Unit

/-- `IMemory::read_real_mem`. -/
def readRealMem (bytes : ℕ → BitVec 8) (addr : ℕ) : DataSize → BitVec 32
  | .byte => (bytes addr).setWidth 32
  | .word => ((bytes addr).setWidth 32 <<< 8) ||| (bytes (addr + 1)).setWidth 32
  | .long =>
    ((((((bytes addr).setWidth 32 <<< 8) ||| (bytes (addr + 1)).setWidth 32) <<< 8) |||
      (bytes (addr + 2)).setWidth 32) <<< 8) ||| (bytes (addr + 3)).setWidth 32

/-- The assignment `addr[0] = value`. -/
def putByte (bytes : ℕ → BitVec 8) (addr : ℕ) (value : BitVec 8) : ℕ → BitVec 8 :=
  fun i => if i = addr then value else bytes i

/-- `IMemory::write_real_mem`. -/
def writeRealMem (bytes : ℕ → BitVec 8) (addr : ℕ) (data : BitVec 32) : DataSize → ℕ → BitVec 8
  | .byte => putByte bytes addr ((mask8 data).setWidth 8)
  | .word =>
    putByte (putByte bytes addr ((mask8 (data >>> 8)).setWidth 8)) (addr + 1)
      ((mask8 data).setWidth 8)
  | .long =>
    putByte (putByte (putByte (putByte bytes addr ((mask8 (data >>> 24)).setWidth 8))
      (addr + 1) ((mask8 (data >>> 16)).setWidth 8))
      (addr + 2) ((mask8 (data >>> 8)).setWidth 8))
      (addr + 3) ((mask8 data).setWidth 8)

/-- `BaseMemory`; the bytes from `memSize` on are never read or written. -/
structure BaseMemory where
  baseAddr : ℕ → BitVec 8
  memSize : BitVec 32

namespace BaseMemory

/-- The two checks at the head of `get` and `set`, on the masked address. -/
def check (mem : BaseMemory) (address : ℕ) (size : DataSize) : Except Fault Unit :=
  if size ≠ .byte ∧ address % 2 ≠ 0 then .error .addressOdd
  else if mem.memSize.toNat < address + size.bytes then .error
    (.addressOutOfRange address mem.memSize.toNat)
  else .ok ()

/-- `BaseMemory::get`. -/
def get (address : ℕ) (size : DataSize) : EStateM Fault BaseMemory (BitVec 32) := fun mem =>
  match mem.check (maskAddr address) size with
  | .error e => .error e mem
  | .ok _ => .ok (readRealMem mem.baseAddr (maskAddr address) size) mem

/-- `BaseMemory::set`. -/
def set (address : ℕ) (size : DataSize) (data : BitVec 32) :
    EStateM Fault BaseMemory Unit := fun mem =>
  match mem.check (maskAddr address) size with
  | .error e => .error e mem
  | .ok _ => .ok () { mem with baseAddr := writeRealMem mem.baseAddr (maskAddr address) data size }

instance : IMemory BaseMemory where
  get := get
  set := set

end BaseMemory

/-- A `SimpleMemory` over the given bytes. -/
def simpleMemory (bytes : ℕ → BitVec 8) : BaseMemory := ⟨bytes, memorySize⟩

end M68kEmu
