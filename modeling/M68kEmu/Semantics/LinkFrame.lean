import M68kEmu.Semantics.CallReturn

/-!
# Stack frames

`LINK` pushes the frame pointer, points it at the pushed word, and makes room for the locals; `UNLK`
takes both pointers back.  What `UNLK` needs is only that the frame pointer still points at the
pushed word (`FrameHolds`), whatever has become of the stack pointer and of the rest of memory.
-/

namespace M68kEmu

open Outcome

variable {addrReg : ℕ} {s t t' : CPUState BaseMemory} {fp data : BitVec 32}

/-- The frame pointer points at the long word `data`, at the address `fp`. -/
structure FrameHolds (addrReg : ℕ) (t : CPUState BaseMemory) (fp data : BitVec 32) : Prop where
  pointer : t.reg addrReg = fp
  accessible : t.memory.Accessible fp .long
  value : t.memory.read fp .long = data

/-- The frame pointer, the supervisor bit and the four bytes that the frame pointer points to are
the same, in a memory of the same length. -/
structure FrameKept (addrReg : ℕ) (t t' : CPUState BaseMemory) : Prop where
  supervisor : t'.registers.supervisor = t.registers.supervisor
  pointer : t'.reg addrReg = t.reg addrReg
  memSize : t'.memory.memSize = t.memory.memSize
  bytes : ∀ i < 4, t'.memory.baseAddr (maskAddr (t.reg addrReg).toNat + i) =
    t.memory.baseAddr (maskAddr (t.reg addrReg).toNat + i)

theorem FrameHolds.congr (h : FrameHolds addrReg t fp data) (hkept : FrameKept addrReg t t') :
    FrameHolds addrReg t' fp data where
  pointer := hkept.pointer.trans h.pointer
  accessible := (BaseMemory.accessible_congr hkept.memSize).2 h.accessible
  value := by
    rw [← h.value, BaseMemory.read, BaseMemory.read]
    refine readRealMem_congr fun i hi hi' => ?_
    have hbyte := hkept.bytes (i - maskAddr fp.toNat) (by simp only [DataSize.bytes] at hi'; omega)
    rwa [h.pointer, Nat.add_sub_cancel' hi] at hbyte

/-! ### `LINK` -/

/-- The displacement of a `LINK` at the program counter. -/
def CPUState.linkDisplacement (s : CPUState BaseMemory) : BitVec 32 :=
  s.memory.read (s.reg regPC + 2) .word

theorem link_eq_ok {u : Unit} (hreg : 8 ≤ addrReg ∧ addrReg < 15)
    (h : Link.execute addrReg s = .ok u t) :
    FrameHolds addrReg t (s.reg regUSP - 4) (s.reg addrReg) ∧
      t.reg regUSP = t.reg addrReg + castInt16 s.linkDisplacement := by
  have hn : Named addrReg := named_of_lt (by omega)
  have hpc : addrReg ≠ regPC := by simp only [regPC]; omega
  have hsp : addrReg ≠ regUSP := by simp only [regUSP]; omega
  obtain ⟨displacement, s₁, hfetch, h⟩ := bind_eq_ok.1 h
  obtain ⟨addrData, s₂, hread, h⟩ := bind_eq_ok.1 h
  obtain ⟨_, s₃, hpush, h⟩ := bind_eq_ok.1 h
  obtain ⟨stackPtr, s₄, hptr, h⟩ := bind_eq_ok.1 h
  obtain ⟨_, s₅, hframe, hlocals⟩ := bind_eq_ok.1 h
  simp [Link.fetchDisplacement, -bind_pure_comp] at hfetch
  obtain ⟨-, hdisp, rfl⟩ := hfetch
  rw [getReg_long hn] at hread
  obtain ⟨rfl, rfl⟩ := EStateM.Result.ok.inj hread
  rw [getReg_long named_regUSP] at hptr
  obtain ⟨rfl, rfl⟩ := EStateM.Result.ok.inj hptr
  rw [setReg_long hn] at hframe
  obtain ⟨-, rfl⟩ := EStateM.Result.ok.inj hframe
  rw [setReg_long named_regUSP] at hlocals
  obtain ⟨-, rfl⟩ := EStateM.Result.ok.inj hlocals
  -- the pushed word is at the new frame pointer
  have hholds := stackHolds_of_stackPush hpush
  rw [CPUState.reg_withReg_of_ne named_regPC named_regUSP (by decide),
    CPUState.reg_withReg_of_ne named_regPC hn hpc] at hholds
  have hpointer : ((s₃.withReg addrReg (s₃.reg regUSP)).withReg regUSP
      (s₃.reg regUSP + castInt16 displacement)).reg addrReg = s₃.reg regUSP := by
    rw [CPUState.reg_withReg_of_ne named_regUSP hn hsp, CPUState.reg_withReg_self hn]
  refine ⟨⟨hpointer.trans hholds.top, hholds.accessible, hholds.value⟩, ?_⟩
  rw [hpointer, CPUState.reg_withReg_self named_regUSP, ← hdisp]
  rfl

/-! ### `UNLK` -/

theorem unlk_of_frameHolds (hreg : 8 ≤ addrReg ∧ addrReg < 15) (h : FrameHolds addrReg t fp data) :
    ∃ u, Unlk.execute addrReg t = .ok () u ∧ u.reg addrReg = data ∧ u.reg regUSP = fp + 4 := by
  have hn : Named addrReg := named_of_lt (by omega)
  have hpc : addrReg ≠ regPC := by simp only [regPC]; omega
  have hsp : regUSP ≠ addrReg := by simp only [regUSP]; omega
  have hskip : (t.withReg regPC (t.reg regPC + 2)).reg addrReg = fp := by
    rw [CPUState.reg_withReg_of_ne named_regPC hn hpc, h.pointer]
  have hpop (t' : CPUState BaseMemory) (hmem : t'.memory = t.memory) (htop : t'.reg regUSP = fp) :
      CPUState.stackPop .long t' = .ok data (t'.withReg regUSP (fp + 4)) := by
    rw [CPUState.stackPop, bind_of_ok (getReg_long named_regUSP), htop,
      bind_of_ok (memGet_of_accessible (hmem ▸ h.accessible)),
      bind_of_ok (setReg_long named_regUSP), hmem, h.value]
    rfl
  rw [Unlk.execute, bind_of_ok (skipOpcode_apply t), bind_of_ok (getReg_long hn), hskip,
    bind_of_ok (setReg_long named_regUSP),
    bind_of_ok (hpop ((t.withReg regPC (t.reg regPC + 2)).withReg regUSP fp) rfl
      (CPUState.reg_withReg_self named_regUSP)), setReg_long hn]
  exact ⟨_, rfl, CPUState.reg_withReg_self hn, by
    rw [CPUState.reg_withReg_of_ne hn named_regUSP hsp, CPUState.reg_withReg_self named_regUSP]⟩

/-- The frame of a `LINK` and the `UNLK` that ends it, in any state in which the frame
pointer still points at it. -/
theorem unlk_restores_link (hreg : 8 ≤ addrReg ∧ addrReg < 15)
    (s t t' : CPUState BaseMemory) (u : Unit)
    (h : Link.execute addrReg s = .ok u t) (hkept : FrameKept addrReg t t') :
    (t.reg addrReg = s.reg regUSP - 4 ∧ t.memory.read (t.reg addrReg) .long = s.reg addrReg ∧
      t.reg regUSP = t.reg addrReg + castInt16 s.linkDisplacement) ∧
    ∃ u, Unlk.execute addrReg t' = .ok () u ∧ u.reg addrReg = s.reg addrReg ∧
    u.reg regUSP = s.reg regUSP := by
  obtain ⟨hholds, hlocals⟩ := link_eq_ok hreg h
  refine ⟨⟨hholds.pointer, by rw [hholds.pointer, hholds.value], hlocals⟩, ?_⟩
  obtain ⟨u, hu, hfp, hsp⟩ := unlk_of_frameHolds hreg (hholds.congr hkept)
  exact ⟨u, hu, hfp, hsp.trans (BitVec.sub_add_cancel _ 4)⟩

/-- `link A1, #-8` and `unlk A1`, with the stack pointer moved in between. -/
theorem unlk_restores_link_A1 :
    ∃ t u, Link.execute 9 (CPUState.simple [0x4E, 0x51, 0xFF, 0xF8]
        fun i => if i = regUSP then 0x100 else if i = 9 then 7 else 0) = .ok () t ∧
      Unlk.execute 9 (t.withReg regUSP 0) = .ok () u ∧ u.reg 9 = 7 ∧ u.reg regUSP = 0x100 := by
  obtain ⟨t, ht⟩ : ∃ t, Link.execute 9 (CPUState.simple [0x4E, 0x51, 0xFF, 0xF8]
      fun i => if i = regUSP then 0x100 else if i = 9 then 7 else 0) = .ok () t := ⟨_, rfl⟩
  have hkept : FrameKept 9 t (t.withReg regUSP 0) := by
    refine ⟨?_, CPUState.reg_withReg_of_ne named_regUSP (by decide) (by decide), rfl,
      fun _ _ => rfl⟩
    exact Registers.supervisor_put_of_ne (Registers.bank_ne_regSR named_regUSP)
  obtain ⟨-, u, hu, hfp, hsp⟩ := unlk_restores_link (by decide) _ t _ () ht hkept
  exact ⟨t, u, ht, hu, hfp, hsp⟩

end M68kEmu
