import M68kEmu.Program.Guest

/-!
# Rules for the instructions on long words

One rule for each operand access (`does_getData_displacement`, …) and for each class (`does_move`,
…), in terms of guest states.  The opcode and the extension words are read from the memory:
`CodeWord` is one word of a program, `Loaded` a whole text.
-/

namespace M68kEmu

open ConditionCodes Outcome Refine

/-! ### The text of a program -/

/-- The word at the program counter `n`. -/
structure CodeWord (mem : BaseMemory) (n : ℕ) (w : BitVec 16) : Prop where
  even : n % 2 = 0
  below : n < 2 ^ 24
  inside : n + 2 ≤ mem.memSize.toNat
  word : readRealMem mem.baseAddr n .word = w.setWidth 32

/-- The words stand in the text from its word `k` on. -/
def StandsAt (words : List (BitVec 16)) (text : List (BitVec 16)) (k : ℕ) : Prop :=
  words <+: text.drop k

instance (words text : List (BitVec 16)) (k : ℕ) : Decidable (StandsAt words text k) :=
  inferInstanceAs (Decidable (_ <+: _))

theorem StandsAt.word {words text : List (BitVec 16)} {k : ℕ} (h : StandsAt words text k) (x : ℕ)
    {w : BitVec 16} (hw : words[x]? = some w) : text[k + x]? = some w := by
  obtain ⟨rest, hrest⟩ := h
  have hlt : x < words.length := (List.getElem?_eq_some_iff.1 hw).1
  rw [← List.getElem?_drop, ← hrest, List.getElem?_append_left hlt, hw]

/-- The words of a text, from the address `base` on. -/
structure Loaded (mem : BaseMemory) (base : ℕ) (text : List (BitVec 16)) : Prop where
  even : base % 2 = 0
  below : base + 2 * text.length ≤ 2 ^ 24
  inside : base + 2 * text.length ≤ mem.memSize.toNat
  words : ∀ i w, text[i]? = some w → readRealMem mem.baseAddr (base + 2 * i) .word = w.setWidth 32

/-- The byte at an offset in a text. -/
def textByte (text : List (BitVec 16)) (i : ℕ) : BitVec 8 :=
  let w := text.getD (i / 2) 0
  if i % 2 = 0 then (w >>> 8).setWidth 8 else w.setWidth 8

/-- A word of a memory, from its two bytes. -/
theorem readRealMem_word_of_bytes {bytes : ℕ → BitVec 8} {n : ℕ} {w : BitVec 16}
    (hhigh : bytes n = (w >>> 8).setWidth 8)
    (hlow : bytes (n + 1) = w.setWidth 8) : readRealMem bytes n .word = w.setWidth 32 := by
  refine BitVec.eq_of_toNat_eq ?_
  have hw := w.isLt
  rw [toNat_readRealMem]
  simp only [hhigh, hlow, BitVec.toNat_setWidth, BitVec.toNat_ushiftRight,
    Nat.shiftRight_eq_div_pow]
  omega

/-- A long word of a memory, from its two words. -/
theorem readRealMem_long (bytes : ℕ → BitVec 8) (n : ℕ) :
    readRealMem bytes n .long = readRealMem bytes n .word <<< 16 |||
    readRealMem bytes (n + 2) .word := by
  simp only [readRealMem, BitVec.shiftLeft_or_distrib, ← BitVec.shiftLeft_add, BitVec.or_assoc]

namespace Loaded

variable {mem mem' : BaseMemory} {base : ℕ} {text : List (BitVec 16)}

theorem codeWord (h : Loaded mem base text) (i : ℕ) {w : BitVec 16} (hw : text[i]? = some w) :
    CodeWord mem (base + 2 * i) w := by
  have hlt : i < text.length := (List.getElem?_eq_some_iff.1 hw).1
  have heven := h.even
  have hbelow := h.below
  have hinside := h.inside
  exact ⟨by omega, by omega, by omega, h.words i w hw⟩

/-- The text stays where it is when no byte of it changes. -/
theorem congr (h : Loaded mem base text) (hsize : mem'.memSize = mem.memSize)
    (hbytes : ∀ i, base ≤ i → i < base + 2 * text.length → mem'.baseAddr i = mem.baseAddr i) :
    Loaded mem' base text where
  even := h.even
  below := h.below
  inside := by rw [hsize]; exact h.inside
  words i w hw := by
    have hlt : i < text.length := (List.getElem?_eq_some_iff.1 hw).1
    refine (readRealMem_congr fun k hk hk' => hbytes k ?_ ?_).trans (h.words i w hw)
    · omega
    · simp only [DataSize.bytes] at hk'
      omega

/-- A text is in memory when its bytes are. -/
theorem of_bytes (heven : base % 2 = 0) (hbelow : base + 2 * text.length ≤ 2 ^ 24)
    (hinside : base + 2 * text.length ≤ mem.memSize.toNat)
    (hbytes : ∀ i < 2 * text.length, mem.baseAddr (base + i) = textByte text i) :
    Loaded mem base text where
  even := heven
  below := hbelow
  inside := hinside
  words i w hw := by
    obtain ⟨hlt, hget⟩ := List.getElem?_eq_some_iff.1 hw
    have hgetD (k : ℕ) (hk : k / 2 = i) : text.getD (k / 2) 0 = w := by
      rw [hk, List.getD_eq_getElem?_getD, hw, Option.getD_some]
    refine readRealMem_word_of_bytes ?_ ?_
    · rw [hbytes (2 * i) (by omega), textByte, hgetD _ (by omega), if_pos (by omega)]
    · rw [Nat.add_assoc, hbytes (2 * i + 1) (by omega), textByte, hgetD _ (by omega),
        if_neg (by omega)]

/-- The first part of a text. -/
theorem left {text' : List (BitVec 16)} (h : Loaded mem base (text ++ text')) :
    Loaded mem base text where
  even := h.even
  below := by
    have := h.below
    rw [List.length_append] at this
    omega
  inside := by
    have := h.inside
    rw [List.length_append] at this
    omega
  words i w hw := by
    have hlt : i < text.length := (List.getElem?_eq_some_iff.1 hw).1
    exact h.words i w (by rw [List.getElem?_append_left hlt, hw])

/-- The last part of a text. -/
theorem right {text' : List (BitVec 16)} (h : Loaded mem base (text' ++ text)) :
    Loaded mem (base + 2 * text'.length) text where
  even := by
    have := h.even
    omega
  below := by
    have := h.below
    rw [List.length_append] at this
    omega
  inside := by
    have := h.inside
    rw [List.length_append] at this
    omega
  words i w hw := by
    rw [show base + 2 * text'.length + 2 * i = base + 2 * (text'.length + i) by omega]
    refine h.words (text'.length + i) w ?_
    rw [List.getElem?_append_right (by omega), Nat.add_sub_cancel_left, hw]

theorem putLong (h : Loaded mem base text) {a : ℕ} {v : BitVec 32}
    (hout : a + 4 ≤ base ∨ base + 2 * text.length ≤ a) : Loaded (mem.putLong a v) base text :=
  h.congr rfl fun _ _ _ => BaseMemory.baseAddr_putLong (by omega)

end Loaded

section Rules

variable {g g₁ g₂ : Guest} {reg : ℕ} {w : BitVec 16} {v d : BitVec 32} {a : ℕ}

/-- A word of the text is fetched. -/
theorem does_memGet_code {n : ℕ} (h : CodeWord g.memory n w) :
    Does (memGet (BitVec.ofNat 32 n) .word) g (w.setWidth 32) g := by
  have hmask : maskAddr (BitVec.ofNat 32 n).toNat = n := points_ofNat h.below
  have hread : g.memory.read (BitVec.ofNat 32 n) .word = w.setWidth 32 := by
    rw [BaseMemory.read, hmask, h.word]
  rw [← hread]
  refine does_memGet ⟨.inr ?_, ?_⟩ <;> rw [hmask]
  · exact h.even
  · exact h.inside

/-- A long word of the text is fetched. -/
theorem does_memGet_code_long {n : ℕ} {hi lo : BitVec 16} (hhi : CodeWord g.memory n hi)
    (hlo : CodeWord g.memory (n + 2) lo) :
    Does (memGet (BitVec.ofNat 32 n) .long) g (hi.setWidth 32 <<< 16 ||| lo.setWidth 32) g := by
  have hmask : maskAddr (BitVec.ofNat 32 n).toNat = n := points_ofNat hhi.below
  have hread : g.memory.read (BitVec.ofNat 32 n) .long = hi.setWidth 32 <<< 16 |||
      lo.setWidth 32 := by
    rw [BaseMemory.read, hmask, readRealMem_long, hhi.word, hlo.word]
  rw [← hread]
  refine does_memGet ⟨.inr ?_, ?_⟩ <;> rw [hmask]
  · exact hhi.even
  · exact hlo.inside

theorem ofNat_add_ofNat (m n : ℕ) :
    BitVec.ofNat 32 m + BitVec.ofNat 32 n = BitVec.ofNat 32 (m + n) :=
  (BitVec.ofNat_add m n).symm

theorem does_skipOpcode : Does skipOpcode g () (g.goto (g.pc + 2)) :=
  does_getPC.bind (does_setPC (ofNat_add_ofNat g.pc 2))

theorem does_readSize {dataSize : Option DataSize} {size : DataSize} (h : dataSize = some size) :
    Does (readSize dataSize) g size g := by
  subst h
  exact Turns.pure size g

/-! ### Operands -/

theorem does_getData_data (h : reg < 16) :
    Does (CPUState.getData .directData reg .long) g (g.reg reg) g := does_getReg h

theorem does_getData_indirect (h : reg < 16) (ha : Points (g.reg reg) a) (hroom : g.memory.Room a) :
    Does (CPUState.getData .indirect reg .long) g (g.memory.long a) g :=
  (does_getReg h).bind (does_memGet_long ha hroom)

theorem does_getData_displacement (h : reg < 16) (hw : CodeWord g.memory g.pc w)
    (ha : Points (g.reg reg + castInt16 (w.setWidth 32)) a) (hroom : g.memory.Room a) :
    Does (CPUState.getData .indirectDisplacement reg .long) g (g.memory.long a)
      (g.goto (g.pc + 2)) :=
  (does_getReg h).bind (does_getPC.bind ((does_memGet_code hw).bind
    ((does_setPC (ofNat_add_ofNat g.pc 2)).bind (does_memGet_long ha hroom))))

theorem does_fetchSource {f : TwoOperand}
    (h : Does (CPUState.getData f.srcMode f.srcReg .long) g v g₁) :
    Does (fetchSource .cpuState f .long) g v g₁ := h

theorem does_getDataSilent_data (h : reg < 16) :
    Does (CPUState.getDataSilent .directData reg .long) g (g.reg reg) g :=
  does_getReg h

theorem does_getDataSilent_addr (h : reg < 16) :
    Does (CPUState.getDataSilent .directAddr reg .long) g (g.reg reg) g :=
  does_getReg h

theorem does_getDataSilent_displacement (h : reg < 16) (hw : CodeWord g.memory g.pc w)
    (ha : Points (g.reg reg + castInt16 (w.setWidth 32)) a) (hroom : g.memory.Room a) :
    Does (CPUState.getDataSilent .indirectDisplacement reg .long) g (g.memory.long a) g :=
  (does_getReg h).bind (does_getPC.bind ((does_memGet_code hw).bind (does_memGet_long ha hroom)))

theorem does_setData_data (h : reg < 16) :
    Does (CPUState.setData .directData reg .long v) g () (g.withReg reg v) :=
  does_setReg h

theorem does_setData_addr (h : reg < 16) :
    Does (CPUState.setData .directAddr reg .long v) g () (g.withReg reg v) :=
  does_setReg h

theorem does_setData_indirect (h : reg < 16) (ha : Points (g.reg reg) a) (hroom : g.memory.Room a) :
    Does (CPUState.setData .indirect reg .long v) g () (g.putLong a v) :=
  (does_getReg h).bind (does_memSet_long ha hroom)

theorem does_setData_predecrement (h : reg < 16) (ha : Points (g.reg reg - 4) a)
    (hroom : g.memory.Room a) :
    Does (CPUState.setData .indirectPredecrement reg .long v) g ()
      ((g.putLong a v).withReg reg (g.reg reg - 4)) := by
  have hdec : decremented reg .long (g.reg reg) = g.reg reg - 4 := if_neg fun h => h.2 rfl
  refine (does_getReg h).bind ?_
  rw [hdec]
  exact (does_memSet_long ha hroom).bind (does_setReg h)

theorem does_setData_displacement (h : reg < 16) (hw : CodeWord g.memory g.pc w)
    (ha : Points (g.reg reg + castInt16 (w.setWidth 32)) a) (hroom : g.memory.Room a) :
    Does (CPUState.setData .indirectDisplacement reg .long v) g ()
      ((g.goto (g.pc + 2)).putLong a v) :=
  (does_getReg h).bind (does_getPC.bind ((does_memGet_code hw).bind
    ((does_setPC (ofNat_add_ofNat g.pc 2)).bind (does_memSet_long ha hroom))))

theorem does_getControlAddress_pcDisplacement {target : ℕ} (hw : CodeWord g.memory g.pc w)
    (htarget : BitVec.ofNat 32 g.pc + castInt16 (w.setWidth 32) = BitVec.ofNat 32 target) :
    Does (CPUState.getControlAddress .pcDisplacement reg .long) g (BitVec.ofNat 32 target)
      (g.goto (g.pc + 2)) := by
  rw [← htarget]
  exact does_getPC.bind
    ((does_memGet_code hw).bind ((does_setPC (ofNat_add_ofNat g.pc 2)).bind (Turns.pure _ _)))

theorem does_setData_absLong {hi lo : BitVec 16} (hhi : CodeWord g.memory g.pc hi)
    (hlo : CodeWord g.memory (g.pc + 2) lo)
    (ha : Points (hi.setWidth 32 <<< 16 ||| lo.setWidth 32) a) (hroom : g.memory.Room a) :
    Does (CPUState.setData .absLong reg .long v) g () ((g.goto (g.pc + 4)).putLong a v) :=
  does_getPC.bind ((does_memGet_code_long hhi hlo).bind
    ((does_setPC (ofNat_add_ofNat g.pc 4)).bind (does_memSet_long ha hroom)))

theorem does_getControlAddress_absWord (hw : CodeWord g.memory g.pc w) :
    Does (CPUState.getControlAddress .absWord reg .long) g (w.setWidth 32) (g.goto (g.pc + 2)) :=
  does_getPC.bind ((does_setPC (ofNat_add_ofNat g.pc 2)).bind (does_memGet_code hw))

theorem does_getControlAddress_absLong {hi lo : BitVec 16} (hhi : CodeWord g.memory g.pc hi)
    (hlo : CodeWord g.memory (g.pc + 2) lo) :
    Does (CPUState.getControlAddress .absLong reg .long) g
      (hi.setWidth 32 <<< 16 ||| lo.setWidth 32) (g.goto (g.pc + 4)) :=
  does_getPC.bind ((does_setPC (ofNat_add_ofNat g.pc 4)).bind (does_memGet_code_long hhi hlo))

theorem does_stackPush (ha : Points (g.reg 15 - 4) a) (hroom : g.memory.Room a) :
    Does (CPUState.stackPush .long v) g () ((g.withReg 15 (g.reg 15 - 4)).putLong a v) := by
  have hlt : regUSP < 16 := by decide
  exact (does_getReg hlt).bind ((does_setReg hlt).bind (does_memSet_long ha hroom))

theorem does_stackPop (ha : Points (g.reg 15) a) (hroom : g.memory.Room a) :
    Does (CPUState.stackPop .long) g (g.memory.long a) (g.withReg 15 (g.reg 15 + 4)) := by
  have hlt : regUSP < 16 := by decide
  exact (does_getReg hlt).bind
    ((does_memGet_long ha hroom).bind ((does_setReg hlt).bind (Turns.pure _ _)))

/-! ### Condition codes -/

/-- The codes of a moved long word. -/
def logicCodes (v : BitVec 32) : Codes := ⟨v.msb, decide (v = 0), false, false⟩

/-- The codes of a sum or a difference of long words. -/
def arithmeticCodes (src dest result : BitVec 32) : Codes :=
  ⟨result.msb, decide (result = 0), src.saddOverflow dest, false⟩

theorem isCarry_long (v : BitVec 32) : isCarry (v.setWidth 64) .long = false := by
  rw [isCarry_eq]
  exact decide_eq_false (Nat.not_le.2 v.isLt)

theorem isNegative_long64 (v : BitVec 32) : isNegative (v.setWidth 64) .long = v.msb :=
  (isNegative_eq v .long).trans (congrArg BitVec.msb (BitVec.setWidth_eq v))

theorem isZero_long64 (v : BitVec 32) : isZero (v.setWidth 64) .long = decide (v = 0) := by
  rw [isZero_eq]
  exact congrArg (fun x : BitVec 32 => decide (x = 0)) (BitVec.setWidth_eq v)

theorem isOverflow_long (x y : BitVec 32) : isOverflow x y .long = x.saddOverflow y := by
  rw [isOverflow_eq]
  exact congrArg₂ BitVec.saddOverflow (BitVec.setWidth_eq x) (BitVec.setWidth_eq y)

theorem does_setLogicFlags : Does (setLogicFlags .long v) g () (g.withCodes (logicCodes v)) := by
  unfold setLogicFlags
  rw [isNegative_long, isZero_long]
  exact (does_setFlag (by decide) _).bind
    ((does_setFlag (by decide) _).bind ((does_setFlag (by decide) _).bind
    (does_setFlag (by decide) _)))

theorem does_setResultFlags {src dest result : BitVec 32} :
    Does (setResultFlags .long src dest result) g () (g.withCodes (logicCodes result)) := by
  unfold setResultFlags setLogicFlags
  rw [isNegative_long64, isZero_long64]
  exact (does_setFlag (by decide) _).bind
    ((does_setFlag (by decide) _).bind ((does_setFlag (by decide) _).bind
    (does_setFlag (by decide) _)))

theorem does_setCompareFlags {src dest result : BitVec 32} :
    Does (setCompareFlags .long src dest result) g ()
      (g.withCodes (arithmeticCodes src dest result)) := by
  unfold setCompareFlags
  dsimp only
  rw [isNegative_long64, isZero_long64, isOverflow_long, isCarry_long]
  exact (does_setFlag (by decide) _).bind
    ((does_setFlag (by decide) _).bind ((does_setFlag (by decide) _).bind
    (does_setFlag (by decide) _)))

theorem does_setArithmeticFlags {src dest result : BitVec 32} :
    Does (setArithmeticFlags .long src dest result) g ()
      (g.withCodes (arithmeticCodes src dest result)) := by
  unfold setArithmeticFlags
  dsimp only
  rw [isNegative_long64, isZero_long64, isOverflow_long, isCarry_long]
  exact (does_setFlag (by decide) _).bind
    ((does_setFlag (by decide) _).bind ((does_setFlag (by decide) _).bind
    ((does_setFlag (by decide) _).bind (does_setFlag (by decide) _))))

/-! ### Classes -/

variable {src dest : BitVec 32} {g₃ : Guest} {n : ℕ}

theorem does_move {f : MoveOperand} (hsize : f.dataSize = some .long) (hmovea : f.isMovea = false)
    (hsrc : Does (CPUState.getData f.srcMode f.srcReg .long) (g.goto (g.pc + 2)) v g₁)
    (hdest : Does (CPUState.setData f.destMode f.destReg .long v) g₁ () g₂) :
    Does (Move.execute .cpuState f) g () (g₂.withCodes (logicCodes v)) := by
  have hflags : Does (setLogicFlags .long v) g₂ () (g₂.withCodes (logicCodes v)) :=
    does_setLogicFlags
  unfold setLogicFlags at hflags
  have hzero : isZero v .long = (v == 0) := by rw [isZero_long, beq_eq_decide]
  rw [hzero] at hflags
  refine does_skipOpcode.bind ((does_readSize hsize).bind (hsrc.bind ?_))
  rw [hmovea]
  exact hdest.bind hflags

theorem does_movea {f : MoveOperand} (hsize : f.dataSize = some .long) (hmovea : f.isMovea = true)
    (hsrc : Does (CPUState.getData f.srcMode f.srcReg .long) (g.goto (g.pc + 2)) v g₁)
    (hdest : Does (CPUState.setData f.destMode f.destReg .long v) g₁ () g₂) :
    Does (Move.execute .cpuState f) g () g₂ := by
  refine does_skipOpcode.bind ((does_readSize hsize).bind (hsrc.bind ?_))
  rw [hmovea]
  exact hdest

theorem does_moveq {f : QuickOperand} (hsize : f.dataSize = some .long)
    (hdest : Does (CPUState.setData f.destMode f.destReg .long (f.immData.setWidth 32))
      (g.goto (g.pc + 2)) () g₁) :
      Does (Moveq.execute .cpuState f) g ()
        (g₁.withCodes ⟨isNegative f.immData .long, f.immData == 0, false, false⟩) := by
  refine does_skipOpcode.bind ((does_readSize hsize).bind (hdest.bind ?_))
  exact (does_setFlag (by decide) _).bind
    ((does_setFlag (by decide) _).bind ((does_setFlag (by decide) _).bind
    (does_setFlag (by decide) _)))

theorem does_clr {f : OneOperand} (hsize : f.dataSize = some .long)
    (hdest : Does (CPUState.setData f.destMode f.destReg .long 0) (g.goto (g.pc + 2)) () g₁) :
    Does (Clr.execute .cpuState f) g () (g₁.withCodes (logicCodes 0)) := by
  refine does_skipOpcode.bind ((does_readSize hsize).bind (hdest.bind ?_))
  exact (does_setFlag (by decide) _).bind
    ((does_setFlag (by decide) _).bind ((does_setFlag (by decide) _).bind
    (does_setFlag (by decide) _)))

theorem does_tst {f : OneOperand} (hsize : f.dataSize = some .long)
    (hdest : Does (CPUState.getData f.destMode f.destReg .long) (g.goto (g.pc + 2)) v g₁) :
    Does (Tst.execute .cpuState f) g () (g₁.withCodes (logicCodes v)) :=
  does_skipOpcode.bind ((does_readSize hsize).bind (hdest.bind does_setLogicFlags))

/-- The compare instructions. -/
theorem does_compareWith {fetch : DataSize → CpuM BaseMemory (BitVec 32)} {f : OneOperand}
    (hsize : f.dataSize = some .long) (hsrc : Does (fetch .long) (g.goto (g.pc + 2)) src g₁)
    (hdest : Does (CPUState.getData f.destMode f.destReg .long) g₁ dest g₂) :
    Does (compareWith .cpuState fetch f) g ()
      (g₂.withCodes (arithmeticCodes src dest (dest - src))) :=
  does_skipOpcode.bind ((does_readSize hsize).bind (hsrc.bind (hdest.bind does_setCompareFlags)))

/-- The instructions that read a source, read the destination silently, and write the
destination. -/
theorem does_readModifyWrite {fetch : DataSize → CpuM BaseMemory (BitVec 32)} {f : OneOperand}
    {op : BitVec 32 → BitVec 32 → BitVec 32}
    {flags : DataSize → BitVec 32 → BitVec 32 → BitVec 32 → CpuM BaseMemory Unit}
    (hsize : f.dataSize = some .long) (hsrc : Does (fetch .long) (g.goto (g.pc + 2)) src g₁)
    (hread : Does (CPUState.getDataSilent f.destMode f.destReg .long) g₁ dest g₁)
    (hdest : Does (CPUState.setData f.destMode f.destReg .long (op src dest)) g₁ () g₂)
    (hflags : Does (flags .long src dest (op src dest)) g₂ () g₃) :
    Does (readModifyWrite .cpuState fetch f op flags) g () g₃ :=
  does_skipOpcode.bind ((does_readSize hsize).bind (hsrc.bind (hread.bind (hdest.bind hflags))))

theorem does_adda {f : TwoOperand} (hsize : f.dataSize = some .long)
    (hsrc : Does (CPUState.getData f.srcMode f.srcReg .long) (g.goto (g.pc + 2)) src g₁)
    (hread : Does (CPUState.getDataSilent f.destMode f.destReg .long) g₁ dest g₁)
    (hdest : Does (CPUState.setData f.destMode f.destReg .long (src + dest)) g₁ () g₂) :
    Does (Adda.execute .cpuState f) g () g₂ :=
  does_readModifyWrite hsize (does_fetchSource hsrc) hread hdest (Turns.pure () _)

theorem does_link (hreg : reg < 15) (hw : CodeWord g.memory (g.pc + 2) w)
    (ha : Points (g.reg 15 - 4) a)
    (hroom : g.memory.Room a) (hlocals : g.reg 15 - 4 + castInt16 (w.setWidth 32) = v) :
    Does (Link.execute reg) g ()
      (((((g.goto (g.pc + 4)).withReg 15 (g.reg 15 - 4)).putLong a (g.reg reg)).withReg reg
        (g.reg 15 - 4)).withReg 15 v) := by
  subst hlocals
  have hlt : reg < 16 := by omega
  have hsp : regUSP < 16 := by decide
  have hpc : BitVec.ofNat 32 g.pc + 2 = BitVec.ofNat 32 (g.pc + 2) := ofNat_add_ofNat g.pc 2
  have hend : BitVec.ofNat 32 (g.pc + 2) + 2 = BitVec.ofNat 32 (g.pc + 4) :=
    ofNat_add_ofNat (g.pc + 2) 2
  have hfetch : Does Link.fetchDisplacement g (w.setWidth 32) (g.goto (g.pc + 4)) := by
    refine does_getPC.bind ?_
    rw [hpc]
    exact (does_memGet_code hw).bind ((does_setPC hend).bind (Turns.pure _ _))
  have hpush : Does (CPUState.stackPush .long (g.reg reg)) (g.goto (g.pc + 4)) ()
      (((g.goto (g.pc + 4)).withReg 15 (g.reg 15 - 4)).putLong a (g.reg reg)) :=
      does_stackPush ha hroom
  exact hfetch.bind
    ((does_getReg hlt).bind (hpush.bind ((does_getReg hsp).bind ((does_setReg hlt).bind
    (does_setReg hsp)))))

theorem does_unlk (hreg : reg < 15) (ha : Points (g.reg reg) a) (hroom : g.memory.Room a) :
    Does (Unlk.execute reg) g ()
      ((((g.goto (g.pc + 2)).withReg 15 (g.reg reg)).withReg 15 (g.reg reg + 4)).withReg reg
        (g.memory.long a)) := by
  have hlt : reg < 16 := by omega
  have hsp : regUSP < 16 := by decide
  have hpop :
      Does (CPUState.stackPop .long) ((g.goto (g.pc + 2)).withReg 15 (g.reg reg)) (g.memory.long a)
      (((g.goto (g.pc + 2)).withReg 15 (g.reg reg)).withReg 15 (g.reg reg + 4)) :=
      does_stackPop ha hroom
  exact does_skipOpcode.bind
    ((does_getReg hlt).bind ((does_setReg hsp).bind (hpop.bind (does_setReg hlt))))

theorem does_rts (ha : Points (g.reg 15) a) (hroom : g.memory.Room a) :
    Does Rts.execute g () ((g.withReg 15 (g.reg 15 + 4)).goto (g.memory.long a).toNat) :=
  (does_stackPop ha hroom).bind (does_setPC (by simp))

theorem does_nop : Does Nop.execute g () (g.goto (g.pc + 2)) := does_skipOpcode

theorem does_jsr {f : OneOperand} {target : ℕ} (hsize : f.dataSize = some .long)
    (haddr : Does (CPUState.getControlAddress f.destMode f.destReg .long) (g.goto (g.pc + 2))
      (BitVec.ofNat 32 target) g₁) (ha : Points (g₁.reg 15 - 4) a) (hroom : g₁.memory.Room a) :
    Does (Jsr.execute .cpuState f) g ()
      (((g₁.withReg 15 (g₁.reg 15 - 4)).putLong a (BitVec.ofNat 32 g₁.pc)).goto target) :=
  does_skipOpcode.bind
    ((does_readSize hsize).bind (haddr.bind (does_getPC.bind ((does_stackPush ha hroom).bind
    (does_setPC rfl)))))

theorem does_pea {f : OneOperand} (hsize : f.dataSize = some .long)
    (haddr : Does (CPUState.getControlAddress f.destMode f.destReg .long) (g.goto (g.pc + 2)) v g₁)
    (ha : Points (g₁.reg 15 - 4) a) (hroom : g₁.memory.Room a) :
    Does (Pea.execute .cpuState f) g () ((g₁.withReg 15 (g₁.reg 15 - 4)).putLong a v) :=
  does_skipOpcode.bind ((does_readSize hsize).bind (haddr.bind (does_stackPush ha hroom)))

/-- A conditional branch. -/
theorem does_bcc {f : BccOperand} {cmp : Comparison} {target : ℕ}
    (hcmp : f.condition.comparison = some cmp)
    (hdisp : Does (Bcc.displacement (CPUState.getData .immediate regD0) f)
      (g.goto (g.pc + 2)) d (g.goto n))
    (htarget : BitVec.ofNat 32 (g.pc + 2) + d = BitVec.ofNat 32 target) :
    Does (Bcc.execute .cpuState f) g () (g.goto (if cmp.answer g.codes then target else n)) := by
  have hpc : BitVec.ofNat 32 g.pc + 2 = BitVec.ofNat 32 (g.pc + 2) := ofNat_add_ofNat g.pc 2
  unfold Bcc.execute
  refine does_getPC.bind ?_
  dsimp only
  rw [hpc]
  refine (does_setPC rfl).bind (hdisp.bind ?_)
  have hcheck :
      Does (CPUState.checkCondition f.condition) (g.goto n) (cmp.answer g.codes) (g.goto n) :=
    does_checkCondition hcmp
  have hbranch : Does (do
      let condResult ← CPUState.checkCondition f.condition
      if condResult then
        setReg regPC .long (BitVec.ofNat 32 (g.pc + 2) + d)) (g.goto n) ()
      (g.goto (if cmp.answer g.codes then target else n)) := by
    refine hcheck.bind (Turns.ite (fun h => ?_) fun h => ?_)
    · rw [if_pos h]
      exact does_setPC htarget
    · rw [if_neg h]
      exact Turns.pure () _
  rcases hcond : f.condition <;> rw [hcond] at hbranch hcmp <;> first | exact hbranch | cases hcmp

/-- `BRA`. -/
theorem does_bra {f : BccOperand} {target : ℕ} (hcond : f.condition = .true)
    (hdisp : Does (Bcc.displacement (CPUState.getData .immediate regD0) f)
      (g.goto (g.pc + 2)) d (g.goto n))
    (htarget : BitVec.ofNat 32 (g.pc + 2) + d = BitVec.ofNat 32 target) :
    Does (Bcc.execute .cpuState f) g () (g.goto target) := by
  have hpc : BitVec.ofNat 32 g.pc + 2 = BitVec.ofNat 32 (g.pc + 2) := ofNat_add_ofNat g.pc 2
  unfold Bcc.execute
  refine does_getPC.bind ?_
  dsimp only
  rw [hpc, hcond]
  exact (does_setPC rfl).bind (hdisp.bind (does_setPC htarget))

/-- A displacement in the opcode, and one in the next word. -/
theorem does_displacement_byte {f : BccOperand} (h : f.dataSize = .byte) :
    Does (Bcc.displacement (CPUState.getData .immediate regD0) f) (g.goto n)
      (castInt8 (f.displacement8.setWidth 32)) (g.goto n) := by
  unfold Bcc.displacement
  rw [h]
  exact Turns.pure _ _

theorem does_displacement_word {f : BccOperand} (h : f.dataSize = .word)
    (hw : CodeWord g.memory n w) :
    Does (Bcc.displacement (CPUState.getData .immediate regD0) f) (g.goto n)
      (castInt16 (w.setWidth 32)) (g.goto (n + 2)) := by
  unfold Bcc.displacement
  rw [h]
  have hfetch : Does (memGet (BitVec.ofNat 32 n) .word) (g.goto n) (w.setWidth 32) (g.goto n) :=
    does_memGet_code hw
  have hskip : Does (setReg regPC .long (BitVec.ofNat 32 n + 2)) (g.goto n) () (g.goto (n + 2)) :=
    does_setPC (ofNat_add_ofNat n 2)
  have himmediate :
      Does (CPUState.getData .immediate regD0 .word) (g.goto n) (w.setWidth 32) (g.goto (n + 2)) :=
    does_getPC.bind (hfetch.bind (hskip.bind (Turns.pure _ _)))
  exact himmediate.bind (Turns.pure _ _)

/-! ### One step -/

/-- One step of the CPU on the instruction at the program counter. -/
theorem does_step {opcode : BitVec 16} {object : Derived} (hword : CodeWord g.memory g.pc opcode)
    (hdecode : (decode opcode).derived = object) (h : Does (object.execute .cpuState) g () g₁) :
    Does step g () g₁ := by
  have hlow : (opcode.setWidth 32).setWidth 16 = opcode :=
    BitVec.setWidth_setWidth_of_le _ (by decide)
  have hfetch : Does fetchOpcode g opcode g := by
    refine does_getPC.bind ((does_memGet_code hword).bind ?_)
    rw [hlow]
    exact Turns.pure _ _
  exact hfetch.bind (hdecode ▸ h)

end Rules

/-! ### Runs up to an address -/

/-- A run of `while (pc != stop) cpu.step();` in terms of guest states. -/
abbrev Leads (stop : BitVec 32) : Guest → Guest → Prop :=
  Path Shows step fun g => BitVec.ofNat 32 g.pc = stop

section Leads

variable {stop : BitVec 32} {base i : ℕ} {text : List (BitVec 16)} {g g₁ g₂ : Guest}
    {opcode : BitVec 16} {object : Derived}

/-- The address lies outside the text. -/
def Beyond (stop : BitVec 32) (base : ℕ) (text : List (BitVec 16)) : Prop :=
  stop.toNat < base ∨ base + 2 * text.length ≤ stop.toNat

/-- One more instruction at the end of a run. -/
theorem Leads.next (hrun : Leads stop g g₁) (hstop : Beyond stop base text)
    (htext : Loaded g₁.memory base text) (hpc : g₁.pc = base + 2 * i)
    (hword : text[i]? = some opcode) (hdecode : (decode opcode).derived = object)
    (h : Does (object.execute .cpuState) g₁ () g₂) : Leads stop g g₂ := by
  have hlt : i < text.length := (List.getElem?_eq_some_iff.1 hword).1
  have hbelow := htext.below
  have hne : BitVec.ofNat 32 g₁.pc ≠ stop := by
    rintro rfl
    rw [Beyond, hpc, BitVec.toNat_ofNat, Nat.mod_eq_of_lt (by omega)] at hstop
    omega
  exact hrun.tail ⟨hne, does_step (hpc ▸ htext.codeWord i hword) hdecode h⟩

/-- A conditional branch with the displacement in the opcode. -/
theorem Leads.branch (hrun : Leads stop g g₁) (hstop : Beyond stop base text)
    (htext : Loaded g₁.memory base text)
    (hpc : g₁.pc = base + 2 * i) (hword : text[i]? = some opcode) {f : BccOperand}
    (hdecode : (decode opcode).derived = .bcc f) {cmp : Comparison}
    (hcmp : f.condition.comparison = some cmp) (hsize : f.dataSize = .byte) {d : ℤ}
    (hd : (castInt8 (f.displacement8.setWidth 32)).toInt = d) {target n : ℕ}
    (htarget : ((base + 2 * i + 2 : ℕ) : ℤ) + d = target)
    (hn : (if cmp.answer g₁.codes then target else base + 2 * i + 2) = n) :
    Leads stop g (g₁.goto n) := by
  subst hn
  rw [← hpc] at htarget ⊢
  exact hrun.next hstop htext hpc hword hdecode
    (does_bcc hcmp (does_displacement_byte hsize) (ofNat_add_of_toInt (by rw [hd]; exact htarget)))

/-- A conditional branch with the displacement in the next word. -/
theorem Leads.branchWord (hrun : Leads stop g g₁) (hstop : Beyond stop base text)
    (htext : Loaded g₁.memory base text)
    (hpc : g₁.pc = base + 2 * i) (hword : text[i]? = some opcode) {f : BccOperand}
    (hdecode : (decode opcode).derived = .bcc f) {cmp : Comparison}
    (hcmp : f.condition.comparison = some cmp)
    (hsize : f.dataSize = .word) {w : BitVec 16} (hoff : text[i + 1]? = some w) {d : ℤ}
    (hd : (castInt16 (w.setWidth 32)).toInt = d) {target n : ℕ}
    (htarget : ((base + 2 * i + 2 : ℕ) : ℤ) + d = target)
    (hn : (if cmp.answer g₁.codes then target else base + 2 * i + 4) = n) :
    Leads stop g (g₁.goto n) := by
  subst hn
  have hwHere : CodeWord g₁.memory (g₁.pc + 2) w := by
    rw [hpc]
    exact htext.codeWord (i + 1) hoff
  rw [← hpc] at htarget ⊢
  exact hrun.next hstop htext hpc hword hdecode
    (does_bcc hcmp (does_displacement_word hsize hwHere)
      (ofNat_add_of_toInt (by rw [hd]; exact htarget)))

/-- `BRA` with the displacement in the next word. -/
theorem Leads.alwaysWord (hrun : Leads stop g g₁) (hstop : Beyond stop base text)
    (htext : Loaded g₁.memory base text)
    (hpc : g₁.pc = base + 2 * i) (hword : text[i]? = some opcode) {f : BccOperand}
    (hdecode : (decode opcode).derived = .bcc f) (hcond : f.condition = .true)
    (hsize : f.dataSize = .word) {w : BitVec 16} (hoff : text[i + 1]? = some w) {d : ℤ}
    (hd : (castInt16 (w.setWidth 32)).toInt = d) {target : ℕ}
    (htarget : ((base + 2 * i + 2 : ℕ) : ℤ) + d = target) : Leads stop g (g₁.goto target) := by
  have hwHere : CodeWord g₁.memory (g₁.pc + 2) w := by
    rw [hpc]
    exact htext.codeWord (i + 1) hoff
  rw [← hpc] at htarget
  exact hrun.next hstop htext hpc hword hdecode
    (does_bra hcond (does_displacement_word hsize hwHere)
      (ofNat_add_of_toInt (by rw [hd]; exact htarget)))

/-- `BRA` with the displacement in the opcode. -/
theorem Leads.always (hrun : Leads stop g g₁) (hstop : Beyond stop base text)
    (htext : Loaded g₁.memory base text)
    (hpc : g₁.pc = base + 2 * i) (hword : text[i]? = some opcode) {f : BccOperand}
    (hdecode : (decode opcode).derived = .bcc f) (hcond : f.condition = .true)
    (hsize : f.dataSize = .byte) {d : ℤ}
    (hd : (castInt8 (f.displacement8.setWidth 32)).toInt = d) {target : ℕ}
    (htarget : ((base + 2 * i + 2 : ℕ) : ℤ) + d = target) : Leads stop g (g₁.goto target) := by
  rw [← hpc] at htarget
  exact hrun.next hstop htext hpc hword hdecode
    (does_bra hcond (does_displacement_byte hsize) (ofNat_add_of_toInt (by rw [hd]; exact htarget)))

/-- `JSR` with a displacement from the program counter. -/
theorem Leads.call (hrun : Leads stop g g₁) (hstop : Beyond stop base text)
    (htext : Loaded g₁.memory base text)
    (hpc : g₁.pc = base + 2 * i) (hword : text[i]? = some opcode) {reg : ℕ}
    (hdecode : (decode opcode).derived =
      .jsr { destMode := .pcDisplacement, destReg := reg, dataSize := some .long })
    {w : BitVec 16} (hoff : text[i + 1]? = some w) {d : ℤ}
    (hd : (castInt16 (w.setWidth 32)).toInt = d) {target a : ℕ}
    (htarget : ((base + 2 * i + 2 : ℕ) : ℤ) + d = target) (ha : Points (g₁.reg 15 - 4) a)
    (hroom : g₁.memory.Room a) : Leads stop g
      (((g₁.withReg 15 (g₁.reg 15 - 4)).putLong a (BitVec.ofNat 32 (base + 2 * (i + 2)))).goto
        target) := by
  have hwHere : CodeWord g₁.memory (g₁.pc + 2) w := by
    rw [hpc]
    exact htext.codeWord (i + 1) hoff
  have hend : base + 2 * (i + 2) = g₁.pc + 2 + 2 := by omega
  rw [← hpc] at htarget
  have haddr : Does (CPUState.getControlAddress .pcDisplacement reg .long) (g₁.goto (g₁.pc + 2))
      (BitVec.ofNat 32 target) (g₁.goto (g₁.pc + 2 + 2)) :=
    does_getControlAddress_pcDisplacement hwHere (ofNat_add_of_toInt (by rw [hd]; exact htarget))
  have hjsr :=
    does_jsr (f := { destMode := .pcDisplacement, destReg := reg, dataSize := some .long }) rfl
      haddr ha hroom
  rw [hend]
  exact hrun.next hstop htext hpc hword hdecode hjsr

/-- `JSR` to an absolute address. -/
theorem Leads.callLong (hrun : Leads stop g g₁) (hstop : Beyond stop base text)
    (htext : Loaded g₁.memory base text)
    (hpc : g₁.pc = base + 2 * i) (hword : text[i]? = some opcode) {reg : ℕ}
    (hdecode : (decode opcode).derived =
      .jsr { destMode := .absLong, destReg := reg, dataSize := some .long })
    {hi lo : BitVec 16} (hhi : text[i + 1]? = some hi) (hlo : text[i + 2]? = some lo) {target a : ℕ}
    (htarget : hi.setWidth 32 <<< 16 ||| lo.setWidth 32 = BitVec.ofNat 32 target)
    (ha : Points (g₁.reg 15 - 4) a) (hroom : g₁.memory.Room a) :
    Leads stop g
      (((g₁.withReg 15 (g₁.reg 15 - 4)).putLong a (BitVec.ofNat 32 (base + 2 * (i + 3)))).goto
        target) := by
  have hhiHere : CodeWord g₁.memory (g₁.pc + 2) hi := by
    rw [hpc]
    exact htext.codeWord (i + 1) hhi
  have hloHere : CodeWord g₁.memory (g₁.pc + 2 + 2) lo := by
    rw [hpc]
    exact htext.codeWord (i + 2) hlo
  have hend : base + 2 * (i + 3) = g₁.pc + 2 + 4 := by omega
  have haddr :
      Does (CPUState.getControlAddress .absLong reg .long) (g₁.goto (g₁.pc + 2))
      (BitVec.ofNat 32 target) (g₁.goto (g₁.pc + 2 + 4)) := by
    rw [← htarget]
    exact does_getControlAddress_absLong hhiHere hloHere
  have hjsr :=
    does_jsr (f := { destMode := .absLong, destReg := reg, dataSize := some .long }) rfl
      haddr ha hroom
  rw [hend]
  exact hrun.next hstop htext hpc hword hdecode hjsr

theorem Guest.goto_self {n : ℕ} (h : g.pc = n) : g.goto n = g := by
  subst h
  rfl

/-- A run of guest states is a run of the loop. -/
theorem Leads.run (h : Leads stop g g₁) {s : CPUState BaseMemory} (hs : Shows s g) :
    ∃ t, Run step (fun s => s.reg regPC = stop) s t ∧ Shows t g₁ :=
  Path.run (fun _ _ hshows hpc => hshows.pc.symm.trans hpc) h hs

/-- A call that starts at `base` and leads to its return address. -/
theorem Leads.returns {s : CPUState BaseMemory} (hpc : s.reg regPC = BitVec.ofNat 32 base)
    (h : Leads stop (s.guest.goto base) g) (hend : g.pc = stop.toNat) :
    ∃ t, Run step (fun u => u.reg regPC = stop) s t ∧ t.reg regPC = stop ∧ Shows t g := by
  obtain ⟨t, hrun, ht⟩ := h.run ⟨hpc, fun _ _ => rfl, rfl, rfl⟩
  refine ⟨t, hrun, ?_, ht⟩
  rw [ht.pc, hend, BitVec.ofNat_toNat, BitVec.setWidth_eq]

/-- Two runs in a row. -/
theorem Leads.andThen {n : ℕ} (h : Leads stop g g₁) (hpc : g₁.pc = n)
    (hrest : Leads stop (g₁.goto n) g₂) : Leads stop g g₂ := by
  rw [Guest.goto_self hpc] at hrest
  exact h.trans hrest

end Leads

end M68kEmu
