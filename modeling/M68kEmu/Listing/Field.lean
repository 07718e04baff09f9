import M68kEmu.Lib.Text
import M68kEmu.Model.Instruction

/-!
# The fields of a listing

A listing prints a name and then some fields: operands, immediates of the opcode word, the target of
a branch, the count of a shift.  `Field` is what the text of a field shows, and nothing else: the
text determines it (`Field.text_inj`), and the separator of the fields does not occur in it
(`Field.unbroken_text`).
-/

namespace M68kEmu

open Text Disassembler

/-- What the text of a field shows.  Operands relative to the program counter have
`regPC` as their register. -/
inductive Field where
  | register (r : ℕ)
  | indirect (r : ℕ)
  | postincrement (r : ℕ)
  | predecrement (r : ℕ)
  | displacement (offset r : ℕ)
  | index (offset r ext : ℕ)
  | absWord (addr : ℕ)
  | absLong (addr : ℕ)
  | immediate (value : ℕ)
  | unknown
  /-- the target of a branch, or the displacement of `LINK` -/
  | target (value : ℕ)
  /-- the count of a shift, which is printed as a character -/
  | count (value : ℕ)
  | countRegister (r : ℕ)
  deriving DecidableEq, Repr

namespace Field

/-- The text of the field. -/
def text : Field → String
  | .register r => reg r
  | .indirect r => "(" ++ reg r ++ ")"
  | .postincrement r => "(" ++ reg r ++ ")+"
  | .predecrement r => "-(" ++ reg r ++ ")"
  | .displacement offset r => "($" ++ hexText offset ++ "," ++ reg r ++ ")"
  | .index offset r ext => "($" ++ hexText offset ++ "," ++ reg r ++ "," ++ reg ext ++ ")"
  | .absWord addr => "($" ++ hexText addr ++ ").w"
  | .absLong addr => "($" ++ hexText addr ++ ").l"
  | .immediate value => "#$" ++ hexText value
  | .unknown => "addreass mode unknown"
  | .target value => "$" ++ hexText value
  | .count value => " #$" ++ String.singleton (Char.ofNat value)
  | .countRegister r => " " ++ reg r

/-- The registers that have a name of their own. -/
def Printable (r : ℕ) : Prop := r < 18 ∧ r ≠ 16

/-- The registers have names, and the counts are those of the opcode word. -/
def Valid : Field → Prop
  | .register r | .indirect r | .postincrement r | .predecrement r | .displacement _ r
  | .countRegister r => Printable r
  | .index _ r ext => Printable r ∧ Printable ext
  | .count value => 1 ≤ value ∧ value ≤ 8
  | _ => True

/-! ### Registers and numbers -/

theorem reg_inj {r q : ℕ} (hr : Printable r) (hq : Printable q) (h : reg r = reg q) : r = q := by
  have hall : ∀ r < 18, ∀ q < 18, r ≠ 16 → q ≠ 16 → reg r = reg q → r = q := by decide
  exact hall r hr.1 q hq.1 hr.2 hq.2 h

theorem length_reg {r : ℕ} (h : Printable r) : (reg r).toList.length = 2 := by
  have hall : ∀ r < 18, r ≠ 16 → (reg r).toList.length = 2 := by decide
  exact hall r h.1 h.2

theorem marks_reg {r : ℕ} (h : Printable r) : marks (reg r).toList = [] := by
  have hall : ∀ r < 18, r ≠ 16 → marks (reg r).toList = [] := by decide
  exact hall r h.1 h.2

theorem toList_hexText (n : ℕ) : (hexText n).toList = Nat.toDigits 16 n := by simp [hexText]

/-- The names of two registers before two texts. -/
theorem reg_append_inj {r q : ℕ} {l l' : List Char} (hr : Printable r) (hq : Printable q)
    (h : (reg r).toList ++ l = (reg q).toList ++ l') : r = q ∧ l = l' := by
  obtain ⟨hreg, hrest⟩ := List.append_inj h ((length_reg hr).trans (length_reg hq).symm)
  exact ⟨reg_inj hr hq (String.toList_inj.1 hreg), hrest⟩

/-- Two numbers before marks. -/
theorem hexText_append_inj {m n : ℕ} {c c' : Char} {l l' : List Char} (hc : c.isAlphanum = false)
    (hc' : c'.isAlphanum = false)
    (h : (hexText m).toList ++ c :: l = (hexText n).toList ++ c' :: l') :
    m = n ∧ c :: l = c' :: l' := by
  rw [toList_hexText, toList_hexText] at h
  obtain ⟨hdigits, hrest⟩ :=
    append_inj_of_all (p := Char.isAlphanum) (fun _ => isAlphanum_of_mem_toDigits)
    (fun _ => isAlphanum_of_mem_toDigits) (by simpa using hc) (by simpa using hc') h
  exact ⟨toDigits_inj hdigits, hrest⟩

theorem hexText_inj {m n : ℕ} (h : (hexText m).toList = (hexText n).toList) : m = n := by
  rw [toList_hexText, toList_hexText] at h
  exact toDigits_inj h

/-! ### The text determines the field -/

/-- The marks in the text of a field. -/
def frame : Field → List Char
  | .register _ => []
  | .indirect _ => ['(', ')']
  | .postincrement _ => ['(', ')', '+']
  | .predecrement _ => ['-', '(', ')']
  | .displacement _ _ => ['(', '$', ',', ')']
  | .index _ _ _ => ['(', '$', ',', ',', ')']
  | .absWord _ | .absLong _ => ['(', '$', ')', '.']
  | .immediate _ => ['#', '$']
  | .unknown => [' ', ' ']
  | .target _ => ['$']
  | .count value => [' ', '#', '$', Char.ofNat value]
  | .countRegister _ => [' ']

theorem marks_text {f : Field} (h : f.Valid) : marks f.text.toList = f.frame := by
  cases f with
  | count value =>
    obtain ⟨hlow, hhigh⟩ := h
    have hall :
        ∀ n < 9, 1 ≤ n → marks (Field.count n).text.toList = (Field.count n).frame := by decide
    exact hall value (by omega) hlow
  | register r | indirect r | postincrement r | predecrement r | countRegister r =>
    have hr : Printable r := h
    simp [text, frame, marks_reg hr]
  | displacement offset r =>
    have hr : Printable r := h
    simp [text, frame, marks_reg hr, toList_hexText]
  | index offset r ext => simp [text, frame, marks_reg h.1, marks_reg h.2, toList_hexText]
  | absWord n | absLong n | immediate n | target n => simp [text, frame, toList_hexText]
  | unknown => decide

/-- The field is known from its text. -/
theorem text_inj {f g : Field} (hf : f.Valid) (hg : g.Valid) (h : f.text = g.text) : f = g := by
  have hframe : f.frame = g.frame := by rw [← marks_text hf, ← marks_text hg, h]
  have hlist : f.text.toList = g.text.toList := by rw [h]
  -- fields of different shapes have different marks
  cases f <;> cases g <;> simp [frame] at hframe <;> simp [text] at hlist
  case unknown.unknown => rfl
  case register.register r q | indirect.indirect r q | postincrement.postincrement r
    q | predecrement.predecrement r q
      | countRegister.countRegister r q =>
    rw [reg_inj hf hg (String.toList_inj.1 hlist)]
  case displacement.displacement m r n q =>
    obtain ⟨rfl, hrest⟩ := hexText_append_inj (by decide) (by decide) hlist
    obtain ⟨rfl, -⟩ := reg_append_inj hf hg (List.cons_injective hrest)
    rfl
  case index.index m r x n q y =>
    obtain ⟨rfl, hrest⟩ := hexText_append_inj (by decide) (by decide) hlist
    obtain ⟨rfl, hext⟩ := reg_append_inj hf.1 hg.1 (List.cons_injective hrest)
    obtain ⟨rfl, -⟩ := reg_append_inj hf.2 hg.2 (List.cons_injective hext)
    rfl
  case absWord.absWord m n | absLong.absLong m n | immediate.immediate m n | target.target m n =>
    rw [hexText_inj hlist]
  case absWord.absLong m n | absLong.absWord m n =>
    obtain ⟨-, hrest⟩ := hexText_append_inj (by decide) (by decide) hlist
    simp at hrest
  case count.count m n =>
    have hall : ∀ m < 9, ∀ n < 9, Char.ofNat m = Char.ofNat n → m = n := by decide
    rw [hall m (Nat.lt_succ_of_le hf.2) n (Nat.lt_succ_of_le hg.2) hlist]

/-! ### The separator -/

theorem ne_of_mem_hexText {n : ℕ} {c x : Char} (hx : x.isAlphanum = false)
    (h : c ∈ (hexText n).toList) : c ≠ x := by
  rintro rfl
  rw [toList_hexText] at h
  rw [isAlphanum_of_mem_toDigits h] at hx
  cases hx

theorem ne_of_mem_reg {r : ℕ} {c x : Char} (hx : x.isAlphanum = false) (hr : Printable r)
    (h : c ∈ (reg r).toList) : c ≠ x := by
  rintro rfl
  have hmark : c ∈ marks (reg r).toList := List.mem_filter.2 ⟨h, by simp [hx]⟩
  rw [marks_reg hr] at hmark
  exact absurd hmark List.not_mem_nil

/-- A comma before the name of a register is no separator. -/
theorem unbroken_comma_reg {r : ℕ} {l : List Char} (hr : Printable r) (h : Unbroken ',' ' ' l) :
    Unbroken ',' ' ' (',' :: ((reg r).toList ++ l)) := by
  obtain ⟨c, d, hreg⟩ := List.length_eq_two.1 (length_reg hr)
  have hc : c ∈ (reg r).toList := by simp [hreg]
  have hrest := h.append (fun x hx => ne_of_mem_reg (by decide) hr hx)
  rw [hreg] at hrest ⊢
  exact hrest.cons_cons (ne_of_mem_reg (by decide) hr hc)

/-- The separator of the fields does not occur in a field. -/
theorem unbroken_text {f : Field} (h : f.Valid) : Unbroken ',' ' ' f.text.toList := by
  have hcomma (hnot : ',' ∉ f.frame) : Unbroken ',' ' ' f.text.toList := by
    refine .of_forall_ne fun c hc => ?_
    rintro rfl
    have hmark : ',' ∈ marks f.text.toList := List.mem_filter.2 ⟨hc, by decide⟩
    rw [marks_text h] at hmark
    exact hnot hmark
  have hclose : Unbroken ',' ' ' [')'] := (by decide : ')' ≠ ',')
  have hhex (n : ℕ) : ∀ c ∈ (hexText n).toList, c ≠ ',' := fun c => ne_of_mem_hexText (by decide)
  cases f with
  | displacement offset r =>
    have hlist := ((unbroken_comma_reg h hclose).append (hhex offset)).cons (by decide : '$' ≠ ',')
    simpa [text] using hlist.cons (by decide : '(' ≠ ',')
  | index offset r ext =>
    have hregs := unbroken_comma_reg h.1 (unbroken_comma_reg h.2 hclose)
    have hlist := (hregs.append (hhex offset)).cons (by decide : '$' ≠ ',')
    simpa [text] using hlist.cons (by decide : '(' ≠ ',')
  | count value =>
    have hall : ∀ n < 9, ',' ∉ (count n).frame := by decide
    exact hcomma (hall value (Nat.lt_succ_of_le h.2))
  | _ => exact hcomma (by simp [frame])

theorem text_ne_nil {f : Field} (h : f.Valid) : f.text.toList ≠ [] := by
  cases f with
  | register r =>
    have hlength : (reg r).toList.length = 2 := length_reg h
    intro hnil
    rw [text] at hnil
    rw [hnil] at hlength
    cases hlength
  | _ => simp [text]

/-- Fields are known from the text that joins them. -/
theorem join_text_inj {fs gs : List Field} (hfs : ∀ f ∈ fs, f.Valid) (hgs : ∀ g ∈ gs, g.Valid)
    (h : join ',' ' ' (fs.map fun f => f.text.toList) =
      join ',' ' ' (gs.map fun g => g.text.toList)) : fs = gs := by
  have hfields {fs : List Field} (hfs : ∀ f ∈ fs, f.Valid) :
      ∀ l ∈ fs.map fun f => f.text.toList, Unbroken ',' ' ' l ∧ l ≠ [] := by
    intro l hl
    obtain ⟨f, hf, rfl⟩ := List.mem_map.1 hl
    exact ⟨unbroken_text (hfs f hf), text_ne_nil (hfs f hf)⟩
  have hmap := join_inj (hfields hfs) (hfields hgs) h
  exact map_inj_of_mem (fun f hf g hg htext =>
    text_inj (hfs f hf) (hgs g hg) (String.toList_inj.1 htext)) hmap

end Field

end M68kEmu
