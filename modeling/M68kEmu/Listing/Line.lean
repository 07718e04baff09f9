import M68kEmu.Listing.Field
import M68kEmu.Model.Instructions
import Mathlib.Data.List.Nodup

/-!
# The lines of a listing

A line is a name, perhaps a size suffix, and fields.  `Line.text` prints it as the methods
`disassembly` do, and the text determines the line (`Line.text_inj`): the name ends with its
letters, the suffix begins with a dot, and the separator of the fields does not occur in a field.
-/

namespace M68kEmu

open Text Disassembler

/-! ### Names -/

/-- The names that the methods print: one for each class, and one for each operation of the classes
that have several. -/
inductive Name where
  | add | adda | addi | addq | addx | and | andi | clr | cmp | cmpa | cmpi | eor | eori | ext
  | illegal | jmp | jsr | lea | link | moveq | neg | nop | or | ori | pea | rts | sub | suba | subi
  | subq | subx | tst | unlk
  | div (isSigned : Bool)
  | mul (isSigned : Bool)
  | move (isMovea : Bool)
  | bitManip (type : BitManipType)
  | bitShift (type : BitShiftType) (directionLeft : Bool)
  | bcc (condition : Condition)
  | scc (condition : Condition)
  deriving DecidableEq, Repr

namespace Name

def bitManipLetters : BitManipType → List Char
  | .btst => ['b', 't', 's', 't']
  | .bchg => ['b', 'c', 'h', 'g']
  | .bclr => ['b', 'c', 'l', 'r']
  | .bset => ['b', 's', 'e', 't']

def bitShiftLetters : BitShiftType → List Char
  | .as => ['a', 's']
  | .ls => ['l', 's']
  | .rox => ['r', 'o', 'x']
  | .ro => ['r', 'o']

def conditionLetters : Condition → List Char
  | .true => ['t']
  | .false => ['f']
  | .higher => ['h', 'i']
  | .lowerSame => ['l', 's']
  | .carryClear => ['c', 'c']
  | .carrySet => ['c', 's']
  | .notEqual => ['n', 'e']
  | .equal => ['e', 'q']
  | .overflowClear => ['v', 'c']
  | .overflowSet => ['v', 's']
  | .plus => ['p', 'l']
  | .minus => ['m', 'i']
  | .greaterEqual => ['g', 'e']
  | .lessThan => ['l', 't']
  | .greaterThan => ['g', 't']
  | .lessEqual => ['l', 'e']

def bccLetters : Condition → List Char
  | .true => ['b', 'r', 'a']
  | .false => ['b', 's', 'r']
  | condition => 'b' :: conditionLetters condition

def letters : Name → List Char
  | .add => ['a', 'd', 'd']
  | .adda => ['a', 'd', 'd', 'a']
  | .addi => ['a', 'd', 'd', 'i']
  | .addq => ['a', 'd', 'd', 'q']
  | .addx => ['a', 'd', 'd', 'x']
  | .and => ['a', 'n', 'd']
  | .andi => ['a', 'n', 'd', 'i']
  | .clr => ['c', 'l', 'r']
  | .cmp => ['c', 'm', 'p']
  | .cmpa => ['c', 'm', 'p', 'a']
  | .cmpi => ['c', 'm', 'p', 'i']
  | .eor => ['e', 'o', 'r']
  | .eori => ['e', 'o', 'r', 'i']
  | .ext => ['e', 'x', 't']
  | .illegal => ['i', 'l', 'l', 'e', 'g', 'a', 'l']
  | .jmp => ['j', 'm', 'p']
  | .jsr => ['j', 's', 'r']
  | .lea => ['l', 'e', 'a']
  | .link => ['l', 'i', 'n', 'k']
  | .moveq => ['m', 'o', 'v', 'e', 'q']
  | .neg => ['n', 'e', 'g']
  | .nop => ['n', 'o', 'p']
  | .or => ['o', 'r']
  | .ori => ['o', 'r', 'i']
  | .pea => ['p', 'e', 'a']
  | .rts => ['r', 't', 's']
  | .sub => ['s', 'u', 'b']
  | .suba => ['s', 'u', 'b', 'a']
  | .subi => ['s', 'u', 'b', 'i']
  | .subq => ['s', 'u', 'b', 'q']
  | .subx => ['s', 'u', 'b', 'x']
  | .tst => ['t', 's', 't']
  | .unlk => ['u', 'n', 'l', 'k']
  | .div isSigned => if isSigned then ['m', 'i', 'v', 's'] else ['d', 'i', 'v', 'u']
  | .mul isSigned => if isSigned then ['m', 'u', 'l', 's'] else ['m', 'u', 'l', 'u']
  | .move isMovea => if isMovea then ['m', 'o', 'v', 'e', 'a'] else ['m', 'o', 'v', 'e']
  | .bitManip type => bitManipLetters type
  | .bitShift type directionLeft => bitShiftLetters type ++ [if directionLeft then 'l' else 'r']
  | .bcc condition => bccLetters condition
  | .scc condition => 's' :: conditionLetters condition

/-- The text of the name. -/
def text (n : Name) : String := String.ofList n.letters

/-! The names that depend on a field, as the methods print them. -/

theorem text_div (isSigned : Bool) :
    (if isSigned then "mivs" else "divu") = (div isSigned).text := by
  cases isSigned <;> rfl

theorem text_mul (isSigned : Bool) :
    (if isSigned then "muls" else "mulu") = (mul isSigned).text := by
  cases isSigned <;> rfl

theorem text_move (isMovea : Bool) :
    (if isMovea then "movea" else "move") = (move isMovea).text := by
  cases isMovea <;> rfl

theorem text_bitManip (type : BitManipType) :
    type.text = (bitManip type).text := by cases type <;> rfl

theorem text_bitShift (type : BitShiftType) (directionLeft : Bool) :
    type.text ++ (if directionLeft then "l" else "r") = (bitShift type directionLeft).text := by
  cases type <;> cases directionLeft <;> rfl

theorem text_bcc (condition : Condition) : Bcc.mnemonic condition = (bcc condition).text := by
  cases condition <;> rfl

theorem text_scc (condition : Condition) :
    "s" ++ conditionSuffix condition = (scc condition).text := by
  cases condition <;> rfl

@[simp] theorem toList_text (n : Name) : n.text.toList = n.letters := String.toList_ofList

def conditions : List Condition :=
  [.true, .false, .higher, .lowerSame, .carryClear, .carrySet, .notEqual, .equal, .overflowClear,
    .overflowSet, .plus, .minus, .greaterEqual, .lessThan, .greaterThan, .lessEqual]

/-- The names without an operation. -/
def plain : List Name :=
  [.add, .adda, .addi, .addq, .addx, .and, .andi, .clr, .cmp, .cmpa, .cmpi, .eor, .eori, .ext,
    .illegal, .jmp, .jsr, .lea,
   .link, .moveq, .neg, .nop, .or, .ori, .pea, .rts, .sub, .suba, .subi, .subq, .subx, .tst, .unlk]

/-- All names. -/
def all : List Name :=
  plain ++ [true, false].flatMap
    (fun b => [.div b, .mul b, .move b, .bitShift .as b, .bitShift .ls b,
      .bitShift .rox b, .bitShift .ro b]) ++
    [BitManipType.btst, .bchg, .bclr, .bset].map .bitManip ++ conditions.map .bcc ++
      conditions.map .scc

theorem mem_all (n : Name) : n ∈ all := by
  cases n with
  | div isSigned | mul isSigned | move isSigned => cases isSigned <;> decide
  | bitManip type => cases type <;> decide
  | bitShift type directionLeft => cases type <;> cases directionLeft <;> decide
  | bcc condition | scc condition => cases condition <;> decide
  | _ => decide

/-- The letters as the digits of a number. -/
def code (n : Name) : ℕ := n.letters.foldl (fun v c => 128 * v + c.toNat) 0

theorem nodup_code : (all.map code).Nodup := by decide +kernel

/-- No two names have the same letters. -/
theorem letters_inj {n m : Name} (h : n.letters = m.letters) : n = m := by
  refine List.inj_on_of_nodup_map nodup_code (mem_all n) (mem_all m) ?_
  rw [code, code, h]

theorem isAlpha_of_mem_letters {n : Name} : ∀ c ∈ n.letters, c.isAlpha := by
  have hall : n.letters.all Char.isAlpha := by
    cases n with
    | div isSigned | mul isSigned | move isSigned => cases isSigned <;> decide
    | bitManip type => cases type <;> decide
    | bitShift type directionLeft => cases type <;> cases directionLeft <;> decide
    | bcc condition | scc condition => cases condition <;> decide
    | _ => decide
  exact List.all_eq_true.1 hall

end Name

/-! ### Lines -/

/-- What a line of a listing shows. -/
structure Line where
  name : Name
  suffix : Option DataSize
  fields : List Field
  deriving DecidableEq, Repr

/-- The text of a size suffix. -/
def suffixText : Option DataSize → String
  | none => ""
  | some size => sizeSuffix size

namespace Line

/-- The blank before the fields, which `EXT` does not print. -/
def blank (l : Line) : String := if l.name = .ext ∨ l.fields = [] then "" else " "

/-- The fields with their separator. -/
def fieldsText (l : Line) : String :=
  String.ofList (join ',' ' ' (l.fields.map fun f => f.text.toList))

/-- The text of the line. -/
def text (l : Line) : String := l.name.text ++ (suffixText l.suffix ++ (l.blank ++ l.fieldsText))

/-- The fields have a text that determines them, and `EXT` has a suffix. -/
structure Valid (l : Line) : Prop where
  fields : ∀ f ∈ l.fields, f.Valid
  ext : l.name = .ext → l.suffix.isSome

variable {l m : Line}

theorem toList_text :
    l.text.toList = l.name.letters ++
    ((suffixText l.suffix).toList ++ (l.blank ++ l.fieldsText).toList) := by
  simp [text]

theorem text_none (n : Name) :
    text ⟨n, none, []⟩ = n.text := by simp [text, suffixText, blank, fieldsText, join]

theorem text_one {n : Name} (hext : n ≠ .ext) (suffix : Option DataSize) (f : Field) :
    text ⟨n, suffix, [f]⟩ = n.text ++ suffixText suffix ++ " " ++ f.text := by
  simp [text, blank, fieldsText, join, hext, String.append_assoc]

theorem text_two {n : Name} (hext : n ≠ .ext) (suffix : Option DataSize) (f g : Field) :
    text ⟨n, suffix, [f, g]⟩ = n.text ++ suffixText suffix ++ " " ++ f.text ++ ", " ++ g.text := by
  apply String.toList_inj.1
  simp [text, blank, fieldsText, join, hext]

theorem text_ext (suffix : Option DataSize) (f : Field) :
    text ⟨.ext, suffix, [f]⟩ = Name.ext.text ++ suffixText suffix ++ f.text := by
  simp [text, blank, fieldsText, join, String.append_assoc]

/-- What follows the suffix begins with a blank, if it is not the operand of `EXT`. -/
theorem head_fields (hext : l.name ≠ .ext) :
    ∀ c ∈ (l.blank ++ l.fieldsText).toList.head?, c = ' ' := by
  intro c hc
  by_cases hnil : l.fields = []
  · simp [blank, fieldsText, hnil, join] at hc
  · simpa [blank, hext, hnil, eq_comm] using hc

/-- The name is followed by something else than a letter. -/
theorem head_rest (h : l.Valid) :
    ∀ c ∈ ((suffixText l.suffix).toList ++ (l.blank ++ l.fieldsText).toList).head?,
    c.isAlpha = false := by
  intro c hc
  rcases hsuffix : l.suffix with _ | size
  · have hext : l.name ≠ .ext := by
      intro hname
      have hsome := h.ext hname
      rw [hsuffix] at hsome
      cases hsome
    rw [hsuffix] at hc
    rw [head_fields hext c hc]
    decide
  · have hdot : c = '.' := by
      rw [hsuffix] at hc
      cases size <;> simpa [suffixText, sizeSuffix, eq_comm] using hc
    rw [hdot]
    decide

/-- The suffix is known from the text after the name. -/
theorem suffix_inj (hl : l.Valid) (hm : m.Valid)
    (h : (suffixText l.suffix).toList ++ (l.blank ++ l.fieldsText).toList =
      (suffixText m.suffix).toList ++ (m.blank ++ m.fieldsText).toList) :
    l.suffix = m.suffix ∧ (l.blank ++ l.fieldsText).toList = (m.blank ++ m.fieldsText).toList := by
  -- a dot is no blank, and only `EXT` has fields without a blank
  have hdot {l m : Line} {size : DataSize} (hm : m.Valid) (hsuffix : m.suffix = none)
      (h : (suffixText (some size)).toList ++ (l.blank ++ l.fieldsText).toList =
        (suffixText m.suffix).toList ++ (m.blank ++ m.fieldsText).toList) : False := by
    have hext : m.name ≠ .ext := by
      intro hname
      have hsome := hm.ext hname
      rw [hsuffix] at hsome
      cases hsome
    have hhead := head_fields hext '.' (by
      rw [hsuffix, show suffixText none = "" from rfl, String.toList_empty, List.nil_append] at h
      rw [← h]
      cases size <;> simp [suffixText, sizeSuffix])
    exact absurd hhead (by decide)
  rcases hsl : l.suffix with _ | size <;> rcases hsm : m.suffix with _ | size'
  · rw [hsl, hsm] at h
    exact ⟨rfl, List.append_cancel_left h⟩
  · rw [hsm] at h
    exact (hdot hl hsl h.symm).elim
  · rw [hsl] at h
    exact (hdot hm hsm h).elim
  · rw [hsl, hsm] at h
    have hlength (size : DataSize) : (suffixText (some size)).toList.length = 2 := by
      cases size <;> simp [suffixText, sizeSuffix]
    obtain ⟨hsuffix, hrest⟩ := List.append_inj h (by rw [hlength, hlength])
    refine ⟨congrArg some ?_, hrest⟩
    cases size <;> cases size' <;> simp [suffixText, sizeSuffix] at hsuffix <;> rfl

/-- Fields have a text. -/
theorem fieldsText_ne_nil (h : l.Valid) (hne : l.fields ≠ []) :
    (l.blank ++ l.fieldsText).toList ≠ [] := by
  obtain ⟨f, fs, hfields⟩ := List.exists_cons_of_ne_nil hne
  have hf : f.Valid := h.fields f (by rw [hfields]; exact List.mem_cons_self)
  rw [String.toList_append, fieldsText, String.toList_ofList, hfields]
  exact List.append_ne_nil_of_right_ne_nil _ (join_ne_nil (Field.text_ne_nil hf))

/-- The fields are known from the text after the suffix. -/
theorem fields_inj (hl : l.Valid) (hm : m.Valid) (hname : l.name = m.name)
    (h : (l.blank ++ l.fieldsText).toList = (m.blank ++ m.fieldsText).toList) :
    l.fields = m.fields := by
  have hnone {l : Line} (hnil : l.fields = []) : (l.blank ++ l.fieldsText).toList = [] := by
    simp [blank, fieldsText, hnil, join]
  by_cases hl0 : l.fields = [] <;> by_cases hm0 : m.fields = []
  · rw [hl0, hm0]
  · rw [hnone hl0] at h
    exact absurd h.symm (fieldsText_ne_nil hm hm0)
  · rw [hnone hm0] at h
    exact absurd h (fieldsText_ne_nil hl hl0)
  · have hblank : l.blank = m.blank := by simp [blank, hl0, hm0, hname]
    rw [String.toList_append, String.toList_append, hblank] at h
    have hjoin := List.append_cancel_left h
    rw [fieldsText, fieldsText, String.toList_ofList, String.toList_ofList] at hjoin
    exact Field.join_text_inj hl.fields hm.fields hjoin

/-- The line is known from its text. -/
theorem text_inj (hl : l.Valid) (hm : m.Valid) (h : l.text = m.text) : l = m := by
  have hlist : l.text.toList = m.text.toList := by rw [h]
  rw [toList_text, toList_text] at hlist
  obtain ⟨hletters, hrest⟩ := append_inj_of_all (p := Char.isAlpha) Name.isAlpha_of_mem_letters
    Name.isAlpha_of_mem_letters (head_rest hl) (head_rest hm) hlist
  have hname := Name.letters_inj hletters
  obtain ⟨hsuffix, hfields⟩ := suffix_inj hl hm hrest
  have hall := fields_inj hl hm hname hfields
  rcases l with ⟨name, suffix, fields⟩
  rcases m with ⟨name', suffix', fields'⟩
  dsimp only at hname hsuffix hall
  rw [hname, hsuffix, hall]

end Line

end M68kEmu
