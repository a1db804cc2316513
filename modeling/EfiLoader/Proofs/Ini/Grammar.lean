import EfiLoader.Ini.Reader

/-!
The grammar of a settings text, line by line and without a reader: `Line` says what a line may be
and which pair it gives, `LineByLine` what lines give one after another, up to the first that is of
no such form. The bytes of each class are those that the reader takes for it (`isSpace_iff`,
`isLetter_iff`, `isNameByte_iff`).
-/

namespace EfiLoader.Ini

/-- Tab to space, except the line feed. -/
def Blank (byte : UInt8) : Prop := 9 ≤ byte.toNat ∧ byte.toNat ≤ 32 ∧ byte.toNat ≠ 10

def Letter (byte : UInt8) : Prop :=
  (65 ≤ byte.toNat ∧ byte.toNat ≤ 90) ∨ (97 ≤ byte.toNat ∧ byte.toNat ≤ 122)

/-- A letter, a digit, `_`, `.` or `-`. -/
def NameByte (byte : UInt8) : Prop :=
  Letter byte ∨ (48 ≤ byte.toNat ∧ byte.toNat ≤ 57) ∨ byte.toNat = 95 ∨ byte.toNat = 46 ∨
    byte.toNat = 45

def Blanks (bytes : Bytes) : Prop := ∀ byte ∈ bytes, Blank byte

/-- What may stand at the end of a line, or alone on it. -/
inductive LineEnd : Bytes → Prop
  | blank {gap : Bytes} (blanks : Blanks gap) : LineEnd gap
  | comment {gap : Bytes} (blanks : Blanks gap) (text : Bytes) : LineEnd (gap ++ hash :: text)

inductive Key : Bytes → Prop
  | letter {first : UInt8} {rest : Bytes} (letter : Letter first)
      (name : ∀ byte ∈ rest, NameByte byte) : Key (first :: rest)

/-- The text of a value, and the value. -/
inductive Written : Bytes → Bytes → Prop
  | bare {value : Bytes} (some : value ≠ []) (name : ∀ byte ∈ value, NameByte byte) :
      Written value value
  | quoted {value : Bytes} (inner : quote ∉ value) :
      Written (quote :: (value ++ [quote])) value

/-- A line from its key on. -/
inductive Setting : Bytes → Pair → Prop
  | assigned {key gap gap' text value tail : Bytes} (named : Key key) (blanks : Blanks gap)
      (blanks' : Blanks gap') (written : Written text value) (ends : LineEnd tail) :
      Setting (key ++ (gap ++ assign :: (gap' ++ (text ++ tail)))) ⟨key, value⟩

/-- A line, and the pair that it gives. -/
inductive Line : Bytes → Option Pair → Prop
  | empty {line : Bytes} (ends : LineEnd line) : Line line none
  | setting {gap rest : Bytes} {pair : Pair} (blanks : Blanks gap) (setting : Setting rest pair) :
      Line (gap ++ rest) (some pair)

/-- The pairs of lines that are counted from a number on, each line read on its own, and the number
of the first that is no line of the grammar. The lines behind that one count for nothing. -/
inductive LineByLine : Nat → List Bytes → List Pair → Option Nat → Prop
  | done (number : Nat) : LineByLine number [] [] none
  | empty {number : Nat} {line : Bytes} {lines : List Bytes} {pairs : List Pair}
      {stop : Option Nat} (empty : Line line none)
      (rest : LineByLine (number + 1) lines pairs stop) :
      LineByLine number (line :: lines) pairs stop
  | setting {number : Nat} {line : Bytes} {lines : List Bytes} {pair : Pair} {pairs : List Pair}
      {stop : Option Nat} (setting : Line line (some pair))
      (rest : LineByLine (number + 1) lines pairs stop) :
      LineByLine number (line :: lines) (pair :: pairs) stop
  | refused {number : Nat} {line : Bytes} {lines : List Bytes}
      (no : ∀ o, ¬ Line line o) : LineByLine number (line :: lines) [] (some number)

section Bytes

variable {byte : UInt8}

theorem isSpace_iff : isSpace byte = true ↔ Blank byte := by
  simp only [isSpace, newline, Blank, Bool.and_eq_true, bne_iff_ne, decide_eq_true_eq,
    UInt8.le_iff_toNat_le, ne_eq, ← UInt8.toNat_inj]
  constructor
  · rintro ⟨⟨other, low⟩, high⟩
    exact ⟨low, high, other⟩
  · rintro ⟨low, high, other⟩
    exact ⟨⟨other, low⟩, high⟩

theorem isLetter_iff : isLetter byte = true ↔ Letter byte := by
  simp [isLetter, Letter, UInt8.le_iff_toNat_le]

theorem isNameByte_iff : isNameByte byte = true ↔ NameByte byte := by
  simp [isNameByte, isDigit, NameByte, UInt8.le_iff_toNat_le, isLetter_iff, ← UInt8.toNat_inj,
    or_assoc]

theorem nameBytes_of_all {bytes : Bytes} (all : bytes.all isNameByte = true) :
    ∀ byte ∈ bytes, NameByte byte := fun byte member =>
  isNameByte_iff.mp (List.all_eq_true.mp all byte member)

theorem NameByte.not_blank (name : NameByte byte) : ¬ Blank byte := by
  unfold NameByte Letter at name
  unfold Blank
  omega

theorem Letter.nameByte (letter : Letter byte) : NameByte byte := .inl letter

theorem isSpace_eq_false (other : ¬ Blank byte) : isSpace byte = false :=
  Bool.eq_false_iff.mpr (mt isSpace_iff.mp other)

theorem isNameByte_eq_false (other : ¬ NameByte byte) : isNameByte byte = false :=
  Bool.eq_false_iff.mpr (mt isNameByte_iff.mp other)

theorem Blank.not_nameByte (blank : Blank byte) : ¬ NameByte byte := fun name =>
  name.not_blank blank

end Bytes

theorem Key.head_letter {key : Bytes} (named : Key key) (rest : Bytes) :
    ∃ first, (key ++ rest).head? = some first ∧ Letter first := by
  cases named with
  | letter letter => exact ⟨_, rfl, letter⟩

theorem Key.nameBytes {key : Bytes} (named : Key key) : ∀ byte ∈ key, NameByte byte := by
  cases named with
  | letter letter name =>
    intro byte member
    rcases List.mem_cons.mp member with rfl | later
    · exact letter.nameByte
    · exact name byte later

theorem LineEnd.head_not_name {tail : Bytes} (ends : LineEnd tail) :
    ∀ byte, tail.head? = some byte → ¬ NameByte byte := by
  have hash_not_name : ¬ NameByte hash := by
    unfold NameByte Letter
    decide
  intro byte head
  cases ends with
  | blank blanks => exact (blanks byte (List.mem_of_mem_head? head)).not_nameByte
  | @comment gap blanks text =>
    cases gap with
    | nil =>
      cases head
      exact hash_not_name
    | cons first rest =>
      cases head
      exact (blanks byte List.mem_cons_self).not_nameByte

theorem Written.head_not_blank {text value : Bytes} (written : Written text value)
    (rest : Bytes) : ∀ byte, (text ++ rest).head? = some byte → ¬ Blank byte := by
  intro byte head
  cases written with
  | bare some name =>
    obtain ⟨first, others, rfl⟩ := List.exists_cons_of_ne_nil some
    cases head
    exact (name byte List.mem_cons_self).not_blank
  | quoted =>
    cases head
    unfold Blank
    decide

/-- A gap, and then a byte that belongs to no name. -/
theorem Blanks.head_not_name {gap rest : Bytes} (blanks : Blanks gap)
    (stop : ∀ byte, rest.head? = some byte → ¬ NameByte byte) :
    ∀ byte, (gap ++ rest).head? = some byte → ¬ NameByte byte := by
  intro byte head
  cases gap with
  | nil => exact stop byte head
  | cons first others =>
    cases head
    exact (blanks byte List.mem_cons_self).not_nameByte

theorem Setting.head_letter {line : Bytes} {pair : Pair} (setting : Setting line pair) :
    ∃ first, line.head? = some first ∧ Letter first := by
  cases setting with
  | assigned named => exact named.head_letter _

theorem line_none_iff {line : Bytes} : Line line none ↔ LineEnd line := by
  constructor
  · intro empty
    cases empty with
    | empty ends => exact ends
  · exact .empty

end EfiLoader.Ini
