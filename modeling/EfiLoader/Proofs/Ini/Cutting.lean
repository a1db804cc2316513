import EfiLoader.Proofs.Ini.Editing

/-!
Settings texts of which only the first bytes are read. `wholeLines` are the lines that are read as a
whole, `cutLine` is what was read of one more. Main statements: what was read of that line counts if
it is a line of the grammar by itself and nothing before it ended the text (`pairs_take_of_cut`);
otherwise the pairs are those of the whole lines (`pairs_take_of_no_cut`).
-/

namespace EfiLoader.Ini

def joinLines (lines : List Bytes) : Bytes := [newline].intercalate lines

theorem joinLines_append_singleton {lines : List Bytes} (some : lines ≠ []) (last : Bytes) :
    joinLines (lines ++ [last]) = joinLines lines ++ newline :: last := by
  induction lines with
  | nil => exact absurd rfl some
  | cons line lines ih =>
    cases lines with
    | nil => simp [joinLines]
    | cons next lines =>
      have rest := ih (List.cons_ne_nil next lines)
      simp only [joinLines, List.cons_append, List.intercalate_cons_cons] at rest ⊢
      rw [rest]
      simp

theorem newline_not_mem_of_mem_splitOn {text line : Bytes}
    (member : line ∈ text.splitOn newline) : newline ∉ line := by
  induction text using lines_induction with
  | last only noFeed =>
    rw [List.splitOn_eq_singleton noFeed, List.mem_singleton] at member
    rwa [member]
  | before first rest noFeed ih =>
    rw [List.splitOn_append_cons_self_of_not_mem noFeed, List.mem_cons] at member
    rcases member with rfl | later
    · exact noFeed
    · exact ih later

/-- Whether a text goes on behind its first `limit` bytes within a line. -/
def Cut (limit : Nat) (text : Bytes) : Prop := ∃ byte, text[limit]? = some byte ∧ byte ≠ newline

instance (limit : Nat) (text : Bytes) : Decidable (Cut limit text) :=
  decidable_of_iff (text[limit]?.any (· != newline) = true) (by simp [Cut, Option.any_eq_true])

/-- The lines of a text that lie within its first `limit` bytes. -/
def wholeLines (limit : Nat) (text : Bytes) : List Bytes :=
  let lines := (text.take limit).splitOn newline
  if Cut limit text then lines.dropLast else lines

/-- What was read of the line that goes on behind the first `limit` bytes. -/
def cutLine (limit : Nat) (text : Bytes) : Option Bytes :=
  if Cut limit text then ((text.take limit).splitOn newline).getLast? else none

/-- What was read of a line that goes on makes a pair. -/
structure CutSetting (limit : Nat) (text : Bytes) (pair : Pair) : Prop where
  /-- The text has not ended before that line. -/
  plain : 0 ∉ joinLines (wholeLines limit text)
  sound : (Reader.ofBytes (joinLines (wholeLines limit text))).pairs.2 = none
  read : ∃ part, cutLine limit text = some part ∧ Line (part.takeWhile (· != 0)) (some pair)

section Take

variable {limit : Nat} {text part : Bytes}

theorem wholeLines_append_cutLine (limit : Nat) (text : Bytes) :
    wholeLines limit text ++ (cutLine limit text).toList =
      (text.take limit).splitOn newline := by
  unfold wholeLines cutLine
  split
  · rw [List.getLast?_eq_some_getLast (List.splitOn_ne_nil _ _)]
    exact List.dropLast_concat_getLast _
  · exact List.append_nil _

theorem joinLines_wholeLines (uncut : cutLine limit text = none) :
    joinLines (wholeLines limit text) = text.take limit := by
  have lines := wholeLines_append_cutLine limit text
  rw [uncut, Option.toList_none, List.append_nil] at lines
  rw [lines]
  exact List.intercalate_splitOn newline

theorem newline_not_mem_cutLine (cut : cutLine limit text = some part) : newline ∉ part := by
  have lines := wholeLines_append_cutLine limit text
  rw [cut] at lines
  have last : part ∈ (text.take limit).splitOn newline := by
    rw [← lines]
    exact List.mem_append_right _ List.mem_cons_self
  exact newline_not_mem_of_mem_splitOn last

/-- What is read of a cut text ends with a part of a line, on its own or behind whole lines. -/
theorem take_of_cut (cut : cutLine limit text = some part) :
    (joinLines (wholeLines limit text) = [] ∧ text.take limit = part) ∨
      text.take limit = joinLines (wholeLines limit text) ++ newline :: part := by
  have lines := wholeLines_append_cutLine limit text
  have joined : joinLines ((text.take limit).splitOn newline) = text.take limit :=
    List.intercalate_splitOn newline
  rw [← joined, ← lines, cut]
  by_cases none : wholeLines limit text = []
  · rw [none]
    exact .inl ⟨rfl, List.intercalate_singleton⟩
  · exact .inr (joinLines_append_singleton none part)

/-- The whole lines and the cut one of a text that the limit cuts behind `part`. -/
theorem wholeLines_and_cutLine {before part : Bytes} {byte : UInt8} (after : Bytes)
    (oneLine : newline ∉ part) (goesOn : byte ≠ newline)
    (cut : (before ++ newline :: part).length = limit) :
    let text := before ++ newline :: part ++ byte :: after
    joinLines (wholeLines limit text) = before ∧ cutLine limit text = some part := by
  intro text
  have lines : (text.take limit).splitOn newline = before.splitOn newline ++ [part] := by
    rw [← cut, List.take_left, List.splitOn_append_cons_self, List.splitOn_eq_singleton oneLine]
  have here : Cut limit text := by
    refine ⟨byte, ?_, goesOn⟩
    rw [List.getElem?_append_right (Nat.le_of_eq cut), cut, Nat.sub_self]
    rfl
  constructor
  · rw [wholeLines, if_pos here, lines, List.dropLast_concat]
    exact List.intercalate_splitOn newline
  · rw [cutLine, if_pos here, lines, List.getLast?_concat]

end Take

namespace LineByLine

variable {number stop : Nat} {line : Bytes} {lines : List Bytes} {pairs : List Pair}

/-- Lines behind the one that ends a text with an error count for nothing. -/
theorem append_of_stopped (told : LineByLine number lines pairs (some stop))
    (after : List Bytes) : LineByLine number (lines ++ after) pairs (some stop) := by
  generalize whole : some stop = last at told ⊢
  induction told with
  | done => cases whole
  | empty empty _ ih => exact .empty empty (ih whole)
  | setting setting _ ih => exact .setting setting (ih whole)
  | refused no => exact .refused no

theorem nil_of_no_pair {last : Option Nat} (none : ∀ pair, ¬ Line line (some pair))
    (told : LineByLine number [line] pairs last) : pairs = [] := by
  cases told with
  | empty _ rest =>
    cases rest
    rfl
  | setting setting => exact absurd setting (none _)
  | refused => rfl

end LineByLine

section Last

variable {before part : Bytes} {pair : Pair}

theorem linesOf_of_oneLine (oneLine : newline ∉ part) :
    linesOf part = [part.takeWhile (· != 0)] :=
  List.splitOn_eq_singleton fun inside => oneLine ((List.takeWhile_prefix _).subset inside)

theorem pairs_of_line (oneLine : newline ∉ part)
    (line : Line (part.takeWhile (· != 0)) (some pair)) :
    (Reader.ofBytes part).pairs.1 = [pair] := by
  have told : LineByLine 1 (linesOf part) [pair] none := by
    rw [linesOf_of_oneLine oneLine]
    exact .setting line (.done _)
  exact congrArg Prod.fst (lineByLine_linesOf.mp told)

theorem pairs_of_no_line (oneLine : newline ∉ part)
    (none : ∀ pair, ¬ Line (part.takeWhile (· != 0)) (some pair)) :
    (Reader.ofBytes part).pairs.1 = [] := by
  have told := lineByLine_linesOf.mpr (Eq.refl (Reader.ofBytes part).summary)
  rw [linesOf_of_oneLine oneLine] at told
  exact told.nil_of_no_pair none

/-- A comment alone has no pair and no error. -/
theorem summary_of_comment (plain : 0 ∉ part) (oneLine : newline ∉ part) :
    (Reader.ofBytes (hash :: part)).summary = ([], none) := by
  have noFeed : newline ∉ hash :: part := by
    rw [List.mem_cons, not_or]
    exact ⟨by decide, oneLine⟩
  have told : LineByLine 1 (linesOf (hash :: part)) [] none := by
    rw [linesOf_of_oneLine noFeed, List.takeWhile_cons_of_pos (by decide),
      takeWhile_of_plain plain]
    exact .empty (.empty (@LineEnd.comment [] nofun part)) (.done 2)
  exact lineByLine_linesOf.mp told

/-- What stands behind a NUL is not part of a text. -/
theorem ofBytes_append_of_nul (nul : 0 ∈ before) (after : Bytes) :
    Reader.ofBytes (before ++ after) = Reader.ofBytes before := by
  have shorter : (before.takeWhile (· != 0)).length ≠ before.length := by
    intro same
    have whole := (List.takeWhile_prefix (· != 0)).eq_of_length same
    rw [← whole] at nul
    exact absurd (List.all_eq_true.mp List.all_takeWhile 0 nul) (by decide)
  rw [Reader.ofBytes, List.takeWhile_append, if_neg shorter]
  rfl

/-- What stands on lines behind an error adds no pair. -/
theorem pairs_append_of_error {error : Error} (plain : 0 ∉ before)
    (stopped : (Reader.ofBytes before).pairs.2 = some error) (after : Bytes) :
    (Reader.ofBytes (before ++ newline :: after)).pairs.1 = (Reader.ofBytes before).pairs.1 := by
  have whole : (Reader.ofBytes before).summary =
      ((Reader.ofBytes before).pairs.1, some error.place.line) := by
    rw [Reader.summary, stopped]
    rfl
  have lines : linesOf (before ++ newline :: after) = linesOf before ++ linesOf after := by
    rw [linesOf, takeWhile_plain plain, List.takeWhile_cons_of_pos (by decide),
      List.splitOn_append_cons_self, linesOf, takeWhile_of_plain plain, linesOf]
  have told := (lineByLine_linesOf.mpr whole).append_of_stopped (linesOf after)
  rw [← lines] at told
  exact (Prod.mk.inj (lineByLine_linesOf.mp told)).1

end Last

section Take

variable {limit : Nat} {text : Bytes}

theorem pairs_ofBytes_nil : (Reader.ofBytes []).pairs = ([], none) := by decide +kernel

theorem pairs_take_of_cut {pair : Pair} (cut : CutSetting limit text pair) :
    (Reader.ofBytes (text.take limit)).pairs.1 =
      (Reader.ofBytes (joinLines (wholeLines limit text))).pairs.1 ++ [pair] := by
  obtain ⟨part, found, line⟩ := cut.read
  have last := pairs_of_line (newline_not_mem_cutLine found) line
  rcases take_of_cut found with ⟨nothing, alone⟩ | behind
  · rw [alone, last, nothing, pairs_ofBytes_nil]
    rfl
  · rw [behind, pairs_join cut.plain cut.sound, last]

theorem pairs_take_of_no_cut (none : ∀ pair, ¬ CutSetting limit text pair) :
    (Reader.ofBytes (text.take limit)).pairs.1 =
      (Reader.ofBytes (joinLines (wholeLines limit text))).pairs.1 := by
  cases found : cutLine limit text with
  | none => rw [joinLines_wholeLines found]
  | some part =>
    have last (plain : 0 ∉ joinLines (wholeLines limit text))
        (sound : (Reader.ofBytes (joinLines (wholeLines limit text))).pairs.2 = .none) :
        (Reader.ofBytes part).pairs.1 = [] :=
      pairs_of_no_line (newline_not_mem_cutLine found) fun pair line =>
        none pair ⟨plain, sound, part, found, line⟩
    rcases take_of_cut found with ⟨nothing, alone⟩ | behind
    · rw [nothing, pairs_ofBytes_nil] at last
      rw [alone, nothing, pairs_ofBytes_nil, last List.not_mem_nil rfl]
    · -- The whole lines end the text by a NUL, by an error, or not at all.
      rw [behind]
      by_cases nul : 0 ∈ joinLines (wholeLines limit text)
      · rw [ofBytes_append_of_nul nul]
      · cases ended : (Reader.ofBytes (joinLines (wholeLines limit text))).pairs.2 with
        | some error => exact pairs_append_of_error nul ended part
        | none => rw [pairs_join nul ended, last nul ended, List.append_nil]

end Take

end EfiLoader.Ini
