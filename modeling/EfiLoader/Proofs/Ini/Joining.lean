import EfiLoader.Proofs.Ini.Lines

/-!
Settings texts put together by line feeds. Main statement: behind a text that has no NUL and no
error, another text is read as it is alone (`pairs_join`).
-/

namespace EfiLoader.Ini

namespace LineByLine

variable {number : Nat} {lines lines' : List Bytes} {pairs pairs' : List Pair}
  {stop : Option Nat}

/-- The number of the first line counts for nothing but the number of the last. -/
theorem shift (told : LineByLine number lines pairs stop) (count : Nat) :
    LineByLine (number + count) lines pairs (stop.map (· + count)) := by
  induction told with
  | done => exact .done _
  | empty empty _ ih =>
    rw [Nat.add_right_comm] at ih
    exact .empty empty ih
  | setting setting _ ih =>
    rw [Nat.add_right_comm] at ih
    exact .setting setting ih
  | refused no => exact .refused no

theorem append (told : LineByLine number lines pairs none)
    (told' : LineByLine (number + lines.length) lines' pairs' stop) :
    LineByLine number (lines ++ lines') (pairs ++ pairs') stop := by
  generalize whole : none = through at told
  induction told with
  | done => exact told'
  | empty empty _ ih =>
    rw [List.length_cons, Nat.add_comm _ 1, ← Nat.add_assoc] at told'
    exact .empty empty (ih told' whole)
  | setting setting _ ih =>
    rw [List.length_cons, Nat.add_comm _ 1, ← Nat.add_assoc] at told'
    exact .setting setting (ih told' whole)
  | refused => cases whole

end LineByLine

theorem lineByLine_ofBytes {text : Bytes} {pairs : List Pair} {stop : Option Nat} :
    LineByLine 1 ((text.takeWhile (· != 0)).splitOn newline) pairs stop ↔
      (Reader.ofBytes text).summary = (pairs, stop) :=
  lineByLine_iff_summary _ .start pairs stop

theorem takeWhile_plain {text : Bytes} (plain : 0 ∉ text) (rest : Bytes) :
    (text ++ rest).takeWhile (· != 0) = text ++ rest.takeWhile (· != 0) := by
  apply List.takeWhile_append_of_pos
  intro byte member
  have other : byte ≠ 0 := fun zero => plain (zero ▸ member)
  simpa using other

theorem takeWhile_of_plain {text : Bytes} (plain : 0 ∉ text) : text.takeWhile (· != 0) = text := by
  have whole := takeWhile_plain plain []
  rwa [List.takeWhile_nil, List.append_nil] at whole

theorem ofBytes_plain {text : Bytes} (plain : 0 ∉ text) : Reader.ofBytes text = ⟨text, .start⟩ := by
  rw [Reader.ofBytes, takeWhile_of_plain plain]

/-- A text behind another one adds its pairs, as if it were alone. -/
theorem pairs_join {before : Bytes} (plain : 0 ∉ before)
    (sound : (Reader.ofBytes before).pairs.2 = none) (after : Bytes) :
    (Reader.ofBytes (before ++ newline :: after)).pairs.1 =
      (Reader.ofBytes before).pairs.1 ++ (Reader.ofBytes after).pairs.1 := by
  have first : (Reader.ofBytes before).summary = ((Reader.ofBytes before).pairs.1, none) := by
    rw [Reader.summary, sound]
    rfl
  have whole := takeWhile_of_plain plain
  have joined := takeWhile_plain plain (newline :: after)
  rw [List.takeWhile_cons_of_pos (by decide)] at joined
  have lines := lineByLine_ofBytes.mpr first
  have lines' := lineByLine_ofBytes.mpr (Eq.refl (Reader.ofBytes after).summary)
  have all := lines.append (lines'.shift _)
  rw [whole, ← List.splitOn_append_cons_self, ← joined, lineByLine_ofBytes] at all
  exact congrArg Prod.fst all

theorem Key.not_mem {key : Bytes} (named : Key key) {byte : UInt8} (other : ¬ NameByte byte) :
    byte ∉ key := fun member => other (named.nameBytes byte member)

/-- A key and a value with ` = ` between them. -/
theorem Setting.spaced {key spelling value : Bytes} (named : Key key)
    (written : Written spelling value) :
    Setting (key ++ Bytes.utf8 " = " ++ spelling) ⟨key, value⟩ := by
  have sign : Bytes.utf8 " = " = [32] ++ assign :: [32] := by decide
  have gap : Blanks [32] := by
    intro byte member
    rw [List.mem_singleton] at member
    rw [member]
    unfold Blank
    decide
  have assigned := Setting.assigned named gap gap written (.blank (List.forall_mem_nil _))
  rw [sign]
  simpa using assigned

/-- A key, ` = ` and a value on a line of their own are read as one setting. -/
theorem pairs_assignment {key spelling value : Bytes} (named : Key key)
    (written : Written spelling value) (plain : 0 ∉ spelling) (oneLine : newline ∉ spelling)
    (after : Bytes) :
    (Reader.ofBytes (key ++ Bytes.utf8 " = " ++ spelling ++ newline :: after)).pairs.1 =
      ⟨key, value⟩ :: (Reader.ofBytes after).pairs.1 := by
  have absent {byte : UInt8} (other : ¬ NameByte byte) (apart : byte ∉ Bytes.utf8 " = ")
      (none : byte ∉ spelling) : byte ∉ key ++ Bytes.utf8 " = " ++ spelling := by
    simp only [List.mem_append, not_or]
    exact ⟨⟨named.not_mem other, apart⟩, none⟩
  have plainLine : 0 ∉ key ++ Bytes.utf8 " = " ++ spelling :=
    absent (by unfold NameByte Letter; decide) (by decide) plain
  have noFeed : newline ∉ key ++ Bytes.utf8 " = " ++ spelling :=
    absent (by unfold NameByte Letter; decide) (by decide) oneLine
  have line : Line ([] ++ (key ++ Bytes.utf8 " = " ++ spelling)) (some ⟨key, value⟩) :=
    .setting (List.forall_mem_nil _) (.spaced named written)
  have whole := takeWhile_plain plainLine (newline :: after)
  rw [List.takeWhile_cons_of_pos (by decide)] at whole
  have lines := lineByLine_ofBytes.mpr (Eq.refl (Reader.ofBytes after).summary)
  have all := LineByLine.setting line (lines.shift 1)
  rw [List.nil_append, ← List.splitOn_append_cons_self_of_not_mem noFeed, ← whole] at all
  exact congrArg Prod.fst (lineByLine_ofBytes.mp all)

end EfiLoader.Ini
