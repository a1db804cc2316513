import EfiLoader.Proofs.Ini.Joining
import EfiLoader.Proofs.Ini.Progress

/-!
How far the reader looks ahead. From a key on, what it does depends on the bytes that it passes and
on the one behind them (`Ahead`). Main statement: an error behind a key is noticed when what was
passed is still the start of a line (`Reader.noticed_of_error`, `Broken.viable`).
-/

namespace EfiLoader.Ini

/-! ## Parts of lines -/

/-- A line from its key up to its value. -/
inductive Assigning : Bytes → Prop
  | sign {key gap gap' : Bytes} (named : Key key) (blanks : Blanks gap) (blanks' : Blanks gap') :
      Assigning (key ++ (gap ++ assign :: gap'))

/-- The ways a line goes wrong from its key on: the error is noticed behind the second text, and
tells the place behind the first. -/
inductive Broken : Fault → Bytes → Bytes → Prop
  | badKey : Broken .badKey [] []
  | noKey : Broken .strayByte [] []
  | noAssign {key gap : Bytes} (named : Key key) (blanks : Blanks gap) :
      Broken .missingAssign (key ++ gap) (key ++ gap)
  | noValue {front : Bytes} (assigning : Assigning front) : Broken .missingValue front front
  | openQuote {front inner : Bytes} (assigning : Assigning front) (unquoted : quote ∉ inner)
      (noFeed : newline ∉ inner) : Broken .openQuote front (front ++ quote :: inner)
  | noEnd {front text value gap : Bytes} (assigning : Assigning front)
      (written : Written text value) (noFeed : newline ∉ text) (blanks : Blanks gap) :
      Broken .strayByte (front ++ (text ++ gap)) (front ++ (text ++ gap))

theorem Blanks.noFeed {gap : Bytes} (blanks : Blanks gap) : newline ∉ gap := fun feed =>
  (blanks newline feed).2.2 rfl

theorem Key.noFeed {key : Bytes} (named : Key key) : newline ∉ key :=
  named.not_mem (by unfold NameByte Letter; decide)

namespace Assigning

variable {front : Bytes} (assigning : Assigning front)
include assigning

theorem noFeed : newline ∉ front := by
  cases assigning with
  | sign named blanks blanks' =>
    simp [named.noFeed, blanks.noFeed, blanks'.noFeed, show newline ≠ assign by decide]

theorem setting {text value tail : Bytes} (written : Written text value) (ends : LineEnd tail) :
    ∃ pair, Setting (front ++ (text ++ tail)) pair := by
  cases assigning with
  | @sign key gap gap' named blanks blanks' =>
    have setting := Setting.assigned named blanks blanks' written ends
    refine ⟨⟨key, value⟩, ?_⟩
    simpa only [List.append_assoc, List.cons_append] using setting

end Assigning

theorem Written.letter : Written (Bytes.utf8 "x") (Bytes.utf8 "x") :=
  .bare (by decide) (nameBytes_of_all (by decide))

theorem LineEnd.nil : LineEnd [] := .blank (List.forall_mem_nil _)

namespace Broken

variable {fault : Fault} {front done : Bytes} (broken : Broken fault front done)
include broken

/-- What was read before the error is nothing, or the start of a line. -/
theorem viable : ∃ more, 0 ∉ more ∧ newline ∉ done ++ more ∧
    (done ++ more = [] ∨ ∃ pair, Setting (done ++ more) pair) := by
  cases broken with
  | badKey | noKey => exact ⟨[], List.not_mem_nil, List.not_mem_nil, .inl rfl⟩
  | @noAssign key gap named blanks =>
    have assigning : Assigning (key ++ (gap ++ [assign])) :=
      .sign named blanks (List.forall_mem_nil _)
    obtain ⟨pair, setting⟩ := assigning.setting .letter .nil
    have whole : key ++ (gap ++ [assign]) ++ (Bytes.utf8 "x" ++ []) =
        key ++ gap ++ (assign :: Bytes.utf8 "x") := by simp
    rw [whole] at setting
    refine ⟨assign :: Bytes.utf8 "x", by decide, ?_, .inr ⟨pair, setting⟩⟩
    rw [← whole, List.mem_append, not_or]
    exact ⟨assigning.noFeed, by decide⟩
  | noValue assigning =>
    obtain ⟨pair, setting⟩ := assigning.setting .letter .nil
    rw [List.append_nil] at setting
    refine ⟨Bytes.utf8 "x", by decide, ?_, .inr ⟨pair, setting⟩⟩
    rw [List.mem_append, not_or]
    exact ⟨assigning.noFeed, by decide⟩
  | @openQuote _ inner assigning unquoted noFeed =>
    obtain ⟨pair, setting⟩ := assigning.setting (.quoted unquoted) .nil
    have whole : front ++ (quote :: (inner ++ [quote]) ++ []) =
        front ++ quote :: inner ++ [quote] := by simp
    rw [whole] at setting
    refine ⟨[quote], by decide, ?_, .inr ⟨pair, setting⟩⟩
    simp [assigning.noFeed, noFeed, show newline ≠ quote by decide]
  | noEnd assigning written noFeed blanks =>
    obtain ⟨pair, setting⟩ := assigning.setting written (.blank blanks)
    refine ⟨[], List.not_mem_nil, ?_, .inr ⟨pair, ?_⟩⟩
    · simp [assigning.noFeed, noFeed, blanks.noFeed]
    · rwa [List.append_nil]

theorem front_eq (other : fault ≠ .openQuote) : front = done := by
  cases broken with
  | badKey | noKey | noAssign | noValue | noEnd => rfl
  | openQuote => exact absurd rfl other

end Broken

namespace Reader

/-! ## One byte ahead -/

section Ahead

variable {r : Reader} {rest : Bytes} {p : UInt8 → Bool}

/-- A run ends alike in front of all texts that start alike. -/
theorem skip_ahead (same : rest.head? = (r.skip p).rest.head?) :
    (⟨r.taken p ++ rest, r.place⟩ : Reader).skip p = ⟨rest, (r.skip p).place⟩ ∧
      (⟨r.taken p ++ rest, r.place⟩ : Reader).taken p = r.taken p := by
  have inside : ∀ byte ∈ r.taken p, p byte = true := fun _ member => of_mem_taken member
  have stop : ∀ byte, rest.head? = some byte → p byte = false := fun _ first =>
    stop_of_skip (same.symm.trans first)
  exact ⟨skip_exact inside stop r.place, taken_exact inside stop r.place⟩

theorem Passes.head {r' : Reader} {done : Bytes} (passes : r.Passes done r')
    (same : rest.head? = r'.rest.head?) : (done ++ rest).head? = r.rest.head? := by
  rw [passes.rest, List.head?_append, List.head?_append, same]

theorem pastName_ahead (same : rest.head? = r.pastName.rest.head?) :
    (⟨r.taken isNameByte ++ ((r.skip isNameByte).taken isSpace ++ rest), r.place⟩ :
      Reader).pastName = ⟨rest, r.pastName.place⟩ := by
  have gap := (Passes.skip (r.skip isNameByte) isSpace).head same
  rw [pastName, (skip_ahead gap).1]
  exact (skip_ahead (r := r.skip isNameByte) same).1

theorem Passes.advance {byte : UInt8} (head : r.rest.head? = some byte) :
    r.Passes [byte] r.advance := by
  have next := rest_of_head head
  refine ⟨next, ?_⟩
  rw [Reader.advance, next]
  rfl

theorem Passes.pastName (r : Reader) :
    r.Passes (r.taken isNameByte ++ (r.skip isNameByte).taken isSpace) r.pastName :=
  (Passes.skip r isNameByte).trans (.skip _ isSpace)

/-- A key and a `=` are read alike in front of all texts that start like what is behind them. -/
theorem assigned_ahead {first : UInt8} (head : r.rest.head? = some first)
    (letter : isLetter first = true) (assigned : r.pastName.rest.head? = some assign) :
    ∃ front, Assigning front ∧ r.Passes front r.pastName.advance.pastSpaces ∧
      ∀ rest, rest.head? = r.pastName.advance.pastSpaces.rest.head? →
        let r' : Reader := ⟨front ++ rest, r.place⟩
        r'.rest.head? = some first ∧ r'.pastName.rest.head? = some assign ∧
          r'.pastName.advance.pastSpaces = ⟨rest, r.pastName.advance.pastSpaces.place⟩ := by
  have sign := Passes.advance assigned
  have passes := (Passes.pastName r).trans (sign.trans (.skip _ isSpace))
  refine ⟨_, ?_, passes, ?_⟩
  · rw [List.append_assoc]
    exact .sign (key_taken head (isLetter_iff.mp letter)) (blanks_taken _) (blanks_taken _)
  · intro rest same r'
    have start : r'.rest.head? = some first := (passes.head same).trans head
    have named : r'.pastName =
        ⟨assign :: (r.pastName.advance.taken isSpace ++ rest), r.pastName.place⟩ := by
      rw [← pastName_ahead (r := r) (by rw [assigned]; rfl)]
      simp [r']
    refine ⟨start, by rw [named]; rfl, ?_⟩
    have place : r.pastName.advance.place = r.pastName.place.step assign := sign.place
    rw [named, advance_cons, ← place]
    exact (skip_ahead same).1

end Ahead

/-- The outcome at `r` depends on `done` and the byte behind it alone. -/
structure Ahead {α : Type} (f : Reader → α × Reader) (r : Reader) (done : Bytes) : Prop where
  passes : r.Passes done (f r).2
  alike : ∀ rest, rest.head? = (f r).2.rest.head? →
    f ⟨done ++ rest, r.place⟩ = ((f r).1, ⟨rest, (f r).2.place⟩)

theorem Ahead.of_read {α : Type} {f : Reader → α × Reader} {r last : Reader} {done : Bytes}
    {answer : α} (read : f r = (answer, last)) (passes : r.Passes done last)
    (alike : ∀ rest, rest.head? = last.rest.head? →
      f ⟨done ++ rest, r.place⟩ = (answer, ⟨rest, last.place⟩)) : Ahead f r done := by
  refine ⟨?_, ?_⟩
  · rwa [read]
  · rwa [read]

/-- What comes of reading a value, and the bytes that are taken for it. -/
inductive ValueRead (place : Place) : Except Error Bytes → Bytes → Prop
  | written {text value : Bytes} (written : Written text value) (noFeed : newline ∉ text) :
      ValueRead place (.ok value) text
  | missing : ValueRead place (.error ⟨.missingValue, place⟩) []
  | openQuote {inner : Bytes} (unquoted : quote ∉ inner) (noFeed : newline ∉ inner) :
      ValueRead place (.error ⟨.openQuote, place⟩) (quote :: inner)

def isInner (byte : UInt8) : Bool := byte != quote && byte != newline

theorem taken_isInner (r : Reader) : quote ∉ r.taken isInner ∧ newline ∉ r.taken isInner := by
  constructor
  all_goals
    intro member
    have inner := of_mem_taken member
    revert inner
    decide

section Value

variable {r : Reader} {byte : UInt8}

theorem readValue_missing
    (other : ∀ byte, r.rest.head? = some byte → byte ≠ quote ∧ ¬ isNameByte byte = true) :
    r.readValue = (.error ⟨.missingValue, r.place⟩, r) := by
  unfold readValue
  cases head : r.rest.head? with
  | none => rfl
  | some byte =>
    obtain ⟨unquoted, unnamed⟩ := other byte head
    simp only [if_neg unquoted, if_neg unnamed]

theorem readValue_bare (head : r.rest.head? = some byte) (named : isNameByte byte = true) :
    r.readValue = (.ok (r.taken isNameByte), r.skip isNameByte) := by
  have unquoted : byte ≠ quote := by
    rintro rfl
    revert named
    decide
  simp only [readValue, head, if_neg unquoted, if_pos named]

theorem readValue_quoted (head : r.rest.head? = some quote) :
    r.readValue =
      if (r.advance.skip isInner).rest.head? = some quote then
        (.ok (r.advance.taken isInner), (r.advance.skip isInner).advance)
      else (.error ⟨.openQuote, r.place⟩, r.advance.skip isInner) := by
  simp only [readValue, head, if_true]
  rfl

/-- Behind a quote, one that closes it and one that does not. -/
theorem quoted_ahead (head : r.rest.head? = some quote) :
    ∃ done, ValueRead r.place r.readValue.1 done ∧ Ahead readValue r done := by
  have opened := Passes.advance head
  have inside := opened.trans (.skip r.advance isInner)
  obtain ⟨unquoted, noFeed⟩ := r.advance.taken_isInner
  have place : r.advance.place = r.place.step quote := opened.place
  have read := readValue_quoted head
  have read' (rest : Bytes) := readValue_quoted (r := ⟨quote :: rest, r.place⟩) rfl
  simp only [advance_cons, ← place] at read'
  by_cases closed : (r.advance.skip isInner).rest.head? = some quote
  · have close := Passes.advance closed
    have last : (r.advance.skip isInner).advance.place =
        (r.advance.skip isInner).place.step quote := close.place
    rw [if_pos closed] at read
    refine ⟨[quote] ++ r.advance.taken isInner ++ [quote], ?_,
      .of_read read (inside.trans close) ?_⟩
    · rw [read]
      exact .written (.quoted unquoted) (by simp [noFeed, show newline ≠ quote by decide])
    · intro rest _
      have starts : (quote :: rest).head? = (r.advance.skip isInner).rest.head? := closed.symm
      have again := skip_ahead starts
      have whole : [quote] ++ r.advance.taken isInner ++ [quote] ++ rest =
          quote :: (r.advance.taken isInner ++ quote :: rest) := by simp
      rw [whole, read', again.1, again.2, if_pos List.head?_cons, advance_cons, last]
  · rw [if_neg closed] at read
    refine ⟨[quote] ++ r.advance.taken isInner, ?_, .of_read read inside ?_⟩
    · rw [read]
      exact .openQuote unquoted noFeed
    · intro rest same
      rw [List.append_assoc, List.singleton_append, read', (skip_ahead same).1,
        if_neg (same ▸ closed)]

/-- In front of a value, or of something else. -/
theorem readValue_ahead (r : Reader) :
    ∃ done, ValueRead r.place r.readValue.1 done ∧ Ahead readValue r done := by
  by_cases quoted : r.rest.head? = some quote
  · exact quoted_ahead quoted
  · by_cases named : ∃ byte, r.rest.head? = some byte ∧ isNameByte byte = true
    · obtain ⟨byte, head, named⟩ := named
      have read := readValue_bare head named
      have name := nameBytes_of_all (List.all_takeWhile (l := r.rest) (p := isNameByte))
      have some : r.taken isNameByte ≠ [] := by
        rw [taken, rest_of_head head, List.takeWhile_cons_of_pos named]
        exact List.cons_ne_nil _ _
      refine ⟨r.taken isNameByte, ?_, .of_read read (.skip r isNameByte) ?_⟩
      · rw [read]
        refine .written (.bare some name) fun feed => ?_
        exact absurd (of_mem_taken feed) (by decide)
      · intro rest same
        have again := skip_ahead same
        have head' : (⟨r.taken isNameByte ++ rest, r.place⟩ : Reader).rest.head? = .some byte :=
          ((Passes.skip r isNameByte).head same).trans head
        rw [readValue_bare head' named, again.1, again.2]
    · have other (rest : Bytes) (same : rest.head? = r.rest.head?) (byte : UInt8)
          (head : rest.head? = some byte) : byte ≠ quote ∧ ¬ isNameByte byte = true := by
        rw [same] at head
        exact ⟨fun opens => quoted (opens ▸ head), fun name => named ⟨byte, head, name⟩⟩
      have read := readValue_missing (other r.rest rfl)
      refine ⟨[], ?_, .of_read read (.refl r) fun rest same => ?_⟩
      · rw [read]
        exact .missing
      · exact readValue_missing (r := ⟨rest, r.place⟩) (other rest same)

end Value

theorem readLineEnd_stray {r : Reader} {byte : UInt8} (head : r.pastSpaces.rest.head? = some byte)
    (noComment : byte ≠ hash) (noFeed : byte ≠ newline) :
    r.readLineEnd = (.error ⟨.strayByte, r.pastSpaces.place⟩, r.pastSpaces) := by
  have stays : r.pastSpaces.pastComment = r.pastSpaces := by
    rw [pastComment, head, if_neg (Option.some_inj.not.mpr noComment)]
  simp only [readLineEnd, stays, head, if_neg noFeed]

theorem head?_skip_comment {r : Reader} {byte : UInt8}
    (head : (r.skip (· != newline)).rest.head? = some byte) : byte = newline := by
  simpa using stop_of_skip head

/-- A comment is no error behind a value, so that one is noticed right behind the spaces. -/
theorem readLineEnd_ahead {r : Reader} {e : Error} (told : r.readLineEnd.1 = .error e) :
    ∃ gap, Blanks gap ∧ e = ⟨.strayByte, r.place.past gap⟩ ∧ Ahead readLineEnd r gap := by
  obtain ⟨byte, head, noFeed⟩ : ∃ byte, r.pastSpaces.pastComment.rest.head? = some byte ∧
      byte ≠ newline := by
    unfold readLineEnd at told
    dsimp only at told
    split at told
    · cases told
    · split at told
      · cases told
      · exact ⟨_, by assumption, by assumption⟩
  have noComment : r.pastSpaces.rest.head? ≠ some hash := by
    intro comment
    rw [pastComment, if_pos comment] at head
    exact noFeed (head?_skip_comment head)
  rw [pastComment, if_neg noComment] at head
  rw [head, Option.some_inj.ne] at noComment
  have read := readLineEnd_stray head noComment noFeed
  rw [read] at told
  cases told
  refine ⟨r.taken isSpace, r.blanks_taken, rfl, .of_read read (.skip r isSpace) ?_⟩
  intro rest same
  have again : (⟨r.taken isSpace ++ rest, r.place⟩ : Reader).pastSpaces =
      ⟨rest, r.pastSpaces.place⟩ := (skip_ahead same).1
  have head' := same.trans head
  rw [readLineEnd_stray (by rw [again]; exact head') noComment noFeed, again]

/-- The error is noticed where the text goes wrong, one byte ahead. -/
def Noticed (r : Reader) (e : Error) : Prop :=
  ∃ front done, Broken e.fault front done ∧ e.place = r.place.past front ∧ Ahead pairAt r done

section Assigned

variable {r last : Reader} {first : UInt8} {e : Error}
  (head : r.rest.head? = some first) (letter : isLetter first = true)
  (assigned : r.pastName.rest.head? = some assign)
include head letter assigned

theorem noticed_value (read : r.pastName.advance.pastSpaces.readValue = (.error e, last)) :
    Noticed r e := by
  obtain ⟨front, assigning, passes, later⟩ := assigned_ahead head letter assigned
  obtain ⟨done, valued, ahead⟩ := r.pastName.advance.pastSpaces.readValue_ahead
  have through := passes.trans ahead.passes
  rw [read] at through valued
  have whole := (Pairing.noValue head letter assigned read).eq
  have alike : Ahead pairAt r (front ++ done) := by
    refine .of_read whole through fun rest same => ?_
    have again := ahead.alike rest (by rwa [read])
    have start : (done ++ rest).head? = r.pastName.advance.pastSpaces.rest.head? :=
      ahead.passes.head (by rwa [read])
    obtain ⟨head', assigned', behind⟩ := later _ start
    rw [← behind, read, ← List.append_assoc] at again
    rw [← List.append_assoc] at head' assigned'
    exact (Pairing.noValue head' letter assigned' again).eq
  cases valued with
  | missing =>
    rw [List.append_nil] at alike
    exact ⟨front, front, .noValue assigning, passes.place, alike⟩
  | openQuote unquoted noFeed =>
    exact ⟨front, _, .openQuote assigning unquoted noFeed, passes.place, alike⟩

theorem noticed_lineEnd {value : Bytes} {behind : Reader}
    (read : r.pastName.advance.pastSpaces.readValue = (.ok value, behind))
    (ended : behind.readLineEnd = (.error e, last)) : Noticed r e := by
  obtain ⟨front, assigning, passes, later⟩ := assigned_ahead head letter assigned
  obtain ⟨text, valued, ahead⟩ := r.pastName.advance.pastSpaces.readValue_ahead
  obtain ⟨gap, blanks, rfl, aheadEnd⟩ := readLineEnd_ahead (congrArg Prod.fst ended)
  have valuePassed := ahead.passes
  have endPassed := aheadEnd.passes
  rw [read] at valued valuePassed
  rw [ended] at endPassed
  have through := passes.trans (valuePassed.trans endPassed)
  have whole := (Pairing.noEnd head letter assigned read ended).eq
  cases valued with
  | written written noFeed =>
    refine ⟨_, _, .noEnd assigning written noFeed blanks, ?_, .of_read whole through ?_⟩
    · rw [← through.place, endPassed.place]
    · intro rest same
      have ended' := aheadEnd.alike rest (by rwa [ended])
      have gapStart := endPassed.head same
      have read' := ahead.alike (gap ++ rest) (by rw [read]; exact gapStart)
      obtain ⟨head', assigned', behind⟩ := later _ (valuePassed.head gapStart)
      rw [← behind, read] at read'
      rw [ended] at ended'
      have way := Pairing.noEnd head' letter assigned' read' ended'
      simpa only [List.append_assoc] using way.eq

end Assigned

theorem noticed_of_error {r : Reader} {e : Error} (told : r.pairAt.1 = .error e) :
    Noticed r e := by
  have way := pairing r
  rcases whole : r.pairAt with ⟨answer, last⟩
  rw [whole] at told way
  obtain rfl : answer = .error e := told
  cases way with
  | @noKey first head other =>
    refine ⟨[], [], ?_, rfl, .of_read whole (.refl r) fun rest same => ?_⟩
    · dsimp only
      split
      · exact .badKey
      · exact .noKey
    · exact (Pairing.noKey (same.trans head) other).eq
  | @noAssign first head letter missing =>
    have passes := Passes.pastName r
    refine ⟨_, _, .noAssign (key_taken head (isLetter_iff.mp letter)) (blanks_taken _),
      passes.place, .of_read whole passes fun rest same => ?_⟩
    have named := pastName_ahead same
    rw [← List.append_assoc] at named
    have head' := (passes.head same).trans head
    have missing' : rest.head? ≠ some assign := same ▸ missing
    have way : Pairing ⟨_, r.place⟩ _ := .noAssign head' letter (by rwa [named])
    rw [named] at way
    exact way.eq
  | noValue head letter assigned read => exact noticed_value head letter assigned read
  | noEnd head letter assigned read ended => exact noticed_lineEnd head letter assigned read ended

end Reader

end EfiLoader.Ini
