import EfiLoader.Proofs.Ini.Lines
import EfiLoader.Proofs.Ini.Progress
import EfiLoader.Settings

/-!
The reader as an index into its text. Lines, columns and bytes are counted in machine words, bytes
are looked up and cut out by their numbers, and loops go byte by byte; a count that leaves its word
and a cut that does not lie in the text are crashes.
-/

namespace EfiLoader.Ini

/-- A text, and the place in it. -/
structure Cursor where
  text : Bytes
  place : Place
  deriving DecidableEq, Repr

namespace Cursor

def ofBytes (text : Bytes) : Cursor := ⟨text.takeWhile (· != 0), .start⟩

def peek (c : Cursor) : Option UInt8 := c.text[c.place.offset]?

/-- All counts are machine words. -/
def Fits (place : Place) : Prop :=
  place.line < UInt64.size ∧ place.column < UInt64.size ∧ place.offset < UInt64.size

instance (place : Place) : Decidable (Fits place) := inferInstanceAs (Decidable (_ ∧ _))

/-- The place behind the byte. -/
def behind (c : Cursor) : Place :=
  if c.peek = some newline then ⟨c.place.line + 1, 1, c.place.offset + 1⟩
  else ⟨c.place.line, c.place.column + 1, c.place.offset + 1⟩

/-- One byte further. -/
def bump (c : Cursor) : Option Cursor := if Fits c.behind then some ⟨c.text, c.behind⟩ else none

/-- The bytes from one number to another. -/
def cut (c : Cursor) (first last : Nat) : Option Bytes :=
  if first ≤ last ∧ last ≤ c.text.length then some (c.text.slice first (last - first)) else none

theorem of_bump {c c' : Cursor} (moved : c.bump = some c') :
    c'.text = c.text ∧ c'.place.offset = c.place.offset + 1 := by
  unfold bump at moved
  split at moved
  · cases moved
    refine ⟨rfl, ?_⟩
    unfold behind
    split <;> rfl
  · cases moved

theorem lt_of_peek {c : Cursor} {byte : UInt8} (here : c.peek = some byte) :
    c.place.offset < c.text.length := (List.getElem?_eq_some_iff.mp here).1

/-- Goes on as long as `p` takes the byte. -/
def skipWhile (p : UInt8 → Bool) (c : Cursor) : Option Cursor :=
  if c.peek.any p then
    match _moved : c.bump with
    | none => none
    | some c' => c'.skipWhile p
  else some c
termination_by c.text.length - c.place.offset
decreasing_by
  rename_i takes
  obtain ⟨byte, here, -⟩ := (Option.any_eq_true ..).mp takes
  obtain ⟨text, offset⟩ := of_bump _moved
  have inside := lt_of_peek here
  rw [text, offset]
  omega

theorem of_skipWhile {p : UInt8 → Bool} {c c' : Cursor} (moved : c.skipWhile p = some c') :
    c'.text = c.text ∧ c.place.offset ≤ c'.place.offset := by
  fun_induction skipWhile p c with
  | case1 => cases moved
  | case2 c _ next step ih =>
    obtain ⟨text, offset⟩ := ih moved
    obtain ⟨text', offset'⟩ := of_bump step
    exact ⟨text.trans text', by omega⟩
  | case3 =>
    cases moved
    exact ⟨rfl, Nat.le_refl _⟩

def skipBlanks : Cursor → Option Cursor := skipWhile isSpace

def skipComment (c : Cursor) : Option Cursor :=
  if c.peek = some hash then c.skipWhile (· != newline) else some c

theorem of_skipLine {c c' : Cursor} (moved : c.skipBlanks.bind skipComment = some c') :
    c'.text = c.text ∧ c.place.offset ≤ c'.place.offset := by
  obtain ⟨gap, blanks, comment⟩ := Option.bind_eq_some_iff.mp moved
  obtain ⟨text, offset⟩ := of_skipWhile blanks
  unfold skipComment at comment
  split at comment
  · obtain ⟨text', offset'⟩ := of_skipWhile comment
    exact ⟨text'.trans text, by omega⟩
  · cases comment
    exact ⟨text, offset⟩

/-- Goes over blank lines and comment lines. -/
def skipTrivia (c : Cursor) : Option Cursor :=
  match _skipped : c.skipBlanks.bind skipComment with
  | none => none
  | some stop =>
    if stop.peek = some newline then
      match _moved : stop.bump with
      | none => none
      | some c' => c'.skipTrivia
    else some stop
termination_by c.text.length - c.place.offset
decreasing_by
  rename_i feed
  have inside := lt_of_peek feed
  obtain ⟨text, offset⟩ := of_skipLine _skipped
  obtain ⟨text', offset'⟩ := of_bump _moved
  rw [text] at inside text'
  rw [text', offset']
  omega

def word (c : Cursor) : Option (Bytes × Cursor) := do
  let stop ← c.skipWhile isNameByte
  return (← stop.cut c.place.offset stop.place.offset, stop)

def value (c : Cursor) : Option (Except Error Bytes × Cursor) :=
  match c.peek with
  | some byte =>
    if byte = quote then do
      let inside ← c.bump
      let close ← inside.skipWhile fun b => b != quote && b != newline
      if close.peek = some quote then
        return (.ok (← close.cut inside.place.offset close.place.offset), ← close.bump)
      else return (.error ⟨.openQuote, c.place⟩, close)
    else if isNameByte byte then do
      let (value, stop) ← c.word
      return (.ok value, stop)
    else return (.error ⟨.missingValue, c.place⟩, c)
  | none => return (.error ⟨.missingValue, c.place⟩, c)

/-- Takes what may follow a value on its line. -/
def endOfLine (c : Cursor) : Option (Except Error Unit × Cursor) := do
  let tail ← c.skipBlanks.bind skipComment
  match tail.peek with
  | none => return (.ok (), tail)
  | some byte =>
    if byte = newline then return (.ok (), ← tail.bump)
    else return (.error ⟨.strayByte, tail.place⟩, tail)

def next (c : Cursor) : Option (Except Error (Option Pair) × Cursor) := do
  let start ← c.skipTrivia
  match start.peek with
  | none => return (.ok none, start)
  | some first =>
    if isLetter first then
      let (key, stop) ← start.word
      let gap ← stop.skipBlanks
      if gap.peek = some assign then
        match ← (← (← gap.bump).skipBlanks).value with
        | (.error e, c) => return (.error e, c)
        | (.ok value, c) =>
          match ← c.endOfLine with
          | (.error e, c) => return (.error e, c)
          | (.ok (), c) => return (.ok (some ⟨key, value⟩), c)
      else return (.error ⟨.missingAssign, gap.place⟩, gap)
    else
      return (.error ⟨if isNameByte first then .badKey else .strayByte, start.place⟩, start)

/-- The answers of some calls in a row. -/
def calls : Nat → Cursor → Option (List (Except Error (Option Pair)) × Cursor)
  | 0, c => some ([], c)
  | count + 1, c => do
    let (answer, c) ← c.next
    let (answers, c) ← c.calls count
    return (answer :: answers, c)

/-- The cursor where a reader of the text is. -/
def ofReader (text : Bytes) (r : Reader) : Cursor := ⟨text, r.place⟩

theorem skipWhile_eq (p : UInt8 → Bool) (c : Cursor) :
    c.skipWhile p = if c.peek.any p then c.bump.bind (skipWhile p) else some c := by
  rw [skipWhile]
  split
  · split <;> simp [*]
  · rfl

theorem skipTrivia_eq (c : Cursor) :
    c.skipTrivia = (c.skipBlanks.bind skipComment).bind fun stop =>
      if stop.peek = some newline then stop.bump.bind skipTrivia else some stop := by
  rw [skipTrivia]
  split
  · simp [*]
  · rename_i stop skipped
    rw [skipped, Option.bind_some]
    split
    · split <;> simp [*]
    · rfl

theorem fits_past {bytes : Bytes} (short : bytes.length + 1 < UInt64.size) :
    Fits (Place.start.past bytes) := by
  have feeds : bytes.count newline ≤ bytes.length := List.count_le_length
  have last : (bytes.reverse.takeWhile (· != newline)).length ≤ bytes.length := by
    simpa using (List.takeWhile_prefix (l := bytes.reverse) (· != newline)).length_le
  rw [Place.start_past]
  refine ⟨?_, ?_, ?_⟩
  all_goals
    dsimp only
    omega

section OfReader

variable {text : Bytes} {r r' : Reader} {done : Bytes} {p : UInt8 → Bool}
  (room : text.length + 1 < UInt64.size) (within : (⟨text, .start⟩ : Reader).Reaches r)
include within

theorem peek_ofReader : (ofReader text r).peek = r.rest.head? := within.getElem?_offset

theorem cut_ofReader (passes : r.Passes done r') :
    (ofReader text r').cut r.place.offset r'.place.offset = some done := by
  obtain ⟨earlier, before⟩ := within
  have split : text = earlier ++ (done ++ r'.rest) := by
    rw [← passes.rest]
    exact before.rest
  have first : r.place.offset = earlier.length := by
    rw [before.offset]
    exact Nat.zero_add _
  rw [cut, passes.offset, first, ofReader, split, if_pos (by simp),
    Nat.add_sub_cancel_left, Bytes.slice, List.drop_left, List.take_left]

include room

theorem fits_place : Fits r.place := by
  obtain ⟨done, passes⟩ := within
  have split : text = done ++ r.rest := passes.rest
  rw [passes.place]
  apply fits_past
  rw [split, List.length_append] at room
  omega

theorem bump_ofReader (some : r.rest ≠ []) :
    (ofReader text r).bump = .some (ofReader text r.advance) := by
  obtain ⟨byte, rest, same⟩ := List.exists_cons_of_ne_nil some
  have place : r.advance.place = (ofReader text r).behind := by
    rw [behind, peek_ofReader within, same]
    simp only [List.head?_cons, Option.some.injEq]
    rw [Reader.advance, same]
    rfl
  have fits := fits_place room (within.trans (.advance r))
  rw [place] at fits
  rw [bump, if_pos fits, ← place]
  rfl

theorem skipWhile_ofReader (p : UInt8 → Bool) :
    (ofReader text r).skipWhile p = some (ofReader text (r.skip p)) := by
  generalize same : r.rest = rest
  induction rest generalizing r with
  | nil =>
    have stays := r.skip_of_stop (p := p) (by simp [same])
    rw [skipWhile_eq, peek_ofReader within, same, stays]
    rfl
  | cons byte rest ih =>
    rw [skipWhile_eq, peek_ofReader within, same]
    by_cases takes : p byte = true
    · have moved := ih (within.trans (.advance r)) (by simp [Reader.advance, same])
      have goes : r.skip p = r.advance.skip p := by
        simp [Reader.skip, Reader.taken, Reader.advance, same, takes, Place.past]
      rw [bump_ofReader room within (by simp [same]), goes, ← moved]
      simp [takes]
    · have stays := r.skip_of_stop (p := p) (by simp [same, takes])
      rw [stays]
      simp [takes]

theorem skipBlanks_ofReader : (ofReader text r).skipBlanks = some (ofReader text r.pastSpaces) :=
  skipWhile_ofReader room within isSpace

theorem skipLine_ofReader :
    (ofReader text r).skipBlanks.bind skipComment =
      some (ofReader text r.pastSpaces.pastComment) := by
  have blanks := within.trans (.pastSpaces r)
  rw [skipBlanks_ofReader room within, Option.bind_some, skipComment, peek_ofReader blanks,
    Reader.pastComment]
  split
  · exact skipWhile_ofReader room blanks _
  · rfl

theorem skipTrivia_ofReader :
    (ofReader text r).skipTrivia = some (ofReader text r.pastEmptyLines) := by
  fun_induction Reader.pastEmptyLines r with
  | case1 r line feed ih =>
    have ended := within.trans ((Reader.Reaches.pastSpaces r).trans (.pastComment _))
    have remains : line.rest ≠ [] := by
      intro none
      rw [none] at feed
      cases feed
    rw [skipTrivia_eq, skipLine_ofReader room within, Option.bind_some, peek_ofReader ended,
      if_pos feed, bump_ofReader room ended remains]
    exact ih (ended.trans (.advance line))
  | case2 r line other =>
    have ended := within.trans ((Reader.Reaches.pastSpaces r).trans (.pastComment _))
    rw [skipTrivia_eq, skipLine_ofReader room within, Option.bind_some, peek_ofReader ended,
      if_neg other]

theorem word_ofReader :
    (ofReader text r).word = some (r.taken isNameByte, ofReader text (r.skip isNameByte)) := by
  have key := cut_ofReader within (.skip r isNameByte)
  simp only [word, skipWhile_ofReader room within, Option.bind_eq_bind, Option.bind_some]
  exact Option.bind_eq_some_iff.mpr ⟨_, key, rfl⟩

theorem value_ofReader :
    (ofReader text r).value = some (r.readValue.1, ofReader text r.readValue.2) := by
  have inside := within.trans (.advance r)
  rw [value, peek_ofReader within, Reader.readValue]
  cases head : r.rest.head? with
  | none => rfl
  | some byte =>
    have remains : r.rest ≠ [] := fun none => by simp [none] at head
    dsimp only
    by_cases quoted : byte = quote
    · have ended := inside.trans (.skip _ fun b => b != quote && b != newline)
      have value := cut_ofReader inside (.skip _ fun b => b != quote && b != newline)
      rw [if_pos quoted, if_pos quoted]
      simp only [bump_ofReader room within remains, skipWhile_ofReader room inside,
        peek_ofReader ended, Option.bind_eq_bind, Option.bind_some]
      split
      · rename_i closed
        have more : (r.advance.skip fun b => b != quote && b != newline).rest ≠ [] := fun none => by
          simp [none] at closed
        rw [bump_ofReader room ended more]
        exact Option.bind_eq_some_iff.mpr ⟨_, value, rfl⟩
      · rfl
    · rw [if_neg quoted, if_neg quoted]
      split
      · rw [word_ofReader room within]
        rfl
      · rfl

theorem endOfLine_ofReader :
    (ofReader text r).endOfLine = some (r.readLineEnd.1, ofReader text r.readLineEnd.2) := by
  have ended := within.trans ((Reader.Reaches.pastSpaces r).trans (.pastComment _))
  simp only [endOfLine, skipLine_ofReader room within, peek_ofReader ended, Option.bind_eq_bind,
    Option.bind_some, Reader.readLineEnd]
  cases head : r.pastSpaces.pastComment.rest.head? with
  | none => rfl
  | some byte =>
    have remains : r.pastSpaces.pastComment.rest ≠ [] := fun none => by simp [none] at head
    dsimp only
    split
    · rw [bump_ofReader room ended remains]
      rfl
    · rfl

theorem next_ofReader :
    (ofReader text r).next = some (r.next.1, ofReader text r.next.2) := by
  have started := within.trans (.pastEmptyLines r)
  rw [Reader.next_eq, Reader.pairAt]
  simp only [next, skipTrivia_ofReader room within, peek_ofReader started, Option.bind_eq_bind,
    Option.bind_some]
  generalize r.pastEmptyLines = start at started
  cases head : start.rest.head? with
  | none => rfl
  | some first =>
    have named := started.trans (.skip start isNameByte)
    have gap := started.trans (.pastName start)
    have spaced : (ofReader text (start.skip isNameByte)).skipBlanks =
        some (ofReader text start.pastName) := skipBlanks_ofReader room named
    dsimp only
    split
    · simp only [word_ofReader room started, spaced, peek_ofReader gap, Option.bind_some]
      split
      · rename_i assigned
        have remains : start.pastName.rest ≠ [] := fun none => by simp [none] at assigned
        have sign := gap.trans (.advance _)
        have valued := sign.trans (.pastSpaces _)
        have last := valued.trans (.readValue _)
        simp only [bump_ofReader room gap remains, skipBlanks_ofReader room sign,
          value_ofReader room valued, Option.bind_some]
        rcases read : start.pastName.advance.pastSpaces.readValue with ⟨e | value, behind⟩
        · rfl
        · rw [read] at last
          dsimp only at last ⊢
          rw [endOfLine_ofReader room last]
          rcases ended : behind.readLineEnd with ⟨e | _, after⟩ <;> rfl
      · rfl
    · rfl

theorem calls_ofReader (count : Nat) :
    (ofReader text r).calls count = some (r.replies count, ofReader text (r.after count)) := by
  induction count generalizing r with
  | zero => rfl
  | succ count ih =>
    rw [calls, next_ofReader room within, Option.bind_eq_bind, Option.bind_some]
    simp only [ih (within.trans (.next r)), Option.bind_eq_bind, Option.bind_some, r.after_next]
    rfl

end OfReader

end Cursor

end EfiLoader.Ini

namespace EfiLoader

open Ini (Cursor Reader)

/-- Applies one pair of a text after another, in at most so many calls of the reader. -/
def Settings.readWithin : Nat → Settings → Cursor → Option Settings
  | 0, _, _ => none
  | calls + 1, settings, c => do
    match ← c.next with
    | (.ok (some pair), c) => readWithin calls (settings.apply pair) c
    | _ => return settings

/-- As many calls as there are bytes, and one, are enough for all pairs. -/
theorem Settings.readWithin_ofReader {text : Bytes} {r : Reader} {calls : Nat}
    (room : text.length + 1 < UInt64.size) (within : (⟨text, .start⟩ : Reader).Reaches r)
    (enough : r.rest.length < calls) (settings : Settings) :
    settings.readWithin calls (.ofReader text r) = some (r.pairs.1.foldl apply settings) := by
  induction calls generalizing r settings with
  | zero => exact absurd enough (Nat.not_lt_zero _)
  | succ calls ih =>
    have later := within.trans (.next r)
    rw [readWithin, Cursor.next_ofReader room within, Option.bind_eq_bind, Option.bind_some]
    rcases read : r.next with ⟨e | _ | pair, after⟩
    · rw [Reader.pairs_of_error read]
      rfl
    · rw [Reader.pairs_of_none read]
      rfl
    · have shorter := Reader.length_next_lt read
      rw [read] at later
      have few : after.rest.length < calls := by omega
      rw [Reader.pairs_of_pair read]
      exact ih later few _

namespace Ini

/-- **Reading a settings text settles.** On every text that memory can hold, no call of the reader
crashes, however many there are; it never goes back nor past the end of the text, and it goes on
with every answer that is given behind a key. A call that does not go on is answered alike by all
later ones, so that all answers are alike after at most one call more than there are bytes, and the
loop that applies the pairs to the settings ends by then. -/
theorem reading_settles (text : Bytes) (room : text.length < UInt64.size / 2) :
    let whole := text.takeWhile (· != 0)
    let r := Reader.ofBytes text
    let position := fun calls => (r.after calls).place.offset
    (∀ calls, (Cursor.ofBytes text).calls calls =
      some ((List.range calls).map r.answer, ⟨whole, (r.after calls).place⟩)) ∧
    (∀ calls, position calls ≤ position (calls + 1) ∧ position calls ≤ whole.length) ∧
    (∀ calls, Reader.BehindKey (r.answer calls) → position calls < position (calls + 1)) ∧
    (∀ calls later, position (calls + 1) = position calls → calls ≤ later →
      r.answer later = r.answer calls) ∧
    (∃ calls ≤ whole.length, ∀ later, calls ≤ later → r.answer later = r.answer calls) ∧
    Settings.readWithin (whole.length + 1) {} (Cursor.ofBytes text) =
      some (Settings.parse text) := by
  intro whole r position
  have shorter : whole.length ≤ text.length := (List.takeWhile_prefix _).length_le
  have fits : whole.length + 1 < UInt64.size := by omega
  have start : (⟨whole, .start⟩ : Reader).Reaches r := .refl r
  have stays (calls later : Nat) (stationary : position (calls + 1) = position calls)
      (le : calls ≤ later) : r.answer later = r.answer calls := by
    rw [Reader.answer, r.after_of_stationary stationary le, Reader.answer]
  refine ⟨fun calls => ?_, fun calls => ⟨?_, ?_⟩, fun calls behind => ?_, stays, ?_, ?_⟩
  · rw [← r.replies_eq]
    exact Cursor.calls_ofReader fits start calls
  · dsimp only [position]
    rw [r.after_succ]
    exact (Reader.Reaches.next _).offset_le
  · have all := (r.reaches_after calls).offset_add_length
    have before : r.place.offset = 0 := rfl
    have remains : r.rest.length = whole.length := rfl
    dsimp only [position]
    omega
  · dsimp only [position]
    rw [r.after_succ]
    exact Reader.next_moves behind
  · obtain ⟨calls, le, stationary⟩ := r.exists_stationary
    exact ⟨calls, le, fun later => stays calls later stationary⟩
  · exact Settings.readWithin_ofReader fits start (Nat.lt_succ_self _) {}

/-- Behind a pair and a key without a value, and then at the end. -/
theorem reading_settles_stuck :
    let text := Bytes.utf8 "paint_screen = no\nb\n"
    let r := Reader.ofBytes text
    text.length < UInt64.size / 2 ∧
      (Cursor.ofBytes text).calls 4 = some
        ([.ok (some ⟨Bytes.utf8 "paint_screen", Bytes.utf8 "no"⟩),
          .error ⟨.missingAssign, ⟨2, 2, 19⟩⟩, .ok none, .ok none], ⟨text, ⟨3, 1, 20⟩⟩) ∧
      (∀ later, 3 ≤ later → r.answer later = .ok none) ∧
      Settings.readWithin 21 {} (Cursor.ofBytes text) = some { paintScreen := false } := by
  intro text r
  have room : text.length < UInt64.size / 2 := by decide
  obtain ⟨calls, -, -, stays, -, loop⟩ := reading_settles text room
  refine ⟨room, ?_, ?_, ?_⟩
  · rw [calls]
    decide +kernel
  · intro later le
    rw [stays 3 later (by decide +kernel) le]
    decide +kernel
  · exact loop.trans (by decide +kernel)

end Ini

end EfiLoader
