import EfiLoader.Ini.Reader

/-!
The reader on one line of a text. What the bytes of a line make it do does not depend on the lines
behind them: reading a text is reading its first line, and then the rest from there
(`OnLine.next_before`, `OnLine.next_before_empty`). On a line the reader stays in it, and so do the
errors that it tells (`Stays`).
-/

namespace EfiLoader.Ini

section Runs

variable {α : Type} {p : α → Bool} {xs ys : List α}

theorem takeWhile_of_stop (stop : ∀ y, ys.head? = some y → p y = false) :
    ys.takeWhile p = [] := by
  cases ys with
  | nil => rfl
  | cons y rest => simp [stop y rfl]

theorem dropWhile_of_stop (stop : ∀ y, ys.head? = some y → p y = false) :
    ys.dropWhile p = ys := by
  cases ys with
  | nil => rfl
  | cons y rest => simp [stop y rfl]

theorem takeWhile_append_of_stop (stop : ∀ y, ys.head? = some y → p y = false) :
    (xs ++ ys).takeWhile p = xs.takeWhile p := by
  induction xs with
  | nil => exact takeWhile_of_stop stop
  | cons x rest ih =>
    rw [List.cons_append, List.takeWhile_cons, List.takeWhile_cons, ih]

theorem dropWhile_append_of_stop (stop : ∀ y, ys.head? = some y → p y = false) :
    (xs ++ ys).dropWhile p = xs.dropWhile p ++ ys := by
  induction xs with
  | nil => exact dropWhile_of_stop stop
  | cons x rest ih =>
    rw [List.cons_append, List.dropWhile_cons, List.dropWhile_cons, ih]
    split <;> rfl

end Runs

theorem Place.past_line {bytes : Bytes} (noFeed : newline ∉ bytes) (place : Place) :
    (place.past bytes).line = place.line := by
  induction bytes generalizing place with
  | nil => rfl
  | cons byte rest ih =>
    have other : byte ≠ 10 := fun same => noFeed (by rw [same]; exact List.mem_cons_self)
    have later : newline ∉ rest := fun feed => noFeed (List.mem_cons_of_mem _ feed)
    have kept : (place.step byte).line = place.line := by rw [step, if_neg other]
    rw [past, List.foldl_cons]
    exact (ih later _).trans kept

/-- Nothing, or a text from the end of a line on. -/
def FromLineEnd (tail : Bytes) : Prop := ∀ byte, tail.head? = some byte → byte = newline

namespace FromLineEnd

theorem nil : FromLineEnd [] := nofun

theorem feed (rest : Bytes) : FromLineEnd (newline :: rest) := by
  intro byte first
  exact (Option.some.inj first).symm

theorem stop {tail : Bytes} (ends : FromLineEnd tail) {p : UInt8 → Bool}
    (refuses : p newline = false) : ∀ byte, tail.head? = some byte → p byte = false := by
  intro byte first
  rw [ends byte first]
  exact refuses

end FromLineEnd

namespace Reader

/-- The reader with more text behind its own. -/
def before (r : Reader) (tail : Bytes) : Reader := ⟨r.rest ++ tail, r.place⟩

@[simp] theorem before_rest (r : Reader) (tail : Bytes) :
    (r.before tail).rest = r.rest ++ tail := rfl

@[simp] theorem before_place (r : Reader) (tail : Bytes) : (r.before tail).place = r.place := rfl

@[simp] theorem before_nil (r : Reader) : r.before [] = r := by
  rw [before, List.append_nil]

section Before

variable {tail : Bytes} {p : UInt8 → Bool}

theorem taken_before (stop : ∀ byte, tail.head? = some byte → p byte = false) (r : Reader) :
    (r.before tail).taken p = r.taken p := takeWhile_append_of_stop stop

theorem skip_before (stop : ∀ byte, tail.head? = some byte → p byte = false) (r : Reader) :
    (r.before tail).skip p = (r.skip p).before tail := by
  rw [skip, taken_before stop, before_rest, dropWhile_append_of_stop stop]
  rfl

theorem head?_before (ends : FromLineEnd tail) {byte : UInt8} (other : byte ≠ newline)
    (r : Reader) : (r.before tail).rest.head? = some byte ↔ r.rest.head? = some byte := by
  cases same : r.rest with
  | cons first rest => simp [same]
  | nil =>
    simp only [before_rest, same, List.nil_append, List.head?_nil, reduceCtorEq, iff_false]
    intro first
    exact other (ends byte first)

theorem advance_before {r : Reader} (some : r.rest ≠ []) :
    (r.before tail).advance = r.advance.before tail := by
  cases same : r.rest with
  | nil => exact absurd same some
  | cons first rest => simp [advance, before, same]

variable (ends : FromLineEnd tail)
include ends

theorem pastSpaces_before (r : Reader) :
    (r.before tail).pastSpaces = r.pastSpaces.before tail :=
  skip_before (ends.stop rfl) r

theorem pastName_before (r : Reader) : (r.before tail).pastName = r.pastName.before tail := by
  rw [pastName, skip_before (ends.stop rfl), pastSpaces_before ends]
  rfl

theorem pastComment_before (r : Reader) :
    (r.before tail).pastComment = r.pastComment.before tail := by
  have starts := head?_before ends (show hash ≠ newline by decide) r
  by_cases comment : r.rest.head? = some hash
  · rw [pastComment, if_pos (starts.mpr comment), pastComment, if_pos comment,
      skip_before (ends.stop rfl)]
  · rw [pastComment, if_neg (mt starts.mp comment), pastComment, if_neg comment]

theorem readValue_before (r : Reader) :
    (r.before tail).readValue = (r.readValue.1, r.readValue.2.before tail) := by
  cases same : r.rest with
  | nil =>
    have nothing : r.readValue = (.error ⟨.missingValue, r.place⟩, r) := by
      simp [readValue, same]
    rw [nothing]
    cases first : tail.head? with
    | none => simp [readValue, same, first]
    | some byte =>
      have feed : byte = newline := ends byte first
      have unquoted : ¬ newline = quote := by decide
      have unnamed : ¬ isNameByte newline = true := by decide
      simp [readValue, same, first, feed, unquoted, unnamed]
  | cons byte rest =>
    have some : r.rest ≠ [] := by simp [same]
    have head : r.rest.head? = .some byte := by simp [same]
    have head' : (r.before tail).rest.head? = .some byte := by simp [same]
    by_cases quoted : byte = quote
    · have closes := head?_before ends (show quote ≠ newline by decide)
        (r.advance.skip fun b => b != quote && b != newline)
      simp only [readValue, head, head', if_pos quoted, advance_before some,
        skip_before (ends.stop (p := fun b => b != quote && b != newline) rfl),
        taken_before (ends.stop (p := fun b => b != quote && b != newline) rfl)]
      by_cases closed : (r.advance.skip fun b => b != quote && b != newline).rest.head? =
          .some quote
      · have remains : (r.advance.skip fun b => b != quote && b != newline).rest ≠ [] := by
          intro empty
          rw [empty] at closed
          cases closed
        rw [if_pos (closes.mpr closed), if_pos closed, advance_before remains]
      · rw [if_neg (mt closes.mp closed), if_neg closed]
        rfl
    · simp only [readValue, head, head', if_neg quoted,
        skip_before (ends.stop (p := isNameByte) rfl),
        taken_before (ends.stop (p := isNameByte) rfl)]
      split <;> rfl

end Before

/-- A reader that has no line feed in front of it, on the line of that number. -/
structure OnLine (number : Nat) (r : Reader) : Prop where
  noFeed : newline ∉ r.rest
  line : r.place.line = number

/-- The reader is left on its line, and an error is one of that line. -/
structure Stays {α : Type} (number : Nat) (result : Except Error α × Reader) : Prop where
  after : result.2.OnLine number
  error : ∀ e, result.1 = .error e → e.place.line = number

namespace Stays

variable {α : Type} {number : Nat} {after : Reader}

theorem done {value : α} (on : after.OnLine number) :
    Stays number ((.ok value, after) : Except Error α × Reader) := ⟨on, nofun⟩

theorem told {e : Error} (on : after.OnLine number) (line : e.place.line = number) :
    Stays number ((.error e, after) : Except Error α × Reader) := by
  refine ⟨on, ?_⟩
  intro _ same
  cases same
  exact line

end Stays

namespace OnLine

variable {number : Nat} {r : Reader} (on : r.OnLine number)
include on

theorem skip (p : UInt8 → Bool) : (r.skip p).OnLine number where
  noFeed feed := on.noFeed ((List.dropWhile_suffix p).subset feed)
  line := by
    have noFeed : newline ∉ r.taken p := fun feed =>
      on.noFeed ((List.takeWhile_prefix p).subset feed)
    exact (Place.past_line noFeed r.place).trans on.line

theorem advance : r.advance.OnLine number where
  noFeed feed := on.noFeed (List.mem_of_mem_drop feed)
  line := by
    have noFeed : newline ∉ r.rest.take 1 := fun feed => on.noFeed (List.mem_of_mem_take feed)
    exact (Place.past_line noFeed r.place).trans on.line

theorem pastSpaces : r.pastSpaces.OnLine number := on.skip _

theorem pastName : r.pastName.OnLine number := (on.skip _).pastSpaces

theorem pastComment : r.pastComment.OnLine number := by
  unfold Reader.pastComment
  split
  · exact on.skip _
  · exact on

theorem head?_ne_feed : r.rest.head? ≠ some newline := fun first =>
  on.noFeed (List.mem_of_mem_head? first)

theorem pastEmptyLines_eq : r.pastEmptyLines = r.pastSpaces.pastComment := by
  rw [Reader.pastEmptyLines]
  exact if_neg on.pastSpaces.pastComment.head?_ne_feed

theorem pastEmptyLines : r.pastEmptyLines.OnLine number := by
  rw [on.pastEmptyLines_eq]
  exact on.pastSpaces.pastComment

theorem readValue : Stays number r.readValue := by
  unfold Reader.readValue
  split
  · dsimp only
    split
    · split
      · exact .done (on.advance.skip _).advance
      · exact .told (on.advance.skip _) on.line
    · split
      · exact .done (on.skip _)
      · exact .told on on.line
  · exact .told on on.line

theorem readLineEnd : Stays number r.readLineEnd := by
  have ended := on.pastSpaces.pastComment
  unfold Reader.readLineEnd
  dsimp only
  split
  · exact .done ended
  · split
    · exact .done ended.advance
    · exact .told ended ended.line

end OnLine

theorem advance_of_empty {r : Reader} (empty : r.rest = []) : r.advance = r := by
  cases r with
  | mk rest place => subst empty; rfl

/-- What comes of reading a line to its end, when there is more text behind it: the reader goes
past the line feed, or stops in the line with an error. -/
def thenFeed {α : Type} (tail : Bytes) :
    Except Error α × Reader → Except Error α × Reader
  | (.ok value, r) => (.ok value, (r.before tail).advance)
  | (.error e, r) => (.error e, r.before tail)

section LineEnd

variable {number : Nat} {r : Reader} (on : r.OnLine number)
include on

theorem OnLine.ne_feed {byte : UInt8} {rest : Bytes} (same : r.rest = byte :: rest) :
    ¬ byte = newline := by
  intro feed
  apply on.noFeed
  rw [same, feed]
  exact List.mem_cons_self

/-- Nothing but spaces and a comment may end a line. -/
theorem OnLine.readLineEnd_eq :
    r.readLineEnd =
      if r.pastSpaces.pastComment.rest = [] then (.ok (), r.pastSpaces.pastComment)
      else (.error ⟨.strayByte, r.pastSpaces.pastComment.place⟩, r.pastSpaces.pastComment) := by
  have stops := on.pastSpaces.pastComment
  simp only [Reader.readLineEnd]
  generalize r.pastSpaces.pastComment = line at stops
  cases same : line.rest with
  | nil => simp
  | cons byte rest => simp [stops.ne_feed same]

theorem OnLine.readLineEnd_before {tail : Bytes} (ends : FromLineEnd tail) :
    (r.before tail).readLineEnd = thenFeed tail r.readLineEnd := by
  have stops := on.pastSpaces.pastComment
  rw [on.readLineEnd_eq]
  simp only [Reader.readLineEnd, pastSpaces_before ends, pastComment_before ends]
  generalize r.pastSpaces.pastComment = line at stops
  cases same : line.rest with
  | nil =>
    cases first : tail.head? with
    | none =>
      have none : (line.before tail).rest = [] := by simpa [same] using first
      simp [same, first, thenFeed, advance_of_empty none]
    | some byte =>
      have feed : byte = newline := ends byte first
      simp [same, first, feed, thenFeed]
  | cons byte rest => simp [same, stops.ne_feed same, thenFeed]

theorem OnLine.rest_of_readLineEnd {after : Reader} (read : r.readLineEnd = (.ok (), after)) :
    after.rest = [] := by
  rw [on.readLineEnd_eq] at read
  split at read
  · cases read
    assumption
  · cases read

end LineEnd

/-- The pair that starts where the reader is, with no empty lines before it. -/
def pairAt (start : Reader) : Except Error (Option Pair) × Reader :=
  match start.rest.head? with
  | none => (.ok none, start)
  | some first =>
    if isLetter first then
      let gap := start.pastName
      if gap.rest.head? = some assign then
        match gap.advance.pastSpaces.readValue with
        | (.error e, r) => (.error e, r)
        | (.ok value, r) =>
          match r.readLineEnd with
          | (.error e, r) => (.error e, r)
          | (.ok (), r) => (.ok (some ⟨start.taken isNameByte, value⟩), r)
      else (.error ⟨.missingAssign, gap.place⟩, gap)
    else
      (.error ⟨if isNameByte first then .badKey else .strayByte, start.place⟩, start)

theorem next_eq (r : Reader) : r.next = r.pastEmptyLines.pairAt := rfl

/-- The ways to read what stands in front of the reader. -/
inductive Pairing (start : Reader) : Except Error (Option Pair) × Reader → Prop
  | ended (empty : start.rest = []) : Pairing start (.ok none, start)
  | noKey {first : UInt8} (head : start.rest.head? = some first)
      (other : ¬ isLetter first = true) :
      Pairing start
        (.error ⟨if isNameByte first then .badKey else .strayByte, start.place⟩, start)
  | noAssign {first : UInt8} (head : start.rest.head? = some first)
      (letter : isLetter first = true) (missing : start.pastName.rest.head? ≠ some assign) :
      Pairing start (.error ⟨.missingAssign, start.pastName.place⟩, start.pastName)
  | noValue {first : UInt8} {e : Error} {after : Reader}
      (head : start.rest.head? = some first) (letter : isLetter first = true)
      (assigned : start.pastName.rest.head? = some assign)
      (read : start.pastName.advance.pastSpaces.readValue = (.error e, after)) :
      Pairing start (.error e, after)
  | noEnd {first : UInt8} {value : Bytes} {e : Error} {behind after : Reader}
      (head : start.rest.head? = some first) (letter : isLetter first = true)
      (assigned : start.pastName.rest.head? = some assign)
      (read : start.pastName.advance.pastSpaces.readValue = (.ok value, behind))
      (ended : behind.readLineEnd = (.error e, after)) : Pairing start (.error e, after)
  | paired {first : UInt8} {value : Bytes} {behind after : Reader}
      (head : start.rest.head? = some first) (letter : isLetter first = true)
      (assigned : start.pastName.rest.head? = some assign)
      (read : start.pastName.advance.pastSpaces.readValue = (.ok value, behind))
      (ended : behind.readLineEnd = (.ok (), after)) :
      Pairing start (.ok (some ⟨start.taken isNameByte, value⟩), after)

theorem pairing (start : Reader) : Pairing start start.pairAt := by
  unfold pairAt
  cases head : start.rest.head? with
  | none => exact .ended (List.head?_eq_none_iff.mp head)
  | some first =>
    dsimp only
    by_cases letter : isLetter first = true
    · rw [if_pos letter]
      by_cases assigned : start.pastName.rest.head? = some assign
      · rw [if_pos assigned]
        rcases read : start.pastName.advance.pastSpaces.readValue with ⟨e | value, behind⟩
        · exact .noValue head letter assigned read
        · dsimp only
          rcases ended : behind.readLineEnd with ⟨e | _, after⟩
          · exact .noEnd head letter assigned read ended
          · exact .paired head letter assigned read ended
      · rw [if_neg assigned]
        exact .noAssign head letter assigned
    · rw [if_neg letter]
      exact .noKey head letter

theorem Pairing.eq {start : Reader} {result : Except Error (Option Pair) × Reader}
    (pairing : Pairing start result) : start.pairAt = result := by
  unfold pairAt
  cases pairing with
  | ended empty => rw [empty]; rfl
  | noKey head other => simp only [head, if_neg other]
  | noAssign head letter missing => simp only [head, if_pos letter, if_neg missing]
  | noValue head letter assigned read =>
    simp only [head, if_pos letter, if_pos assigned, read]
  | noEnd head letter assigned read ended | paired head letter assigned read ended =>
    simp only [head, if_pos letter, if_pos assigned, read, ended]

section OnLine

variable {number : Nat} {r : Reader} (on : r.OnLine number)
include on

/-- What stands on a line is read alike with any lines behind it. -/
theorem OnLine.pairAt_before {tail : Bytes} (ends : FromLineEnd tail) (some : r.rest ≠ []) :
    (r.before tail).pairAt = thenFeed tail r.pairAt := by
  have assign_ne : assign ≠ newline := by decide
  have head_before {first : UInt8} (head : r.rest.head? = .some first) :
      (r.before tail).rest.head? = .some first := by
    rw [before_rest, List.head?_append, head]
    rfl
  have value_before (assigned : r.pastName.rest.head? = .some assign) :
      (r.before tail).pastName.rest.head? = .some assign ∧
        (r.before tail).pastName.advance.pastSpaces.readValue =
          (r.pastName.advance.pastSpaces.readValue.1,
            r.pastName.advance.pastSpaces.readValue.2.before tail) := by
    have remains : r.pastName.rest ≠ [] := by
      intro empty
      rw [empty] at assigned
      cases assigned
    rw [pastName_before ends, advance_before remains, pastSpaces_before ends,
      readValue_before ends, head?_before ends assign_ne]
    exact ⟨assigned, rfl⟩
  have line_before {behind : Reader} (onLine : behind.OnLine number) :=
    onLine.readLineEnd_before ends
  have readsValue := on.pastName.advance.pastSpaces.readValue
  have read := pairing r
  generalize r.pairAt = result at read
  cases read with
  | ended empty => exact absurd empty some
  | noKey head other => exact (Pairing.noKey (head_before head) other).eq
  | noAssign head letter missing =>
    have missing' : (r.before tail).pastName.rest.head? ≠ .some assign := by
      rw [pastName_before ends]
      exact mt (head?_before ends assign_ne _).mp missing
    rw [(Pairing.noAssign (head_before head) letter missing').eq, pastName_before ends]
    rfl
  | noValue head letter assigned read =>
    obtain ⟨assigned', read'⟩ := value_before assigned
    rw [read] at read'
    exact (Pairing.noValue (head_before head) letter assigned' read').eq
  | noEnd head letter assigned read ended =>
    obtain ⟨assigned', read'⟩ := value_before assigned
    rw [read] at read' readsValue
    have ended' := line_before readsValue.after
    rw [ended] at ended'
    exact (Pairing.noEnd (head_before head) letter assigned' read' ended').eq
  | paired head letter assigned read ended =>
    obtain ⟨assigned', read'⟩ := value_before assigned
    rw [read] at read' readsValue
    have ended' := line_before readsValue.after
    rw [ended] at ended'
    rw [(Pairing.paired (head_before head) letter assigned' read' ended').eq,
      taken_before (ends.stop rfl)]
    rfl

theorem OnLine.pairAt : Stays number r.pairAt := by
  have readsValue := on.pastName.advance.pastSpaces.readValue
  have read := pairing r
  generalize r.pairAt = result at read
  cases read with
  | ended => exact .done on
  | noKey => exact .told on on.line
  | noAssign => exact .told on.pastName on.pastName.line
  | noValue _ _ _ read =>
    rw [read] at readsValue
    exact .told readsValue.after (readsValue.error _ rfl)
  | noEnd _ _ _ read ended =>
    rw [read] at readsValue
    have readsEnd := readsValue.after.readLineEnd
    rw [ended] at readsEnd
    exact .told readsEnd.after (readsEnd.error _ rfl)
  | paired _ _ _ read ended =>
    rw [read] at readsValue
    have readsEnd := readsValue.after.readLineEnd
    rw [ended] at readsEnd
    exact .done readsEnd.after

theorem OnLine.rest_of_pairAt {o : Option Pair} {after : Reader}
    (read : r.pairAt = (.ok o, after)) : after.rest = [] := by
  have readsValue := on.pastName.advance.pastSpaces.readValue
  have way := pairing r
  rw [read] at way
  cases way with
  | ended empty => exact empty
  | paired _ _ _ valued ended =>
    rw [valued] at readsValue
    exact readsValue.after.rest_of_readLineEnd ended

/-- The reader does not leave its line unless it is done with it. -/
theorem OnLine.next : Stays number r.next := by
  rw [next_eq]
  exact on.pastEmptyLines.pairAt

theorem OnLine.rest_of_next {o : Option Pair} {after : Reader} (read : r.next = (.ok o, after)) :
    after.rest = [] := by
  rw [next_eq] at read
  exact on.pastEmptyLines.rest_of_pairAt read

theorem OnLine.pastEmptyLines_before {tail : Bytes} (ends : FromLineEnd tail)
    (some : r.pastEmptyLines.rest ≠ []) :
    (r.before tail).pastEmptyLines = r.pastEmptyLines.before tail := by
  rw [on.pastEmptyLines_eq] at some ⊢
  have stays : (r.pastSpaces.pastComment.before tail).rest.head? ≠ .some newline := by
    obtain ⟨first, later, same⟩ := List.exists_cons_of_ne_nil some
    have noFeed := on.pastSpaces.pastComment.head?_ne_feed
    rw [same] at noFeed
    rw [before_rest, same]
    exact noFeed
  rw [Reader.pastEmptyLines, pastSpaces_before ends, pastComment_before ends]
  exact if_neg stays

/-- **A line with something on it is read as if it were alone.** -/
theorem OnLine.next_before {tail : Bytes} (ends : FromLineEnd tail)
    (some : r.pastEmptyLines.rest ≠ []) : (r.before tail).next = thenFeed tail r.next := by
  rw [next_eq, on.pastEmptyLines_before ends some, on.pastEmptyLines.pairAt_before ends some,
    next_eq]

/-- A line without anything on it is passed over. -/
theorem OnLine.next_before_empty {rest : Bytes} (empty : r.pastEmptyLines.rest = []) :
    (r.before (newline :: rest)).next =
      (r.pastEmptyLines.before (newline :: rest)).advance.next := by
  rw [on.pastEmptyLines_eq] at empty ⊢
  have feeds : (r.pastSpaces.pastComment.before (newline :: rest)).rest.head? =
      .some newline := by
    rw [before_rest, empty]
    rfl
  have ends := FromLineEnd.feed rest
  rw [next_eq, Reader.pastEmptyLines, pastSpaces_before ends, pastComment_before ends]
  rw [if_pos feeds, next_eq]

end OnLine

end Reader

end EfiLoader.Ini
