import EfiLoader.Proofs.Ini.Joining
import EfiLoader.Proofs.Ini.Lookahead

/-!
Where an error is noticed. What stands in front of a key is passed over whatever follows, so that an
error depends on the line it is on, from the key up to one byte ahead (`Reader.exists_stopped`).
Main statement: an error is noticed at the first byte that cannot go on to a text without an error
(`error_noticed_at_first`).
-/

namespace EfiLoader.Ini

/-- Whole lines, and the spaces at the start of another one. -/
inductive LineStart : Bytes → Prop
  | first {gap : Bytes} (blanks : Blanks gap) : LineStart gap
  | later (lines : Bytes) {gap : Bytes} (blanks : Blanks gap) : LineStart (lines ++ newline :: gap)

/-- The last line is a setting up to its value, and that has a quote which is not closed. The quote
stands behind so many bytes. -/
inductive QuoteOpen : Bytes → Nat → Prop
  | left {start front inner : Bytes} (lineStart : LineStart start) (assigning : Assigning front)
      (unquoted : quote ∉ inner) (noFeed : newline ∉ inner) :
      QuoteOpen (start ++ front ++ quote :: inner) (start ++ front).length

theorem LineStart.behind {done : Bytes} (lineStart : LineStart done) (line : Bytes) :
    LineStart (line ++ newline :: done) := by
  cases lineStart with
  | first blanks => exact .later line blanks
  | @later lines gap blanks =>
    have later := LineStart.later (line ++ newline :: lines) blanks
    rwa [List.append_assoc] at later

theorem Broken.quoteOpen {fault : Fault} {start front done : Bytes}
    (broken : Broken fault front done) (quoted : fault = .openQuote)
    (lineStart : LineStart start) : QuoteOpen (start ++ done) (start ++ front).length := by
  cases broken with
  | badKey | noKey | noAssign | noValue | noEnd => cases quoted
  | openQuote assigning unquoted noFeed =>
    rw [← List.append_assoc]
    exact .left lineStart assigning unquoted noFeed

/-- A text with no space, comment or line feed at its start. -/
def Fresh (text : Bytes) : Prop :=
  ∀ byte, text.head? = some byte → ¬ Blank byte ∧ byte ≠ hash ∧ byte ≠ newline

namespace Fresh

variable {text : Bytes} (fresh : Fresh text)
include fresh

theorem congr {text' : Bytes} (same : text'.head? = text.head?) : Fresh text' :=
  fun byte head => fresh byte (same ▸ head)

theorem pastComment_pastSpaces {gap : Bytes} (blanks : Blanks gap) (place : Place) :
    (⟨gap ++ text, place⟩ : Reader).pastSpaces.pastComment = ⟨text, place.past gap⟩ := by
  rw [Reader.pastSpaces_exact blanks fun byte head => (fresh byte head).1, Reader.pastComment,
    if_neg fun head => (fresh hash head).2.1 rfl]

theorem pastEmptyLines {gap : Bytes} (blanks : Blanks gap) (place : Place) :
    (⟨gap ++ text, place⟩ : Reader).pastEmptyLines = ⟨text, place.past gap⟩ := by
  rw [Reader.pastEmptyLines, fresh.pastComment_pastSpaces blanks]
  exact if_neg fun head => (fresh newline head).2.2 rfl

theorem next {gap : Bytes} (blanks : Blanks gap) (place : Place) :
    (⟨gap ++ text, place⟩ : Reader).next = (⟨text, place.past gap⟩ : Reader).pairAt := by
  rw [Reader.next_eq, fresh.pastEmptyLines blanks]

theorem pairs {gap : Bytes} (blanks : Blanks gap) (place : Place) :
    (⟨gap ++ text, place⟩ : Reader).pairs = (⟨text, place.past gap⟩ : Reader).pairs :=
  Reader.pairs_congr ((fresh.next blanks place).trans
    (fresh.next (List.forall_mem_nil _) (place.past gap)).symm)

end Fresh

namespace Reader

/-- The reader passes over `done` without an error, and tells one from what is in front of it
then. -/
structure Stopped (r : Reader) (e : Error) (done : Bytes) (start : Reader) : Prop where
  passes : r.Passes done start
  lineStart : LineStart done
  fresh : Fresh start.rest
  error : start.pairAt = (.error e, r.after (r.pairs.1.length + 1))
  other : ∀ text, Fresh text →
    (⟨done ++ text, r.place⟩ : Reader).pairs.2 = (⟨text, start.place⟩ : Reader).pairs.2

/-- A line in front that has no error, whatever is behind it. -/
theorem Stopped.behind {line done rest : Bytes} {place place' : Place} {e : Error} {start : Reader}
    (stopped : Stopped ⟨rest, place'⟩ e done start)
    (place_eq : place' = place.past (line ++ [newline]))
    (pairs : ∀ tail, (⟨line ++ newline :: tail, place⟩ : Reader).pairs.2 =
      (⟨tail, place'⟩ : Reader).pairs.2)
    (calls : (⟨line ++ newline :: rest, place⟩ : Reader).after
      ((⟨line ++ newline :: rest, place⟩ : Reader).pairs.1.length + 1) =
        (⟨rest, place'⟩ : Reader).after ((⟨rest, place'⟩ : Reader).pairs.1.length + 1)) :
    Stopped ⟨line ++ newline :: rest, place⟩ e (line ++ newline :: done) start where
  passes := by
    have first : (⟨line ++ newline :: rest, place⟩ : Reader).Passes (line ++ [newline])
        ⟨rest, place'⟩ := ⟨by simp, place_eq⟩
    have both := first.trans stopped.passes
    rwa [List.append_assoc] at both
  lineStart := stopped.lineStart.behind line
  fresh := stopped.fresh
  error := by rw [stopped.error, calls]
  other text fresh := by
    rw [List.append_assoc, List.cons_append, pairs, stopped.other text fresh]

theorem Passes.before {r r' : Reader} {done : Bytes} (passes : r.Passes done r') (tail : Bytes) :
    (r.before tail).Passes done (r'.before tail) where
  rest := by rw [before_rest, passes.rest, before_rest, List.append_assoc]
  place := passes.place

theorem Reaches.place_of_empty {r r' : Reader} (reaches : r.Reaches r') (empty : r'.rest = []) :
    r'.place = r.place.past r.rest := by
  obtain ⟨done, passes⟩ := reaches
  rw [passes.rest, empty, List.append_nil, passes.place]

theorem after_congr {r r' : Reader} (same : r.next = r'.next) (calls : Nat) :
    r.after (calls + 1) = r'.after (calls + 1) := by
  rw [← after_next, same, after_next]

section OnLine

variable {number : Nat} {r : Reader} (on : r.OnLine number)
include on

theorem OnLine.rest_ne_nil (other : r.next.1 ≠ .ok none) : r.pastEmptyLines.rest ≠ [] :=
  fun empty => other (on.next_eq_ok_iff.mpr (on.rest_pastEmptyLines_iff.mp empty))

/-- On the line of the error, behind its spaces. -/
theorem OnLine.stopped {tail : Bytes} (ends : FromLineEnd tail) {e : Error} {after : Reader}
    (read : r.next = (.error e, after)) :
    Stopped (r.before tail) e (r.taken isSpace) (r.pastSpaces.before tail) := by
  have remains := on.rest_ne_nil (by simp [read])
  have read' := on.next_before ends remains
  rw [read] at read'
  rw [on.pastEmptyLines_eq] at remains
  have noComment : r.pastSpaces.rest.head? ≠ some hash := by
    intro comment
    rw [Reader.pastComment, if_pos comment] at remains
    exact remains on.pastSpaces.skip_comment
  have stays : r.pastEmptyLines = r.pastSpaces := by
    rw [on.pastEmptyLines_eq, Reader.pastComment, if_neg noComment]
  rw [Reader.pastComment, if_neg noComment] at remains
  have fresh : Fresh r.pastSpaces.rest := by
    intro byte head
    refine ⟨fun blank => ?_, fun comment => noComment (comment ▸ head),
      fun feed => on.pastSpaces.head?_ne_feed (feed ▸ head)⟩
    rw [← isSpace_iff, stop_of_skip head] at blank
    cases blank
  have head : (r.pastSpaces.before tail).rest.head? = r.pastSpaces.rest.head? := by
    obtain ⟨first, others, same⟩ := List.exists_cons_of_ne_nil remains
    rw [before_rest, same]
    rfl
  refine ⟨(Passes.skip r isSpace).before tail, .first r.blanks_taken, fresh.congr head, ?_, ?_⟩
  · rw [on.pastSpaces.pairAt_before ends remains, ← stays, ← next_eq, read, pairs_of_error read']
    exact congrArg (Prod.mk _) (congrArg Prod.snd read').symm
  · intro text fresh
    rw [before_place, fresh.pairs r.blanks_taken]
    rfl

theorem OnLine.stopped_behind_empty {rest done : Bytes} {e : Error} {start : Reader}
    (empty : r.pastEmptyLines.rest = [])
    (stopped : Stopped ⟨rest, r.pastEmptyLines.place.step newline⟩ e done start) :
    Stopped (r.before (newline :: rest)) e (r.rest ++ newline :: done) start := by
  have next (tail : Bytes) : (r.before (newline :: tail)).next =
      (⟨tail, r.pastEmptyLines.place.step newline⟩ : Reader).next := by
    rw [on.next_before_empty empty, before, empty]
    rfl
  have place := (Reaches.pastEmptyLines r).place_of_empty empty
  refine stopped.behind ?_ (fun tail => ?_) ?_
  · rw [place, Place.past_append]
    rfl
  · exact congrArg Prod.snd (pairs_congr (next tail))
  · have same := next rest
    rw [before] at same
    rw [pairs_congr same, after_congr same]

theorem OnLine.stopped_behind_pair {rest done : Bytes} {e : Error} {start after : Reader}
    {pair : Pair} (read : r.next = (.ok (some pair), after))
    (stopped : Stopped ⟨rest, after.place.step newline⟩ e done start) :
    Stopped (r.before (newline :: rest)) e (r.rest ++ newline :: done) start := by
  have remains := on.rest_ne_nil (by simp [read])
  have ended : after.rest = [] := on.rest_of_next read
  have next (tail : Bytes) : (r.before (newline :: tail)).next =
      (.ok (some pair), ⟨tail, after.place.step newline⟩) := by
    rw [on.next_before (.feed tail) remains, read, thenFeed, before, ended]
    rfl
  have reaches := Reaches.next r
  rw [read] at reaches
  refine stopped.behind ?_ (fun tail => ?_) ?_
  · rw [reaches.place_of_empty ended, Place.past_append]
    rfl
  · have first := next tail
    rw [before] at first
    rw [pairs_of_pair first]
  · have first := next rest
    rw [before] at first
    rw [pairs_of_pair first, List.length_cons, ← after_next, first]

end OnLine

theorem pairs_of_empty {r : Reader} (empty : r.rest = []) : r.pairs.2 = none := by
  obtain ⟨rest, place⟩ := r
  subst empty
  exact Option.map_eq_none_iff.mp (congrArg Prod.snd (summary_nil place))

/-- Every error is told on a line of its own, behind lines without one. The induction is over the
lines. -/
theorem exists_stopped (text : Bytes) (place : Place) {e : Error}
    (told : (⟨text, place⟩ : Reader).pairs.2 = some e) :
    ∃ done start, Stopped ⟨text, place⟩ e done start := by
  induction text using lines_induction generalizing place with
  | last line noFeed =>
    have on : (⟨line, place⟩ : Reader).OnLine place.line := ⟨noFeed, rfl⟩
    rcases read : (⟨line, place⟩ : Reader).next with ⟨e' | _ | pair, after⟩
    · rw [pairs_of_error read] at told
      cases told
      have stopped := on.stopped .nil read
      rw [before_nil] at stopped
      exact ⟨_, _, stopped⟩
    · rw [pairs_of_none read] at told
      cases told
    · rw [pairs_of_pair read, pairs_of_empty (on.rest_of_next read)] at told
      cases told
  | before line rest noFeed ih =>
    have on : (⟨line, place⟩ : Reader).OnLine place.line := ⟨noFeed, rfl⟩
    by_cases empty : (⟨line, place⟩ : Reader).pastEmptyLines.rest = []
    · have same : (⟨line ++ newline :: rest, place⟩ : Reader).next = _ :=
        on.next_before_empty empty
      rw [before, empty] at same
      rw [pairs_congr same] at told
      obtain ⟨done, start, stopped⟩ := ih _ told
      exact ⟨_, _, on.stopped_behind_empty empty stopped⟩
    · have step := on.next_before (.feed rest) empty
      rcases read : (⟨line, place⟩ : Reader).next with ⟨e' | o, after⟩
      all_goals rw [read] at step
      · rw [before] at step
        rw [pairs_of_error step] at told
        cases told
        exact ⟨_, _, on.stopped (.feed rest) read⟩
      · cases o with
        | none => exact absurd (pairAt_eq_none_iff.mp (congrArg Prod.fst read)) empty
        | some pair =>
          rw [thenFeed, before, before, on.rest_of_next read] at step
          rw [pairs_of_pair step] at told
          obtain ⟨done, start, stopped⟩ := ih _ told
          exact ⟨_, _, on.stopped_behind_pair read stopped⟩

/-- The calls of a reading that ends with an error. -/
theorem replies_of_error {r : Reader} {e : Error} (told : r.pairs.2 = some e) :
    r.replies (r.pairs.1.length + 1) =
      r.pairs.1.map (fun pair => .ok (some pair)) ++ [.error e] := by
  generalize length : r.rest.length = count
  induction count using Nat.strongRecOn generalizing r with
  | ind count ih =>
    rcases read : r.next with ⟨e' | _ | pair, after⟩
    · rw [pairs_of_error read] at told ⊢
      cases told
      simp [replies, read]
    · rw [pairs_of_none read] at told
      cases told
    · have shorter := length_next_lt read
      rw [pairs_of_pair read] at told ⊢
      rw [List.length_cons, replies, read, ih _ (length ▸ shorter) told rfl]
      rfl

end Reader

theorem Setting.fresh {text : Bytes} {pair : Pair} (setting : Setting text pair) : Fresh text := by
  obtain ⟨first, head, letter⟩ := setting.head_letter
  intro byte same
  rw [head] at same
  cases same
  refine ⟨letter.nameByte.not_blank, ?_, ?_⟩
  all_goals
    rintro rfl
    revert letter
    unfold Letter
    decide

theorem Setting.sound {text : Bytes} {pair : Pair} (setting : Setting text pair)
    (noFeed : newline ∉ text) (place : Place) : (⟨text, place⟩ : Reader).pairs.2 = none := by
  have on : (⟨text, place⟩ : Reader).OnLine place.line := ⟨noFeed, rfl⟩
  have line : Line ([] ++ text) (some pair) := .setting (List.forall_mem_nil _) setting
  have read := on.next_eq_ok_iff.mpr line
  rcases whole : (⟨text, place⟩ : Reader).next with ⟨answer, after⟩
  rw [whole] at read
  cases read
  rw [Reader.pairs_of_pair whole, Reader.pairs_of_empty (on.rest_of_next whole)]

section Stopped

variable {r start : Reader} {e : Error} {done last : Bytes}
  (stopped : Reader.Stopped r e done start)
include stopped

/-- What was read before the error can go on to a text without one. -/
theorem Reader.Stopped.viable {fault : Fault} {front : Bytes} (broken : Broken fault front last) :
    ∃ more, 0 ∉ more ∧ (⟨done ++ last ++ more, r.place⟩ : Reader).pairs.2 = none := by
  obtain ⟨more, plain, noFeed, viable⟩ := broken.viable
  refine ⟨more, plain, ?_⟩
  rw [List.append_assoc]
  rcases viable with nothing | ⟨pair, setting⟩
  · rw [nothing, stopped.other [] nofun]
    exact pairs_of_empty rfl
  · rw [stopped.other _ setting.fresh]
    exact setting.sound noFeed _

/-- With the byte behind it, the error is the same. -/
theorem Reader.Stopped.refused (ahead : Reader.Ahead Reader.pairAt start last) {rest : Bytes}
    (same : rest.head? = (r.after (r.pairs.1.length + 1)).rest.head?) :
    (⟨done ++ last ++ rest, r.place⟩ : Reader).pairs.2 = some e := by
  have passes := ahead.passes
  have again := ahead.alike rest
  rw [stopped.error] at passes again
  have fresh := stopped.fresh.congr (passes.head same)
  rw [List.append_assoc, stopped.other _ fresh]
  have next := fresh.next (List.forall_mem_nil _) start.place
  have read := next.trans (again same)
  rw [List.nil_append] at read
  rw [pairs_of_error read]

end Stopped

/-- **An error is noticed at the first byte that cannot go on to a text without an error.** A text
whose pairs end with an error is read up to the place of that error, or, where a quote is not
closed, up to the end of the line or of the text. What is read can go on to a text without an
error. With one more byte it cannot, and all that goes on from there ends with the same error; if
there is no more byte, it is the text itself that does. -/
theorem error_noticed_at_first (text : Bytes) {e : Error}
    (told : (Reader.ofBytes text).pairs.2 = some e) :
    let whole := text.takeWhile (· != 0)
    let r := Reader.ofBytes text
    let calls := r.pairs.1.length + 1
    let place := (r.after calls).place
    let p := place.offset
    r.replies calls = r.pairs.1.map (fun pair => .ok (some pair)) ++ [.error e] ∧
    p ≤ whole.length ∧
    (e.fault ≠ .openQuote → e.place = place) ∧
    (e.fault = .openQuote → QuoteOpen (whole.take p) e.place.offset) ∧
    (∃ more, (Reader.ofBytes (whole.take p ++ more)).pairs.2 = none) ∧
    (p < whole.length → ∀ more,
      (Reader.ofBytes (whole.take (p + 1) ++ more)).pairs.2 = some e) ∧
    (p = whole.length → (Reader.ofBytes (whole.take p)).pairs.2 = some e) := by
  intro whole r calls place p
  obtain ⟨done, start, stopped⟩ := Reader.exists_stopped whole .start told
  obtain ⟨front, last, broken, placed, ahead⟩ :=
    Reader.noticed_of_error (congrArg Prod.fst stopped.error)
  have lastPassed := ahead.passes
  rw [stopped.error] at lastPassed
  have through : r.Passes (done ++ last) (r.after calls) := stopped.passes.trans lastPassed
  have offset : p = (done ++ last).length := through.offset.trans (Nat.zero_add _)
  have split : whole = done ++ last ++ (r.after calls).rest := through.rest
  have taken : whole.take p = done ++ last := by rw [split, offset, List.take_left]
  have plain : 0 ∉ whole := fun nul =>
    absurd (List.all_eq_true.mp List.all_takeWhile 0 nul) (by decide)
  have plainTake (count : Nat) : 0 ∉ whole.take count := fun nul =>
    plain (List.mem_of_mem_take nul)
  refine ⟨Reader.replies_of_error told, ?_, ?_, ?_, ?_, ?_, ?_⟩
  · have length := congrArg List.length split
    rw [List.length_append] at length
    omega
  · intro other
    rw [placed, broken.front_eq other]
    exact lastPassed.place.symm
  · intro quoted
    have before : e.place.offset = (done ++ front).length := by
      rw [placed, Place.past_offset, stopped.passes.offset, List.length_append]
      exact congrArg (· + front.length) (Nat.zero_add _)
    rw [taken, before]
    exact broken.quoteOpen quoted stopped.lineStart
  · obtain ⟨more, plainMore, sound⟩ := stopped.viable broken
    refine ⟨more, ?_⟩
    rw [ofBytes_plain (List.not_mem_append (plainTake p) plainMore), taken]
    exact sound
  · intro less more
    obtain ⟨byte, others, next⟩ : ∃ byte others, (r.after calls).rest = byte :: others := by
      refine List.exists_cons_of_ne_nil fun nothing => ?_
      rw [nothing, List.append_nil] at split
      rw [offset, split] at less
      exact Nat.lt_irrefl _ less
    have longer : whole.take (p + 1) = done ++ last ++ [byte] := by
      rw [List.take_add, taken, offset, split, List.drop_left, next]
      rfl
    have same : (byte :: more.takeWhile (· != 0)).head? = (r.after calls).rest.head? := by
      rw [next]
      rfl
    rw [Reader.ofBytes, takeWhile_plain (plainTake (p + 1)), longer, List.append_assoc]
    exact stopped.refused ahead same
  · intro all
    rw [all, List.take_length, ofBytes_plain plain]
    exact told

/-- Behind a pair, a quote is left open to the end of its line. -/
theorem error_noticed_at_first_quote :
    let text := Bytes.utf8 "a = 1\nb = \"x\nc = 2\n"
    let e : Error := ⟨.openQuote, ⟨2, 5, 10⟩⟩
    (Reader.ofBytes text).pairs.2 = some e ∧
      (Reader.ofBytes text).replies 2 = [.ok (some ⟨Bytes.utf8 "a", Bytes.utf8 "1"⟩), .error e] ∧
      QuoteOpen (Bytes.utf8 "a = 1\nb = \"x") 10 ∧
      (∃ more, (Reader.ofBytes (Bytes.utf8 "a = 1\nb = \"x" ++ more)).pairs.2 = none) ∧
      ∀ more, (Reader.ofBytes (Bytes.utf8 "a = 1\nb = \"x\n" ++ more)).pairs.2 = some e := by
  intro text e
  have told : (Reader.ofBytes text).pairs.2 = some e := by decide +kernel
  obtain ⟨replies, -, -, quoteOpen, viable, refused, -⟩ := error_noticed_at_first text told
  have offset : ((Reader.ofBytes text).after
      ((Reader.ofBytes text).pairs.1.length + 1)).place.offset = 12 := by decide +kernel
  rw [offset] at quoteOpen viable refused
  have read : (text.takeWhile (· != 0)).take 12 = Bytes.utf8 "a = 1\nb = \"x" := by decide +kernel
  have next : (text.takeWhile (· != 0)).take 13 = Bytes.utf8 "a = 1\nb = \"x\n" := by
    decide +kernel
  rw [read] at quoteOpen viable
  rw [next] at refused
  have count : (Reader.ofBytes text).pairs.1.length + 1 = 2 := by decide +kernel
  rw [count] at replies
  exact ⟨told, replies.trans (by decide +kernel), quoteOpen rfl, viable,
    refused (by decide +kernel)⟩

end EfiLoader.Ini
