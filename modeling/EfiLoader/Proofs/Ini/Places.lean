import EfiLoader.Proofs.Ini.Lookahead
import Mathlib.Data.List.DropRight

/-!
Places in a text. A reader counts its place on while it passes over bytes, so that the place tells
what is behind it (`Reader.Reaches.exact`), and an error has the place of a reader on the way
(`Reader.stop_of_error`). Main statement: every place is exact, where the reader is left after any
calls and where their errors are.
-/

namespace EfiLoader.Ini

/-- The place of a byte of the text, or of its end: the line by the line feeds before it, the column
by the bytes behind the last of them. -/
structure Place.Exact (text : Bytes) (place : Place) : Prop where
  inside : place.offset ≤ text.length
  line : place.line = 1 + (text.take place.offset).count newline
  column : place.column = 1 + ((text.take place.offset).rtakeWhile (· != newline)).length

namespace Reader

theorem Reaches.exact {text : Bytes} {r : Reader} (within : (⟨text, .start⟩ : Reader).Reaches r) :
    r.place.Exact text := by
  obtain ⟨done, passes⟩ := within
  have split : text = done ++ r.rest := passes.rest
  have place : r.place = Place.start.past done := passes.place
  rw [Place.start_past] at place
  have behind : text.take r.place.offset = done := by rw [place, split, List.take_left]
  refine ⟨?_, ?_, ?_⟩
  · rw [place, split, List.length_append]
    exact Nat.le_add_right _ _
  · rw [behind, place]
  · rw [behind, place, List.rtakeWhile, List.length_reverse]

/-- A reader that passes over two texts is somewhere between them. -/
theorem Passes.between {r r' : Reader} {done more : Bytes} (passes : r.Passes (done ++ more) r') :
    ∃ stop, r.Passes done stop ∧ stop.Passes more r' := by
  refine ⟨⟨more ++ r'.rest, r.place.past done⟩, ⟨?_, rfl⟩, ⟨rfl, ?_⟩⟩
  · rw [passes.rest, List.append_assoc]
  · rw [passes.place, Place.past_append]

/-- An error is where the reader was on the way, at the quote if that is left open. -/
theorem stop_of_error {r : Reader} {e : Error} (told : r.next.1 = .error e) :
    ∃ stop, r.Reaches stop ∧ stop.place = e.place ∧
      (e.fault = .openQuote → stop.rest.head? = some quote) := by
  obtain ⟨fault, place⟩ := e
  rw [next_eq] at told
  obtain ⟨front, done, broken, placed, ahead⟩ := noticed_of_error told
  have start := Reaches.pastEmptyLines r
  have passes := ahead.passes
  -- Only an open quote is told at another place than the one where the reader is left.
  cases broken with
  | badKey | noKey | noAssign | noValue | noEnd =>
    exact ⟨_, start.trans ⟨_, passes⟩, passes.place.trans placed.symm, nofun⟩
  | openQuote =>
    obtain ⟨stop, before, behind⟩ := passes.between
    refine ⟨stop, start.trans ⟨_, before⟩, before.place.trans placed.symm, fun _ => ?_⟩
    rw [behind.rest]
    rfl

end Reader

/-- **Places are exact.** After any calls of the reader, also past the end or an error, it is at
most at the end of the text, its line is one more than there are line feeds behind it, and its
column one more than there are bytes behind the last of these. The same holds of the place of every
error that one of the calls answered; where a quote is left open that is the place of the quote. -/
theorem places_exact (text : Bytes) (calls : Nat) :
    let whole := text.takeWhile (· != 0)
    let r := Reader.ofBytes text
    (r.after calls).place.Exact whole ∧
      ∀ e, .error e ∈ r.replies calls →
        e.place.Exact whole ∧ (e.fault = .openQuote → whole[e.place.offset]? = some quote) := by
  intro whole r
  refine ⟨(r.reaches_after calls).exact, fun e answered => ?_⟩
  rw [r.replies_eq] at answered
  obtain ⟨earlier, -, told⟩ := List.mem_map.mp answered
  obtain ⟨stop, reaches, place, quoted⟩ := Reader.stop_of_error told
  have within : (⟨whole, .start⟩ : Reader).Reaches stop := (r.reaches_after earlier).trans reaches
  rw [← place]
  refine ⟨within.exact, fun fault => ?_⟩
  rw [within.getElem?_offset]
  exact quoted fault

/-- Behind a line end of two bytes and an empty line, a quote is left open; a NUL ends the text. -/
theorem places_exact_quote :
    let text := Bytes.utf8 "a = 1\r\n\n  b = \"x\x00\nc"
    let whole := Bytes.utf8 "a = 1\r\n\n  b = \"x"
    let e : Error := ⟨.openQuote, ⟨3, 7, 14⟩⟩
    .error e ∈ (Reader.ofBytes text).replies 3 ∧
      e.place.Exact whole ∧ whole[e.place.offset]? = some quote := by
  intro text whole e
  have answered : .error e ∈ (Reader.ofBytes text).replies 3 := by decide +kernel
  have cut : text.takeWhile (· != 0) = whole := by decide +kernel
  obtain ⟨-, told⟩ := places_exact text 3
  rw [cut] at told
  obtain ⟨exact, quoted⟩ := told e answered
  exact ⟨answered, exact, quoted rfl⟩

end EfiLoader.Ini
