import EfiLoader.Proofs.Ini.Lines

/-!
Line ends of one byte and of two. Two readers are `Alike` when the text before one of them is that
before the other but for carriage returns at line feeds; where such a carriage return cannot be the
next byte they are `Even`. Every part of the reader keeps them so, or has them tell errors of the
same kind on the same line (`Alike.next`). Main statement: texts that differ in their line ends
alone are read alike (`pairs_of_returned`).
-/

namespace EfiLoader.Ini

def carriageReturn : UInt8 := 13

/-- The second text is the first with a carriage return directly before some of its line feeds. -/
inductive Returned : Bytes → Bytes → Prop
  | nil : Returned [] []
  | same (byte : UInt8) {text text' : Bytes} (rest : Returned text text') :
      Returned (byte :: text) (byte :: text')
  | feed {text text' : Bytes} (rest : Returned text text') :
      Returned (newline :: text) (carriageReturn :: newline :: text')

namespace Returned

variable {text text' : Bytes} (returned : Returned text text') {p : UInt8 → Bool}
include returned

theorem head?_eq (other : text'.head? ≠ some carriageReturn) : text'.head? = text.head? := by
  cases returned with
  | nil => rfl
  | same => rfl
  | feed => exact absurd rfl other

theorem dropWhile (stops : p newline = false) :
    Returned (text.dropWhile p) (text'.dropWhile p) := by
  induction returned with
  | nil => exact .nil
  | same byte rest ih =>
    rw [List.dropWhile_cons, List.dropWhile_cons]
    split
    · exact ih
    · exact .same byte rest
  | feed rest =>
    have stays : ¬ p newline = true := by simp [stops]
    rw [List.dropWhile_cons_of_neg stays, List.dropWhile_cons, List.dropWhile_cons_of_neg stays]
    split
    · exact .same newline rest
    · exact .feed rest

/-- A carriage return at a line feed is not taken, or the line feed is the next byte. -/
theorem takeWhile (stops : p newline = false)
    (before : p carriageReturn = false ∨ (text.dropWhile p).head? ≠ some newline) :
    text'.takeWhile p = text.takeWhile p := by
  induction returned with
  | nil => rfl
  | same byte rest ih =>
    rw [List.takeWhile_cons, List.takeWhile_cons]
    rw [List.dropWhile_cons] at before
    split
    · rename_i takes
      rw [if_pos takes] at before
      rw [ih before]
    · rfl
  | feed rest =>
    rcases before with refused | other
    · simp [refused, stops]
    · exact absurd (by simp [stops]) other

/-- Texts that differ in their line ends differ so up to their first NUL. -/
theorem cut : Returned (text.takeWhile (· != 0)) (text'.takeWhile (· != 0)) := by
  induction returned with
  | nil => exact .nil
  | same byte rest ih =>
    rw [List.takeWhile_cons, List.takeWhile_cons]
    split
    · exact .same byte ih
    · exact .nil
  | feed rest ih =>
    rw [List.takeWhile_cons_of_pos (by decide), List.takeWhile_cons_of_pos (by decide),
      List.takeWhile_cons_of_pos (by decide)]
    exact .feed ih

end Returned

/-- The readers are on the same line, and what is before them differs in line ends alone. -/
structure Alike (r r' : Reader) : Prop where
  rest : Returned r.rest r'.rest
  line : r'.place.line = r.place.line

/-- Besides, the next byte is the same. -/
structure Even (r r' : Reader) : Prop extends Alike r r' where
  head : r'.rest.head? = r.rest.head?

/-- Both went well with the same value, or told errors of one kind on one line. -/
inductive Matching {α : Type} : Except Error α × Reader → Except Error α × Reader → Prop
  | ok {value : α} {r r' : Reader} (alike : Alike r r') : Matching (.ok value, r) (.ok value, r')
  | error {e e' : Error} {r r' : Reader} (fault : e'.fault = e.fault)
      (line : e'.place.line = e.place.line) : Matching (.error e, r) (.error e', r')

section Steps

variable {r r' : Reader} {p : UInt8 → Bool}

theorem Place.past_taken_line (stops : p newline = false) (r : Reader) :
    (r.skip p).place.line = r.place.line := by
  refine Place.past_line (fun feed => ?_) r.place
  rw [Reader.of_mem_taken feed] at stops
  cases stops

namespace Alike

variable (alike : Alike r r')
include alike

theorem skip (stops : p newline = false) : Alike (r.skip p) (r'.skip p) where
  rest := alike.rest.dropWhile stops
  line := by rw [Place.past_taken_line stops, Place.past_taken_line stops, alike.line]

/-- A run that carriage returns belong to does not stop in front of one. -/
theorem skip_even (stops : p newline = false) (goes : p carriageReturn = true) :
    Even (r.skip p) (r'.skip p) where
  toAlike := alike.skip stops
  head := by
    apply (alike.skip stops).rest.head?_eq
    intro first
    rw [Reader.stop_of_skip first] at goes
    cases goes

theorem pastSpaces : Even r.pastSpaces r'.pastSpaces := alike.skip_even rfl rfl

theorem pastName : Even r.pastName r'.pastName := (alike.skip rfl).pastSpaces

end Alike

namespace Even

variable (even : Even r r')
include even

theorem pastComment : Even r.pastComment r'.pastComment := by
  unfold Reader.pastComment
  rw [even.head]
  split
  · exact even.toAlike.skip_even rfl rfl
  · exact even

theorem advance : Alike r.advance r'.advance := by
  obtain ⟨⟨returned, line⟩, head⟩ := even
  obtain ⟨rest, place⟩ := r
  obtain ⟨rest', place'⟩ := r'
  dsimp only at *
  cases returned with
  | nil => exact ⟨.nil, line⟩
  | same byte returned =>
    refine ⟨returned, ?_⟩
    change (place'.step byte).line = (place.step byte).line
    unfold Place.step
    split <;> simp [line]
  | feed => cases head

end Even

theorem Alike.pastEmptyLines (alike : Alike r r') : Even r.pastEmptyLines r'.pastEmptyLines := by
  rw [Reader.pastEmptyLines.eq_def r']
  fun_induction Reader.pastEmptyLines r generalizing r'
  all_goals
    have ended := alike.pastSpaces.pastComment
    dsimp only
  · rename_i feed again
    rw [if_pos (ended.head.trans feed),
      Reader.pastEmptyLines.eq_def r'.pastSpaces.pastComment.advance]
    exact again ended.advance
  · rename_i other
    rwa [if_neg (ended.head ▸ other)]

theorem Even.readValue (even : Even r r') : Matching r.readValue r'.readValue := by
  unfold Reader.readValue
  rw [even.head]
  split
  · dsimp only
    split
    · have close := even.advance.skip_even (p := fun b => b != quote && b != newline) rfl rfl
      rw [close.head]
      split
      · rename_i closed
        have unbroken : (r.advance.rest.dropWhile fun b => b != quote && b != newline).head? ≠
            some newline := by
          change (r.advance.skip _).rest.head? ≠ _
          rw [closed]
          decide
        have value : r'.advance.taken (fun b => b != quote && b != newline) =
            r.advance.taken fun b => b != quote && b != newline :=
          even.advance.rest.takeWhile rfl (.inr unbroken)
        rw [value]
        exact .ok close.advance
      · exact .error rfl even.line
    · split
      · have value : r'.taken isNameByte = r.taken isNameByte :=
          even.rest.takeWhile rfl (.inl rfl)
        rw [value]
        exact .ok (even.skip rfl)
      · exact .error rfl even.line
  · exact .error rfl even.line

theorem Alike.readLineEnd (alike : Alike r r') : Matching r.readLineEnd r'.readLineEnd := by
  have ended := alike.pastSpaces.pastComment
  unfold Reader.readLineEnd
  dsimp only
  rw [ended.head]
  split
  · exact .ok ended.toAlike
  · split
    · exact .ok ended.advance
    · exact .error rfl ended.line

theorem Even.pairAt (even : Even r r') : Matching r.pairAt r'.pairAt := by
  have key : r'.taken isNameByte = r.taken isNameByte := even.rest.takeWhile rfl (.inl rfl)
  have gap := even.pastName
  have read := gap.advance.pastSpaces.readValue
  unfold Reader.pairAt
  rw [even.head]
  split
  · exact .ok even.toAlike
  · dsimp only
    rw [gap.head]
    split
    · split
      · generalize r.pastName.advance.pastSpaces.readValue = result at read
        generalize r'.pastName.advance.pastSpaces.readValue = result' at read
        cases read with
        | error fault line => exact .error fault line
        | @ok value behind behind' alike =>
          have ended := alike.readLineEnd
          dsimp only
          generalize behind.readLineEnd = result at ended
          generalize behind'.readLineEnd = result' at ended
          cases ended with
          | error fault line => exact .error fault line
          | ok alike =>
            rw [key]
            exact .ok alike
      · exact .error rfl gap.line
    · exact .error rfl even.line

/-- Readers that are alike stay so. -/
theorem Alike.next (alike : Alike r r') : Matching r.next r'.next := alike.pastEmptyLines.pairAt

end Steps

/-- The kind of an error, and its line. -/
def Error.told (e : Error) : Fault × Nat := (e.fault, e.place.line)

theorem Alike.pairs {r r' : Reader} (alike : Alike r r') :
    r'.pairs.1 = r.pairs.1 ∧ r'.pairs.2.map Error.told = r.pairs.2.map Error.told := by
  generalize length : r.rest.length = count
  induction count using Nat.strongRecOn generalizing r r' with
  | ind count ih =>
    have next := alike.next
    rcases read : r.next with ⟨e | _ | pair, after⟩
    all_goals
      rcases read' : r'.next with ⟨answer', after'⟩
      rw [read, read'] at next
    · cases next with
      | error fault line =>
        rw [Reader.pairs_of_error read, Reader.pairs_of_error read']
        simp [Error.told, fault, line]
    · cases next
      rw [Reader.pairs_of_none read, Reader.pairs_of_none read']
      exact ⟨rfl, rfl⟩
    · cases next with
      | ok alike =>
        have shorter := Reader.length_next_lt read
        obtain ⟨pairs, last⟩ := ih _ (length ▸ shorter) alike rfl
        rw [Reader.pairs_of_pair read, Reader.pairs_of_pair read', pairs, last]
        exact ⟨rfl, rfl⟩

/-- **Line ends of two bytes count as line ends of one.** Carriage returns directly before some line
feeds of a settings text change neither its pairs nor how reading it ends: at the end of the text
still, or with an error of the same kind on the same line. -/
theorem pairs_of_returned {text text' : Bytes} (returned : Returned text text') :
    (Reader.ofBytes text').pairs.1 = (Reader.ofBytes text).pairs.1 ∧
      (Reader.ofBytes text').pairs.2.map Error.told =
        (Reader.ofBytes text).pairs.2.map Error.told :=
  Alike.pairs ⟨returned.cut, rfl⟩

/-- Of three lines the first and the last have a line end of two bytes, and the last leaves a quote
open. -/
theorem pairs_of_returned_open :
    let text := Bytes.utf8 "a = 1 # one\n\nb = \"x\n"
    let text' := Bytes.utf8 "a = 1 # one\r\n\nb = \"x\r\n"
    Returned text text' ∧
      (Reader.ofBytes text').pairs.1 = [⟨Bytes.utf8 "a", Bytes.utf8 "1"⟩] ∧
      (Reader.ofBytes text').pairs.2.map Error.told = some (.openQuote, 3) := by
  intro text text'
  have returned : Returned text text' := by
    repeat first | exact .nil | refine .feed ?_ | refine .same _ ?_
  obtain ⟨pairs, last⟩ := pairs_of_returned returned
  refine ⟨returned, pairs.trans (by decide +kernel), last.trans (by decide +kernel)⟩

end EfiLoader.Ini
