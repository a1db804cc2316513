import EfiLoader.Proofs.Ini.Scanning
import Mathlib.Data.List.Induction
import Mathlib.Logic.Function.Iterate

/-!
Where the reader is. Whatever it does, it goes over some bytes of its text and counts them
(`Passes`), so that its place says how much of the text is behind it. Main statements: a call that
does not go on leaves the reader as it is for all later ones (`Reader.after_of_stationary`), and one
that takes a key off a line goes on (`Reader.next_moves`).
-/

namespace EfiLoader.Ini

namespace Place

theorem past_append (place : Place) (bytes bytes' : Bytes) :
    place.past (bytes ++ bytes') = (place.past bytes).past bytes' := List.foldl_append

theorem step_offset (place : Place) (byte : UInt8) :
    (place.step byte).offset = place.offset + 1 := by
  unfold step
  split <;> rfl

theorem past_offset (place : Place) (bytes : Bytes) :
    (place.past bytes).offset = place.offset + bytes.length := by
  induction bytes generalizing place with
  | nil => rfl
  | cons byte rest ih =>
    rw [past, List.foldl_cons]
    change ((place.step byte).past rest).offset = _
    rw [ih, step_offset, List.length_cons]
    omega

/-- Lines are counted by their line feeds, columns from the last line feed on. -/
theorem start_past (bytes : Bytes) :
    start.past bytes =
      ⟨1 + bytes.count newline, 1 + (bytes.reverse.takeWhile (· != newline)).length,
        bytes.length⟩ := by
  induction bytes using List.reverseRecOn with
  | nil => rfl
  | append_singleton bytes byte ih =>
    rw [past_append, ih, List.count_append, List.length_append, List.reverse_append]
    change step _ byte = _
    by_cases feed : byte = newline
    · simp [step, feed, newline, Nat.add_assoc]
    · have other : ¬ byte = 10 := feed
      simp [step, feed, other, Nat.add_assoc]

end Place

namespace Reader

/-- The reader `r'` is `r` behind the bytes `done` of its text. -/
structure Passes (r : Reader) (done : Bytes) (r' : Reader) : Prop where
  rest : r.rest = done ++ r'.rest
  place : r'.place = r.place.past done

namespace Passes

variable {r r' r'' : Reader} {done more : Bytes}

theorem refl (r : Reader) : r.Passes [] r := ⟨rfl, rfl⟩

theorem skip (r : Reader) (p : UInt8 → Bool) : r.Passes (r.taken p) (r.skip p) :=
  ⟨List.takeWhile_append_dropWhile.symm, rfl⟩

theorem trans (passes : r.Passes done r') (passes' : r'.Passes more r'') :
    r.Passes (done ++ more) r'' where
  rest := by rw [passes.rest, passes'.rest, List.append_assoc]
  place := by rw [passes'.place, passes.place, Place.past_append]

theorem offset (passes : r.Passes done r') : r'.place.offset = r.place.offset + done.length := by
  rw [passes.place, Place.past_offset]

theorem eq_of_nil (passes : r.Passes [] r') : r' = r := by
  obtain ⟨rest, place⟩ := passes
  cases r
  cases r'
  cases rest
  cases place
  rfl

/-- A reader at the same place has not moved. -/
theorem eq_of_offset (passes : r.Passes done r') (same : r'.place.offset = r.place.offset) :
    r' = r := by
  have length := passes.offset
  have none : done = [] := List.eq_nil_of_length_eq_zero (by omega)
  rw [none] at passes
  exact passes.eq_of_nil

end Passes

/-- Nothing is skipped in front of a byte that `p` refuses. -/
theorem skip_of_stop {p : UInt8 → Bool} (r : Reader)
    (stop : ∀ byte, r.rest.head? = some byte → p byte = false) : r.skip p = r := by
  rw [skip, taken, takeWhile_of_stop stop, dropWhile_of_stop stop]
  rfl

/-- The reader is left behind some bytes of its text. -/
def Reaches (r r' : Reader) : Prop := ∃ done, r.Passes done r'

namespace Reaches

variable {r r' r'' : Reader}

theorem refl (r : Reader) : r.Reaches r := ⟨[], .refl r⟩

theorem trans (reaches : r.Reaches r') (reaches' : r'.Reaches r'') : r.Reaches r'' := by
  obtain ⟨done, passes⟩ := reaches
  obtain ⟨more, passes'⟩ := reaches'
  exact ⟨done ++ more, passes.trans passes'⟩

theorem skip (r : Reader) (p : UInt8 → Bool) : r.Reaches (r.skip p) := ⟨_, .skip r p⟩

theorem advance (r : Reader) : r.Reaches r.advance :=
  ⟨r.rest.take 1, (List.take_append_drop 1 r.rest).symm, rfl⟩

theorem pastSpaces (r : Reader) : r.Reaches r.pastSpaces := .skip r _

theorem pastName (r : Reader) : r.Reaches r.pastName :=
  .trans (.skip r isNameByte) (.pastSpaces _)

theorem pastComment (r : Reader) : r.Reaches r.pastComment := by
  unfold Reader.pastComment
  split
  · exact .skip r _
  · exact .refl r

theorem pastEmptyLines (r : Reader) : r.Reaches r.pastEmptyLines := by
  fun_induction Reader.pastEmptyLines r with
  | case1 r line _ ih =>
    exact (pastSpaces r).trans ((pastComment _).trans ((advance line).trans ih))
  | case2 r line _ => exact (pastSpaces r).trans (pastComment _)

theorem readValue (r : Reader) : r.Reaches r.readValue.2 := by
  unfold Reader.readValue
  split
  · dsimp only
    split
    · split
      · exact (advance r).trans ((skip _ _).trans (advance _))
      · exact (advance r).trans (skip _ _)
    · split
      · exact skip r _
      · exact refl r
  · exact refl r

theorem readLineEnd (r : Reader) : r.Reaches r.readLineEnd.2 := by
  have ended := (pastSpaces r).trans (pastComment _)
  unfold Reader.readLineEnd
  dsimp only
  split
  · exact ended
  · split
    · exact ended.trans (advance _)
    · exact ended

theorem pairAt (r : Reader) : r.Reaches r.pairAt.2 := by
  have valued := ((pastName r).trans (advance _)).trans ((pastSpaces _).trans (readValue _))
  have last := readLineEnd r.pastName.advance.pastSpaces.readValue.2
  have way := pairing r
  generalize r.pairAt = result at way
  cases way with
  | ended | noKey => exact refl r
  | noAssign => exact pastName r
  | noValue _ _ _ read =>
    rw [read] at valued
    exact valued
  | noEnd _ _ _ read ended | paired _ _ _ read ended =>
    rw [read] at valued last
    dsimp only at last
    rw [ended] at last
    exact valued.trans last

theorem next (r : Reader) : r.Reaches r.next.2 := (pastEmptyLines r).trans (pairAt _)

/-- A reader has in front of it the byte of the text that its place numbers. -/
theorem getElem?_offset {text : Bytes} (within : (⟨text, .start⟩ : Reader).Reaches r) :
    text[r.place.offset]? = r.rest.head? := by
  obtain ⟨done, passes⟩ := within
  have offset : r.place.offset = done.length := passes.offset.trans (Nat.zero_add _)
  have split : text = done ++ r.rest := passes.rest
  rw [offset, split, List.getElem?_append_right (Nat.le_refl _), Nat.sub_self,
    List.head?_eq_getElem?]

variable (reaches : r.Reaches r')
include reaches

/-- What is behind a reader and what is before it make up its text. -/
theorem offset_add_length :
    r'.place.offset + r'.rest.length = r.place.offset + r.rest.length := by
  obtain ⟨done, passes⟩ := reaches
  rw [passes.offset, passes.rest, List.length_append]
  omega

theorem offset_le : r.place.offset ≤ r'.place.offset := by
  obtain ⟨done, passes⟩ := reaches
  rw [passes.offset]
  exact Nat.le_add_right _ _

theorem eq_of_offset (same : r'.place.offset = r.place.offset) : r' = r := by
  obtain ⟨done, passes⟩ := reaches
  exact passes.eq_of_offset same

end Reaches

/-- The reader after some calls in a row. -/
def after (r : Reader) (calls : Nat) : Reader := (fun r => r.next.2)^[calls] r

/-- What the reader answers to one more call after some. -/
def answer (r : Reader) (calls : Nat) : Except Error (Option Pair) := (r.after calls).next.1

section Calls

variable (r : Reader)

theorem after_succ (calls : Nat) : r.after (calls + 1) = (r.after calls).next.2 :=
  Function.iterate_succ_apply' _ calls r

theorem after_next (calls : Nat) : r.next.2.after calls = r.after (calls + 1) :=
  (Function.iterate_succ_apply _ calls r).symm

theorem answer_next (calls : Nat) : r.next.2.answer calls = r.answer (calls + 1) := by
  rw [answer, after_next, answer]

theorem replies_eq (calls : Nat) : r.replies calls = (List.range calls).map r.answer := by
  induction calls generalizing r with
  | zero => rfl
  | succ calls ih =>
    rw [replies, ih, List.range_succ_eq_map, List.map_cons, List.map_map]
    exact congrArg _ (List.map_congr_left fun i _ => r.answer_next i)

theorem reaches_after (calls : Nat) : r.Reaches (r.after calls) := by
  induction calls with
  | zero => exact .refl r
  | succ calls ih =>
    rw [after_succ]
    exact ih.trans (.next _)

/-- A call that does not go on leaves the reader as it is, and so do all later ones. -/
theorem after_of_stationary {calls later : Nat}
    (stationary : (r.after (calls + 1)).place.offset = (r.after calls).place.offset)
    (le : calls ≤ later) : r.after later = r.after calls := by
  induction le with
  | refl => rfl
  | @step later _ ih =>
    rw [after_succ] at stationary
    rw [after_succ, ih]
    exact (Reaches.next _).eq_of_offset stationary

/-- While calls go on, each takes a byte at least. -/
theorem offset_after_ge {calls : Nat}
    (moving : ∀ i < calls, (r.after (i + 1)).place.offset ≠ (r.after i).place.offset) :
    r.place.offset + calls ≤ (r.after calls).place.offset := by
  induction calls with
  | zero => exact Nat.le_refl _
  | succ calls ih =>
    have earlier := ih fun i less => moving i (by omega)
    have moved := moving calls (by omega)
    have back := (Reaches.next (r.after calls)).offset_le
    rw [after_succ] at moved ⊢
    omega

/-- One of the calls up to the length of the text does not go on. -/
theorem exists_stationary : ∃ calls ≤ r.rest.length,
    (r.after (calls + 1)).place.offset = (r.after calls).place.offset := by
  refine Classical.byContradiction fun none => ?_
  have moving : ∀ i < r.rest.length + 1,
      (r.after (i + 1)).place.offset ≠ (r.after i).place.offset := fun i less same =>
    none ⟨i, by omega, same⟩
  have far := r.offset_after_ge moving
  have whole := (r.reaches_after (r.rest.length + 1)).offset_add_length
  omega

end Calls

/-- Answers that are not given before a key has been read. -/
def BehindKey : Except Error (Option Pair) → Prop
  | .ok none => False
  | .ok (some _) => True
  | .error e => e.fault = .missingAssign ∨ e.fault = .missingValue ∨ e.fault = .openQuote

theorem length_pastName_lt {r : Reader} {first : UInt8} (head : r.rest.head? = some first)
    (letter : isLetter first = true) : r.pastName.rest.length < r.rest.length := by
  obtain ⟨rest, same⟩ := List.head?_eq_some_iff.mp head
  have named : isNameByte first = true := by simp [isNameByte, letter]
  have word : (r.skip isNameByte).rest = rest.dropWhile isNameByte := by
    rw [skip, same]
    exact List.dropWhile_cons_of_pos named
  have spaces := length_pastSpaces (r.skip isNameByte)
  have shorter := (List.dropWhile_suffix (l := rest) isNameByte).length_le
  rw [pastName, same, List.length_cons]
  rw [word] at spaces
  omega

theorem next_moves {r : Reader} (behind : BehindKey r.next.1) :
    r.place.offset < r.next.2.place.offset := by
  have whole := (Reaches.next r).offset_add_length
  suffices shorter : r.next.2.rest.length < r.rest.length by omega
  have start := length_pastEmptyLines r
  rw [next_eq] at behind ⊢
  have way := pairing r.pastEmptyLines
  have valued := length_readValue r.pastEmptyLines.pastName.advance.pastSpaces
  have spaces := length_pastSpaces r.pastEmptyLines.pastName.advance
  have sign := length_advance r.pastEmptyLines.pastName
  generalize r.pastEmptyLines.pairAt = result at way behind
  cases way with
  | ended => exact behind.elim
  | noKey =>
    exfalso
    dsimp only [BehindKey] at behind
    split at behind <;> simp at behind
  | noAssign head letter =>
    have key := length_pastName_lt head letter
    dsimp only
    omega
  | noValue head letter _ read =>
    have key := length_pastName_lt head letter
    rw [read] at valued
    dsimp only at valued ⊢
    omega
  | @noEnd _ _ _ valueEnd _ head letter _ read ended
  | @paired _ _ valueEnd _ head letter _ read ended =>
    have key := length_pastName_lt head letter
    have last := length_readLineEnd valueEnd
    rw [read] at valued
    rw [ended] at last
    dsimp only at valued last ⊢
    omega

end Reader
end EfiLoader.Ini
