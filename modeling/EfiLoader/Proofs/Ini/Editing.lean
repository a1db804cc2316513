import EfiLoader.Proofs.Ini.Joining

/-!
Settings texts that differ in some of their lines. `Rearranged` says that lines without a known key
came in, and that lines with different keys changed places; the values of each known key are then
the same, in the same order (`Rearranged.values`). Nothing depends on the lines behind the one that
ends a text with an error (`pairs_of_same_start`).
-/

namespace EfiLoader.Ini

/-- The lines of a text up to its first NUL. -/
def linesOf (text : Bytes) : List Bytes := (text.takeWhile (· != 0)).splitOn newline

/-- The values that pairs give for a key. -/
def valuesOf (key : Bytes) (pairs : List Pair) : List Bytes :=
  (pairs.filter (·.key = key)).map Pair.value

section Values

variable {key : Bytes} {pair : Pair}

theorem valuesOf_cons (key : Bytes) (pair : Pair) (pairs : List Pair) :
    valuesOf key (pair :: pairs) =
      if pair.key = key then pair.value :: valuesOf key pairs else valuesOf key pairs := by
  unfold valuesOf
  rw [List.filter_cons]
  by_cases own : pair.key = key
  · simp [own]
  · simp [own]

@[simp] theorem valuesOf_append (key : Bytes) (pairs pairs' : List Pair) :
    valuesOf key (pairs ++ pairs') = valuesOf key pairs ++ valuesOf key pairs' := by
  simp [valuesOf]

theorem valuesOf_cons_of_ne (other : pair.key ≠ key) (pairs : List Pair) :
    valuesOf key (pair :: pairs) = valuesOf key pairs := by
  rw [valuesOf_cons, if_neg other]

/-- The order of two pairs with different keys does not show in the values of any key. -/
theorem valuesOf_exchange {pair pair' : Pair} (apart : pair.key ≠ pair'.key) (key : Bytes)
    (pairs : List Pair) :
    valuesOf key (pair :: pair' :: pairs) = valuesOf key (pair' :: pair :: pairs) := by
  by_cases own : pair.key = key
  · have other : pair'.key ≠ key := fun same => apart (own.trans same.symm)
    rw [valuesOf_cons, if_pos own, valuesOf_cons_of_ne other, valuesOf_cons_of_ne other,
      valuesOf_cons, if_pos own]
  · rw [valuesOf_cons_of_ne own, valuesOf_cons, valuesOf_cons, valuesOf_cons_of_ne own]

end Values

namespace LineByLine

variable {number stop : Nat} {lines lines' : List Bytes} {pairs : List Pair}

/-- Lines without an error are read part by part. -/
theorem of_append (told : LineByLine number (lines ++ lines') pairs none) :
    ∃ first rest, pairs = first ++ rest ∧ LineByLine number lines first none ∧
      LineByLine (number + lines.length) lines' rest none := by
  induction lines generalizing number pairs with
  | nil => exact ⟨[], pairs, rfl, .done number, told⟩
  | cons line lines ih =>
    rw [List.length_cons, Nat.add_comm lines.length 1, ← Nat.add_assoc]
    cases told with
    | empty empty rest =>
      obtain ⟨first, last, rfl, told, told'⟩ := ih rest
      exact ⟨first, last, rfl, .empty empty told, told'⟩
    | @setting _ _ _ pair _ _ setting rest =>
      obtain ⟨first, last, rfl, told, told'⟩ := ih rest
      exact ⟨pair :: first, last, rfl, .setting setting told, told'⟩

theorem number_le_stop (told : LineByLine number lines pairs (some stop)) : number ≤ stop := by
  generalize whole : some stop = last at told
  induction told with
  | done => cases whole
  | empty _ _ ih => exact Nat.le_of_succ_le (ih whole)
  | setting _ _ ih => exact Nat.le_of_succ_le (ih whole)
  | refused =>
    cases whole
    exact Nat.le_refl _

/-- The line that ends a text with an error is the last that counts. -/
theorem of_same_start (told : LineByLine number lines pairs (some stop))
    (same : lines'.take (stop + 1 - number) = lines.take (stop + 1 - number)) :
    LineByLine number lines' pairs (some stop) := by
  have starts {count : Nat} {line : Bytes} {lines lines' : List Bytes}
      (same : lines'.take (count + 1) = (line :: lines).take (count + 1)) :
      ∃ rest, lines' = line :: rest ∧ rest.take count = lines.take count := by
    cases lines' with
    | nil => cases same
    | cons line' rest =>
      obtain ⟨rfl, tails⟩ := List.cons.inj same
      exact ⟨rest, rfl, tails⟩
  generalize whole : some stop = last at told
  induction told generalizing lines' with
  | done => cases whole
  | @empty number line lines pairs last empty rest ih =>
    have later := number_le_stop (whole ▸ rest)
    rw [show stop + 1 - number = stop + 1 - (number + 1) + 1 by omega] at same
    obtain ⟨others, rfl, tails⟩ := starts same
    exact .empty empty (ih tails whole)
  | @setting number line lines pair pairs last setting rest ih =>
    have later := number_le_stop (whole ▸ rest)
    rw [show stop + 1 - number = stop + 1 - (number + 1) + 1 by omega] at same
    obtain ⟨others, rfl, tails⟩ := starts same
    exact .setting setting (ih tails whole)
  | @refused number line lines no =>
    cases whole
    rw [show stop + 1 - stop = 0 + 1 by omega] at same
    obtain ⟨others, rfl, -⟩ := starts same
    exact .refused no

end LineByLine

/-- A line that is blank, holds a comment alone, or has none of the known keys. -/
inductive Idle (known : List Bytes) : Bytes → Prop
  | empty {line : Bytes} (empty : Line line none) : Idle known line
  | otherKey {line : Bytes} {pair : Pair} (setting : Line line (some pair))
      (unknown : pair.key ∉ known) : Idle known line

/-- The lines of a text after some changes: idle lines came in, and neighbours that do not set the
same key changed places. -/
inductive Rearranged (known : List Bytes) : List Bytes → List Bytes → Prop
  | same (lines : List Bytes) : Rearranged known lines lines
  | insert {lines before after : List Bytes} {line : Bytes} (idle : Idle known line)
      (rest : Rearranged known lines (before ++ after)) :
      Rearranged known lines (before ++ line :: after)
  | exchange {lines before after : List Bytes} {line line' : Bytes}
      (apart : ∀ pair pair', Line line (some pair) → Line line' (some pair') →
        pair.key ≠ pair'.key)
      (rest : Rearranged known lines (before ++ line :: line' :: after)) :
      Rearranged known lines (before ++ line' :: line :: after)

namespace Idle

variable {known : List Bytes} {line : Bytes} {number : Nat} {lines : List Bytes}
  {pairs : List Pair} {stop : Option Nat}

/-- An idle line in front adds at most a pair with a key that is not known. -/
theorem before (idle : Idle known line) (told : LineByLine (number + 1) lines pairs stop) :
    ∃ pairs', LineByLine number (line :: lines) pairs' stop ∧
      ∀ key ∈ known, valuesOf key pairs' = valuesOf key pairs := by
  cases idle with
  | empty empty => exact ⟨pairs, .empty empty told, fun _ _ => rfl⟩
  | @otherKey pair setting unknown =>
    refine ⟨pair :: pairs, .setting setting told, ?_⟩
    intro key member
    have other : pair.key ≠ key := fun same => unknown (same ▸ member)
    exact valuesOf_cons_of_ne other pairs

end Idle

/-- Two lines with different keys can be read in either order. -/
theorem LineByLine.exchange {number : Nat} {line line' : Bytes} {lines : List Bytes}
    {pairs : List Pair} {stop : Option Nat}
    (apart : ∀ pair pair', Line line (some pair) → Line line' (some pair') →
      pair.key ≠ pair'.key)
    (told : LineByLine number (line :: line' :: lines) pairs stop) (sound : stop = none) :
    ∃ pairs', LineByLine number (line' :: line :: lines) pairs' stop ∧
      ∀ key, valuesOf key pairs' = valuesOf key pairs := by
  cases told with
  | empty empty rest =>
    cases rest with
    | empty empty' rest => exact ⟨_, .empty empty' (.empty empty rest), fun _ => rfl⟩
    | setting setting' rest => exact ⟨_, .setting setting' (.empty empty rest), fun _ => rfl⟩
    | refused => cases sound
  | setting setting rest =>
    cases rest with
    | empty empty' rest => exact ⟨_, .empty empty' (.setting setting rest), fun _ => rfl⟩
    | setting setting' rest =>
      refine ⟨_, .setting setting' (.setting setting rest), ?_⟩
      intro key
      exact valuesOf_exchange (apart _ _ setting setting').symm key _
    | refused => cases sound
  | refused => cases sound

/-- Lines without an error have none after such changes, and the values of the known keys stay. -/
theorem Rearranged.values {known : List Bytes} {lines lines' : List Bytes} {pairs : List Pair}
    {number : Nat} (rearranged : Rearranged known lines lines')
    (told : LineByLine number lines pairs none) :
    ∃ pairs', LineByLine number lines' pairs' none ∧
      ∀ key ∈ known, valuesOf key pairs' = valuesOf key pairs := by
  induction rearranged with
  | same => exact ⟨pairs, told, fun _ _ => rfl⟩
  | insert idle _ ih =>
    obtain ⟨whole, told, kept⟩ := ih
    obtain ⟨first, rest, rfl, told, told'⟩ := told.of_append
    obtain ⟨later, toldLater, keptLater⟩ := idle.before (told'.shift 1)
    refine ⟨first ++ later, told.append toldLater, ?_⟩
    intro key member
    rw [← kept key member, valuesOf_append, valuesOf_append, keptLater key member]
  | exchange apart _ ih =>
    obtain ⟨whole, told, kept⟩ := ih
    obtain ⟨first, rest, rfl, told, told'⟩ := told.of_append
    obtain ⟨later, toldLater, keptLater⟩ := told'.exchange apart rfl
    refine ⟨first ++ later, told.append toldLater, ?_⟩
    intro key member
    rw [← kept key member, valuesOf_append, valuesOf_append, keptLater key]

section Texts

variable {text text' : Bytes}

theorem lineByLine_linesOf {pairs : List Pair} {stop : Option Nat} :
    LineByLine 1 (linesOf text) pairs stop ↔ (Reader.ofBytes text).summary = (pairs, stop) :=
  lineByLine_ofBytes

/-- A text without an error stays one, with the values of its known keys. -/
theorem values_of_rearranged {known : List Bytes}
    (sound : (Reader.ofBytes text).pairs.2 = none)
    (rearranged : Rearranged known (linesOf text) (linesOf text')) :
    (Reader.ofBytes text').pairs.2 = none ∧ ∀ key ∈ known,
      valuesOf key (Reader.ofBytes text').pairs.1 =
        valuesOf key (Reader.ofBytes text).pairs.1 := by
  have whole : (Reader.ofBytes text).summary = ((Reader.ofBytes text).pairs.1, none) := by
    rw [Reader.summary, sound]
    rfl
  obtain ⟨pairs', told, kept⟩ := rearranged.values (lineByLine_linesOf.mpr whole)
  obtain ⟨rfl, none⟩ := Prod.mk.inj (lineByLine_linesOf.mp told)
  exact ⟨Option.map_eq_none_iff.mp none, kept⟩

/-- Texts with the same lines up to an error have the same pairs. -/
theorem pairs_of_same_start {error : Error}
    (stopped : (Reader.ofBytes text).pairs.2 = some error)
    (same : (linesOf text').take error.place.line = (linesOf text).take error.place.line) :
    (Reader.ofBytes text').pairs.1 = (Reader.ofBytes text).pairs.1 := by
  have whole : (Reader.ofBytes text).summary =
      ((Reader.ofBytes text).pairs.1, some error.place.line) := by
    rw [Reader.summary, stopped]
    rfl
  have told := (lineByLine_linesOf.mpr whole).of_same_start same
  exact (Prod.mk.inj (lineByLine_linesOf.mp told)).1

end Texts

end EfiLoader.Ini
