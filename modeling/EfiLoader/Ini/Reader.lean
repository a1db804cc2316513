import EfiLoader.Bytes

/-!
A flat settings text: on each line nothing, a comment after `#`, or `key = value`. A value may stand
in quotes to keep spaces and `#`. The first NUL ends the text.

A `Reader` is what is left of a text together with its place; `next` takes one pair off it. Main
statement: a pair makes the text shorter, so all pairs can be taken off it.
-/

namespace EfiLoader.Ini

/-- Lines and columns count from one, `offset` is the number of bytes before the place. -/
structure Place where
  line : Nat
  column : Nat
  offset : Nat
  deriving DecidableEq, Repr

namespace Place

def start : Place := ⟨1, 1, 0⟩

def step (p : Place) (byte : UInt8) : Place :=
  if byte = 10 then ⟨p.line + 1, 1, p.offset + 1⟩ else ⟨p.line, p.column + 1, p.offset + 1⟩

/-- The place behind some bytes. -/
def past (p : Place) (bytes : Bytes) : Place := bytes.foldl step p

end Place

inductive Fault where
  | badKey
  | missingAssign
  | missingValue
  | openQuote
  | strayByte
  deriving DecidableEq, Repr

structure Error where
  fault : Fault
  place : Place
  deriving DecidableEq, Repr

structure Pair where
  key : Bytes
  value : Bytes
  deriving DecidableEq, Repr

def newline : UInt8 := 10
def quote : UInt8 := 34
def hash : UInt8 := 35
def assign : UInt8 := 61

def isLetter (byte : UInt8) : Bool := (65 ≤ byte && byte ≤ 90) || (97 ≤ byte && byte ≤ 122)

def isDigit (byte : UInt8) : Bool := 48 ≤ byte && byte ≤ 57

/-- Letters, digits, `_`, `.` and `-`. -/
def isNameByte (byte : UInt8) : Bool :=
  isLetter byte || isDigit byte || byte == 95 || byte == 46 || byte == 45

/-- Control characters from tab on and the space, except the line feed. -/
def isSpace (byte : UInt8) : Bool := byte != newline && 9 ≤ byte && byte ≤ 32

structure Reader where
  rest : Bytes
  place : Place
  deriving DecidableEq, Repr

namespace Reader

def ofBytes (text : Bytes) : Reader := ⟨text.takeWhile (· != 0), .start⟩

/-- The bytes up to the first one that `p` refuses. -/
def taken (r : Reader) (p : UInt8 → Bool) : Bytes := r.rest.takeWhile p

/-- Behind the bytes up to the first one that `p` refuses. -/
def skip (r : Reader) (p : UInt8 → Bool) : Reader :=
  ⟨r.rest.dropWhile p, r.place.past (r.taken p)⟩

/-- One byte further. -/
def advance (r : Reader) : Reader := ⟨r.rest.drop 1, r.place.past (r.rest.take 1)⟩

def pastSpaces (r : Reader) : Reader := r.skip isSpace

/-- Behind a name and the spaces that follow it. -/
def pastName (r : Reader) : Reader := (r.skip isNameByte).pastSpaces

/-- To the end of the line, if a comment starts here. -/
def pastComment (r : Reader) : Reader :=
  if r.rest.head? = some hash then r.skip (· != newline) else r

theorem length_skip (r : Reader) (p : UInt8 → Bool) : (r.skip p).rest.length ≤ r.rest.length :=
  (List.dropWhile_suffix p).length_le

theorem length_advance (r : Reader) : r.advance.rest.length = r.rest.length - 1 := by
  simp [advance]

theorem length_pastSpaces (r : Reader) : r.pastSpaces.rest.length ≤ r.rest.length :=
  r.length_skip _

theorem length_pastName (r : Reader) : r.pastName.rest.length ≤ r.rest.length :=
  Nat.le_trans (length_pastSpaces _) (r.length_skip _)

theorem length_pastComment (r : Reader) : r.pastComment.rest.length ≤ r.rest.length := by
  unfold pastComment
  split
  · exact r.length_skip _
  · exact Nat.le_refl _

theorem length_advance_lt {r : Reader} {byte : UInt8} (h : r.rest.head? = some byte) :
    r.advance.rest.length < r.rest.length := by
  rw [length_advance]
  cases hr : r.rest with
  | nil => simp [hr] at h
  | cons _ _ => simp

/-- Behind empty lines and comment lines, and the spaces in front of what follows. -/
def pastEmptyLines (r : Reader) : Reader :=
  let line := r.pastSpaces.pastComment
  if line.rest.head? = some newline then line.advance.pastEmptyLines else line
termination_by r.rest.length
decreasing_by
  exact Nat.lt_of_lt_of_le (length_advance_lt (by assumption))
    (Nat.le_trans (length_pastComment _) (length_pastSpaces _))

theorem length_pastEmptyLines (r : Reader) : r.pastEmptyLines.rest.length ≤ r.rest.length := by
  fun_induction pastEmptyLines r with
  | case1 r line h ih =>
    have := length_advance_lt h
    have : line.rest.length ≤ _ := length_pastComment r.pastSpaces
    have := length_pastSpaces r
    omega
  | case2 r line h => exact Nat.le_trans (length_pastComment _) (length_pastSpaces _)

/-- A bare word, or any bytes but line feeds between two quotes. -/
def readValue (r : Reader) : Except Error Bytes × Reader :=
  match r.rest.head? with
  | some byte =>
    if byte = quote then
      let inside := r.advance
      let isInner := fun b => b != quote && b != newline
      let close := inside.skip isInner
      if close.rest.head? = some quote then (.ok (inside.taken isInner), close.advance)
      else (.error ⟨.openQuote, r.place⟩, close)
    else if isNameByte byte then (.ok (r.taken isNameByte), r.skip isNameByte)
    else (.error ⟨.missingValue, r.place⟩, r)
  | none => (.error ⟨.missingValue, r.place⟩, r)

/-- Takes what may follow a value on its line. -/
def readLineEnd (r : Reader) : Except Error Unit × Reader :=
  let tail := r.pastSpaces.pastComment
  match tail.rest.head? with
  | none => (.ok (), tail)
  | some byte =>
    if byte = newline then (.ok (), tail.advance)
    else (.error ⟨.strayByte, tail.place⟩, tail)

/-- The next pair, or nothing at the end of the text. After an error the reader stays where the
error was noticed. -/
def next (r : Reader) : Except Error (Option Pair) × Reader :=
  let start := r.pastEmptyLines
  match start.rest.head? with
  | none => (.ok none, start)
  | some first =>
    if isLetter first then
      let gap := start.pastName
      if gap.rest.head? = some assign then
        match gap.advance.pastSpaces.readValue with
        | (.error e, r) => (.error e, r)
        | (.ok value, r) =>
          match r.readLineEnd with
          | (.error e, r) => (.error e, r)
          | (.ok (), r) => (.ok (some ⟨start.taken isNameByte, value⟩), r)
      else (.error ⟨.missingAssign, gap.place⟩, gap)
    else
      (.error ⟨if isNameByte first then .badKey else .strayByte, start.place⟩, start)

theorem length_readValue (r : Reader) : r.readValue.2.rest.length ≤ r.rest.length := by
  unfold readValue
  split
  · dsimp only
    split
    · have := length_skip r.advance (fun b => b != quote && b != newline)
      have := length_advance r
      split
      · have := length_advance (r.advance.skip (fun b => b != quote && b != newline))
        dsimp only
        omega
      · dsimp only
        omega
    · split
      · exact r.length_skip _
      · exact Nat.le_refl _
  · exact Nat.le_refl _

theorem length_readLineEnd (r : Reader) : r.readLineEnd.2.rest.length ≤ r.rest.length := by
  have tail := Nat.le_trans (length_pastComment r.pastSpaces) (length_pastSpaces r)
  unfold readLineEnd
  dsimp only
  split
  · exact tail
  · split
    · have := length_advance r.pastSpaces.pastComment
      dsimp only
      omega
    · exact tail

/-- A pair takes at least its `=` off the text. -/
theorem length_next_lt {r after : Reader} {pair : Pair} (h : r.next = (.ok (some pair), after)) :
    after.rest.length < r.rest.length := by
  have empty := length_pastEmptyLines r
  unfold next at h
  dsimp only at h
  split at h
  · simp at h
  · split at h
    · split at h
      · rename_i assigned
        have gap := length_pastName r.pastEmptyLines
        have sign := length_advance_lt assigned
        have spaces := length_pastSpaces r.pastEmptyLines.pastName.advance
        split at h
        · simp at h
        · rename_i value rest read
          have valued := length_readValue r.pastEmptyLines.pastName.advance.pastSpaces
          rw [read] at valued
          have ended := length_readLineEnd rest
          split at h
          · simp at h
          · rename_i last done
            rw [done] at ended
            simp only [Prod.mk.injEq] at h
            obtain ⟨-, rfl⟩ := h
            dsimp only at valued ended
            omega
      · simp at h
    · simp at h

/-- The answers of `count` calls in a row, also past the end or an error. -/
def replies : Nat → Reader → List (Except Error (Option Pair))
  | 0, _ => []
  | count + 1, r => r.next.1 :: replies count r.next.2

/-- All pairs up to the end or the first error, and that error. -/
def pairs (r : Reader) : List Pair × Option Error :=
  match _step : r.next with
  | (.ok (some pair), after) =>
    let (pairs, last) := after.pairs
    (pair :: pairs, last)
  | (.ok none, _) => ([], none)
  | (.error e, _) => ([], some e)
termination_by r.rest.length
decreasing_by exact length_next_lt _step

end Reader

end EfiLoader.Ini
