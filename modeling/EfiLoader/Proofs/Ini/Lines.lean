import EfiLoader.Proofs.Ini.Grammar
import EfiLoader.Proofs.Ini.Scanning

/-!
Reading a settings text is reading its lines by the grammar. What the reader takes off a line alone
is what the grammar gives for it (`OnLine.next_eq_ok_iff`), and with more lines behind it the reader
goes on to them or stops (`OnLine.lineByLine_iff`). Main statement: the pairs of a text, and the
line that ends them with an error, are those of its lines taken one by one (`pairs_line_by_line`).
-/

namespace EfiLoader.Ini

namespace Reader

section Exact

variable {p : UInt8 → Bool} {xs ys : Bytes}

theorem taken_exact (inside : ∀ byte ∈ xs, p byte = true)
    (stop : ∀ byte, ys.head? = some byte → p byte = false) (place : Place) :
    (⟨xs ++ ys, place⟩ : Reader).taken p = xs := by
  change (xs ++ ys).takeWhile p = xs
  rw [List.takeWhile_append_of_pos inside, takeWhile_of_stop stop, List.append_nil]

theorem skip_exact (inside : ∀ byte ∈ xs, p byte = true)
    (stop : ∀ byte, ys.head? = some byte → p byte = false) (place : Place) :
    (⟨xs ++ ys, place⟩ : Reader).skip p = ⟨ys, place.past xs⟩ := by
  rw [skip, taken_exact inside stop]
  change (⟨(xs ++ ys).dropWhile p, _⟩ : Reader) = _
  rw [List.dropWhile_append_of_pos inside, dropWhile_of_stop stop]

theorem taken_append_skip (r : Reader) (p : UInt8 → Bool) : r.taken p ++ (r.skip p).rest = r.rest :=
  List.takeWhile_append_dropWhile

theorem of_mem_taken {r : Reader} {byte : UInt8} (member : byte ∈ r.taken p) : p byte = true :=
  List.all_eq_true.mp List.all_takeWhile byte member

theorem stop_of_skip {r : Reader} {byte : UInt8} (first : (r.skip p).rest.head? = some byte) :
    p byte = false := by
  have stop := List.head?_dropWhile_not p r.rest
  change (r.rest.dropWhile p).head? = _ at first
  rwa [first] at stop

theorem blanks_taken (r : Reader) : Blanks (r.taken isSpace) := fun _ member =>
  isSpace_iff.mp (of_mem_taken member)

theorem pastSpaces_exact {gap : Bytes} (blanks : Blanks gap)
    (stop : ∀ byte, ys.head? = some byte → ¬ Blank byte) (place : Place) :
    (⟨gap ++ ys, place⟩ : Reader).pastSpaces = ⟨ys, place.past gap⟩ :=
  skip_exact (fun byte member => isSpace_iff.mpr (blanks byte member))
    (fun byte first => isSpace_eq_false (stop byte first)) place

end Exact

section LineEnd

variable {number : Nat} {r : Reader} (on : r.OnLine number)
include on

theorem OnLine.skip_comment : (r.skip (· != newline)).rest = [] := by
  have inside : ∀ byte ∈ r.rest, (byte != newline) = true := by
    intro byte member
    have other : byte ≠ newline := fun feed => on.noFeed (feed ▸ member)
    simpa using other
  have all : (⟨r.rest ++ [], r.place⟩ : Reader).skip (· != newline) = ⟨[], _⟩ :=
    skip_exact inside (by simp) r.place
  rw [List.append_nil] at all
  exact congrArg Reader.rest all

theorem OnLine.rest_eq_nil_iff : r.pastSpaces.pastComment.rest = [] ↔ LineEnd r.rest := by
  constructor
  · intro done
    have whole := r.taken_append_skip isSpace
    have blanks := r.blanks_taken
    by_cases comment : r.pastSpaces.rest.head? = some hash
    · obtain ⟨text, behind⟩ : ∃ text, r.pastSpaces.rest = hash :: text :=
        List.head?_eq_some_iff.mp comment
      rw [← whole]
      change LineEnd (_ ++ r.pastSpaces.rest)
      rw [behind]
      exact .comment blanks text
    · rw [Reader.pastComment, if_neg comment] at done
      rw [← whole]
      change LineEnd (_ ++ r.pastSpaces.rest)
      rw [done, List.append_nil]
      exact .blank blanks
  · intro ends
    obtain ⟨rest, place⟩ := r
    dsimp only at ends
    cases ends with
    | blank blanks =>
      have spaces : (⟨rest ++ [], place⟩ : Reader).pastSpaces = ⟨[], _⟩ :=
        pastSpaces_exact blanks (by simp) place
      rw [List.append_nil] at spaces
      rw [spaces]
      rfl
    | @comment gap blanks text =>
      have notBlank : ∀ byte, (hash :: text).head? = some byte → ¬ Blank byte := by
        intro byte first
        cases first
        unfold Blank
        decide
      have spaces := pastSpaces_exact blanks notBlank place
      have onComment := on.pastSpaces
      rw [spaces] at onComment ⊢
      have starts : (hash :: text).head? = some hash := rfl
      rw [Reader.pastComment, if_pos starts]
      exact onComment.skip_comment

theorem OnLine.readLineEnd_eq_ok_iff : r.readLineEnd.1 = .ok () ↔ LineEnd r.rest := by
  rw [← on.rest_eq_nil_iff, on.readLineEnd_eq]
  split <;> simp [*]

end LineEnd

/-! ## Values -/

theorem of_mem_inner {r : Reader} {byte : UInt8}
    (member : byte ∈ r.taken fun b => b != quote && b != newline) : byte ≠ quote := by
  have inner := of_mem_taken member
  simp only [Bool.and_eq_true, bne_iff_ne] at inner
  exact inner.1

theorem advance_cons (byte : UInt8) (rest : Bytes) (place : Place) :
    (⟨byte :: rest, place⟩ : Reader).advance = ⟨rest, place.step byte⟩ := rfl

theorem rest_of_head {r : Reader} {byte : UInt8} (head : r.rest.head? = some byte) :
    r.rest = byte :: r.advance.rest := by
  obtain ⟨rest, same⟩ := List.head?_eq_some_iff.mp head
  rw [advance, same]
  rfl

theorem readValue_sound {r after : Reader} {value : Bytes}
    (read : r.readValue = (.ok value, after)) :
    ∃ text, r.rest = text ++ after.rest ∧ Written text value := by
  unfold readValue at read
  split at read
  · rename_i byte head
    dsimp only at read
    split at read
    · rename_i quoted
      split at read
      · rename_i closed
        cases read
        refine ⟨quote :: (_ ++ [quote]), ?_, .quoted fun inner => of_mem_inner inner rfl⟩
        rw [rest_of_head head, quoted, ← r.advance.taken_append_skip _, rest_of_head closed]
        simp
      · cases read
    · split at read
      · rename_i named
        cases read
        refine ⟨_, (r.taken_append_skip _).symm, .bare ?_ (nameBytes_of_all List.all_takeWhile)⟩
        rw [taken, rest_of_head head, List.takeWhile_cons, if_pos named]
        exact List.cons_ne_nil _ _
      · cases read
  · cases read

theorem readValue_complete {text value rest : Bytes} (written : Written text value)
    (noFeed : newline ∉ text) (stop : ∀ byte, rest.head? = some byte → ¬ NameByte byte)
    (place : Place) :
    ∃ place', (⟨text ++ rest, place⟩ : Reader).readValue = (.ok value, ⟨rest, place'⟩) := by
  cases written with
  | bare some name =>
    obtain ⟨first, others, rfl⟩ := List.exists_cons_of_ne_nil some
    have inside : ∀ byte ∈ first :: others, isNameByte byte = true := fun byte member =>
      isNameByte_iff.mpr (name byte member)
    have boundary : ∀ byte, rest.head? = .some byte → isNameByte byte = false :=
      fun byte head => isNameByte_eq_false (stop byte head)
    have unquoted : ¬ first = quote := by
      intro same
      have named := name first List.mem_cons_self
      rw [same] at named
      revert named
      unfold NameByte Letter
      decide
    have named : isNameByte first = true := inside first List.mem_cons_self
    refine ⟨place.past (first :: others), ?_⟩
    unfold readValue
    simp only [List.cons_append, List.head?_cons, if_neg unquoted, if_pos named]
    rw [← List.cons_append, skip_exact inside boundary, taken_exact inside boundary]
  | quoted inner =>
    have inside : ∀ byte ∈ value, (byte != quote && byte != newline) = true := by
      intro byte member
      have unquoted : byte ≠ quote := fun same => inner (same ▸ member)
      have other : byte ≠ newline := by
        intro same
        apply noFeed
        rw [← same]
        simp [member]
      simp [unquoted, other]
    have boundary : ∀ byte, (quote :: rest).head? = some byte →
        (byte != quote && byte != newline) = false := by
      intro byte head
      cases head
      decide
    have opened : (⟨quote :: (value ++ [quote]) ++ rest, place⟩ : Reader).advance =
        ⟨value ++ quote :: rest, place.past [quote]⟩ := by
      simp [advance]
    refine ⟨((place.past [quote]).past value).past [quote], ?_⟩
    unfold readValue
    simp only [List.cons_append, List.head?_cons, if_pos]
    rw [← List.cons_append, opened, skip_exact inside boundary, taken_exact inside boundary]
    rfl

/-! ## Settings -/

theorem pastName_exact {key gap rest : Bytes} (name : ∀ byte ∈ key, NameByte byte)
    (blanks : Blanks gap) (stop : ∀ byte, rest.head? = some byte → ¬ NameByte byte ∧ ¬ Blank byte)
    (place : Place) :
    (⟨key ++ (gap ++ rest), place⟩ : Reader).pastName = ⟨rest, (place.past key).past gap⟩ ∧
      (⟨key ++ (gap ++ rest), place⟩ : Reader).taken isNameByte = key := by
  have inside : ∀ byte ∈ key, isNameByte byte = true := fun byte member =>
    isNameByte_iff.mpr (name byte member)
  have boundary : ∀ byte, (gap ++ rest).head? = some byte → isNameByte byte = false :=
    fun byte head => isNameByte_eq_false
      (blanks.head_not_name (fun byte head => (stop byte head).1) byte head)
  refine ⟨?_, taken_exact inside boundary place⟩
  rw [pastName, skip_exact inside boundary]
  exact pastSpaces_exact blanks (fun byte head => (stop byte head).2) _

theorem key_taken {r : Reader} {first : UInt8} (head : r.rest.head? = some first)
    (letter : Letter first) : Key (r.taken isNameByte) := by
  have named : isNameByte first = true := isNameByte_iff.mpr letter.nameByte
  rw [taken, rest_of_head head, List.takeWhile_cons, if_pos named]
  exact .letter letter (nameBytes_of_all List.all_takeWhile)

section OnLine

variable {number : Nat} {r : Reader} (on : r.OnLine number)
include on

theorem OnLine.setting_of_pairAt {pair : Pair} {after : Reader}
    (read : r.pairAt = (.ok (some pair), after)) : Setting r.rest pair := by
  have readsValue := on.pastName.advance.pastSpaces.readValue
  have way := pairing r
  rw [read] at way
  cases way with
  | @paired first value behind _ head letter assigned valued ended =>
    rw [valued] at readsValue
    have ends : LineEnd behind.rest := by
      apply readsValue.after.readLineEnd_eq_ok_iff.mp
      rw [ended]
    obtain ⟨text, split, written⟩ := readValue_sound valued
    have key := r.taken_append_skip isNameByte
    have gap := (r.skip isNameByte).taken_append_skip isSpace
    have sign := rest_of_head assigned
    have gap' := r.pastName.advance.taken_append_skip isSpace
    change _ ++ r.pastName.rest = _ at gap
    change _ ++ r.pastName.advance.pastSpaces.rest = _ at gap'
    rw [← key, ← gap, sign, ← gap', split]
    exact .assigned (key_taken head (isLetter_iff.mp letter)) (blanks_taken _) (blanks_taken _)
      written ends

theorem OnLine.pairAt_of_setting {pair : Pair} (setting : Setting r.rest pair) :
    r.pairAt.1 = .ok (some pair) := by
  have readsValue := on.pastName.advance.pastSpaces.readValue
  have noFeed := on.noFeed
  obtain ⟨rest, place⟩ := r
  dsimp only at setting noFeed
  cases setting with
  | @assigned key gap gap' text value tail named blanks blanks' written ends =>
    obtain ⟨first, head, letter⟩ := named.head_letter (gap ++ assign :: (gap' ++ (text ++ tail)))
    have boundary : ∀ byte, (assign :: (gap' ++ (text ++ tail))).head? = some byte →
        ¬ NameByte byte ∧ ¬ Blank byte := by
      intro byte first
      cases first
      unfold NameByte Letter Blank
      decide
    obtain ⟨name, word⟩ := pastName_exact named.nameBytes blanks boundary place
    have feedless : newline ∉ text := by
      intro feed
      apply noFeed
      simp [feed]
    have assigned : (Reader.mk (key ++ (gap ++ assign :: (gap' ++ (text ++ tail))))
        place).pastName.rest.head? = some assign := by
      rw [name]
      rfl
    have behind : (Reader.mk (key ++ (gap ++ assign :: (gap' ++ (text ++ tail))))
        place).pastName.advance.pastSpaces =
          ⟨text ++ tail, (((place.past key).past gap).step assign).past gap'⟩ := by
      rw [name, advance_cons, pastSpaces_exact blanks' (written.head_not_blank tail)]
    obtain ⟨place', read⟩ := readValue_complete written feedless ends.head_not_name
      ((((place.past key).past gap).step assign).past gap')
    rw [← behind] at read
    rw [read] at readsValue
    have ended := readsValue.after.readLineEnd_eq_ok_iff.mpr ends
    rcases whole : (⟨tail, place'⟩ : Reader).readLineEnd with ⟨e | _, after⟩
    · rw [whole] at ended
      cases ended
    · rw [(Pairing.paired head (isLetter_iff.mpr letter) assigned read whole).eq, word]

omit on in
theorem pairAt_eq_none_iff : r.pairAt.1 = .ok none ↔ r.rest = [] := by
  constructor
  · intro read
    have way := pairing r
    generalize r.pairAt = result at way read
    cases way with
    | ended empty => exact empty
    | noKey | noAssign | noValue | noEnd | paired => cases read
  · intro empty
    rw [(Pairing.ended empty).eq]

/-- **What the reader takes off a line is what the grammar gives for it.** -/
theorem OnLine.next_eq_ok_iff {o : Option Pair} : r.next.1 = .ok o ↔ Line r.rest o := by
  have start := on.pastSpaces.pastComment
  rw [next_eq, on.pastEmptyLines_eq]
  cases o with
  | none =>
    rw [pairAt_eq_none_iff, on.rest_eq_nil_iff, line_none_iff]
  | some pair =>
    constructor
    · intro read
      have setting := start.setting_of_pairAt (Prod.ext read rfl)
      obtain ⟨first, head, letter⟩ := setting.head_letter
      have spaces := r.taken_append_skip isSpace
      by_cases comment : r.pastSpaces.rest.head? = some hash
      · rw [Reader.pastComment, if_pos comment, on.pastSpaces.skip_comment] at head
        cases head
      · rw [Reader.pastComment, if_neg comment] at setting
        rw [← spaces]
        exact .setting r.blanks_taken setting
    · intro line
      obtain ⟨text, place⟩ := r
      dsimp only at line
      cases line with
      | @setting gap rest _ blanks setting =>
        obtain ⟨first, head, letter⟩ := setting.head_letter
        have boundary : ∀ byte, rest.head? = some byte → ¬ Blank byte := by
          intro byte same
          rw [head] at same
          cases same
          exact letter.nameByte.not_blank
        have other : ¬ rest.head? = some hash := by
          rw [head]
          intro same
          cases same
          revert letter
          unfold Letter
          decide
        rw [pastSpaces_exact blanks boundary, Reader.pastComment, if_neg other] at start ⊢
        exact start.pairAt_of_setting setting

end OnLine

/-! ## Line after line -/

section Pairs

variable {r after : Reader}

theorem pairs_of_none (read : r.next = (.ok none, after)) : r.pairs = ([], none) := by
  rw [pairs]
  split <;> simp_all

theorem pairs_of_pair {pair : Pair} (read : r.next = (.ok (some pair), after)) :
    r.pairs = (pair :: after.pairs.1, after.pairs.2) := by
  rw [pairs]
  split <;> simp_all

theorem pairs_of_error {e : Error} (read : r.next = (.error e, after)) :
    r.pairs = ([], some e) := by
  rw [pairs]
  split <;> simp_all

/-- The first step decides the rest. -/
theorem pairs_congr {r' : Reader} (same : r.next = r'.next) : r.pairs = r'.pairs := by
  rcases read : r'.next with ⟨e | _ | pair, after⟩
  · rw [pairs_of_error read, pairs_of_error (same.trans read)]
  · rw [pairs_of_none read, pairs_of_none (same.trans read)]
  · rw [pairs_of_pair read, pairs_of_pair (same.trans read)]

end Pairs

/-- All pairs up to the end or the first error, and the line of that error. -/
def summary (r : Reader) : List Pair × Option Nat := (r.pairs.1, r.pairs.2.map (·.place.line))

theorem summary_nil (place : Place) : (⟨[], place⟩ : Reader).summary = ([], none) := by
  have on : (⟨[], place⟩ : Reader).OnLine place.line := ⟨List.not_mem_nil, rfl⟩
  have read := on.next_eq_ok_iff.mpr (.empty (.blank nofun))
  rw [summary, pairs_of_none (Prod.ext read rfl)]
  rfl

section OnLine

variable {number : Nat} {r : Reader} (on : r.OnLine number)
include on

theorem OnLine.rest_pastEmptyLines_iff : r.pastEmptyLines.rest = [] ↔ Line r.rest none := by
  rw [on.pastEmptyLines_eq, on.rest_eq_nil_iff, line_none_iff]

variable {tail : Bytes} (ends : FromLineEnd tail)
include ends

/-- A line with a pair gives it, and then what is behind its line feed is read. -/
theorem OnLine.summary_of_pair {pair : Pair} (setting : Line r.rest (some pair)) :
    ∃ place : Place, place.line = number ∧
      (r.before tail).summary =
        (pair :: (⟨tail, place⟩ : Reader).advance.summary.1,
          (⟨tail, place⟩ : Reader).advance.summary.2) := by
  have read := on.next_eq_ok_iff.mpr setting
  have remains : r.pastEmptyLines.rest ≠ [] := by
    intro empty
    rw [on.next_eq_ok_iff.mpr (on.rest_pastEmptyLines_iff.mp empty)] at read
    cases read
  have step := on.next_before ends remains
  have stays := on.next
  rcases whole : r.next with ⟨_, after⟩
  rw [whole] at read step stays
  cases read
  have done : after.rest = [] := on.rest_of_next whole
  have moved : after.before tail = ⟨tail, after.place⟩ := by
    rw [before, done, List.nil_append]
  refine ⟨after.place, stays.after.line, ?_⟩
  rw [summary, pairs_of_pair step, moved]
  rfl

theorem OnLine.summary_of_empty (empty : Line r.rest none) :
    ∃ place : Place, place.line = number ∧
      (r.before tail).summary = (⟨tail, place⟩ : Reader).advance.summary := by
  have nothing := on.rest_pastEmptyLines_iff.mpr empty
  refine ⟨r.pastEmptyLines.place, on.pastEmptyLines.line, ?_⟩
  cases tail with
  | nil =>
    have read := on.next_eq_ok_iff.mpr empty
    rw [before_nil, advance_of_empty rfl, summary_nil, summary, pairs_of_none (Prod.ext read rfl)]
    rfl
  | cons byte rest =>
    obtain rfl : byte = newline := ends byte rfl
    have moved : r.pastEmptyLines.before (newline :: rest) =
        ⟨newline :: rest, r.pastEmptyLines.place⟩ := by
      rw [before, nothing, List.nil_append]
    have same : (r.before (newline :: rest)).next =
        (⟨newline :: rest, r.pastEmptyLines.place⟩ : Reader).advance.next := by
      rw [on.next_before_empty nothing, moved]
    rw [summary, summary, pairs_congr same]

theorem OnLine.summary_of_refused (no : ∀ o, ¬ Line r.rest o) :
    (r.before tail).summary = ([], some number) := by
  have remains : r.pastEmptyLines.rest ≠ [] := fun empty =>
    no none (on.rest_pastEmptyLines_iff.mp empty)
  have step := on.next_before ends remains
  have stays := on.next
  rcases whole : r.next with ⟨e | o, after⟩
  · rw [whole] at step stays
    rw [summary, pairs_of_error step]
    exact Prod.ext rfl (congrArg some (stays.error e rfl))
  · exact absurd (on.next_eq_ok_iff.mp (congrArg Prod.fst whole)) (no o)

/-- A first line is read as the grammar says, if the lines behind it are. -/
theorem OnLine.lineByLine_iff {lines : List Bytes}
    (later : ∀ place : Place, place.line = number → ∀ pairs stop,
      LineByLine (number + 1) lines pairs stop ↔
        (⟨tail, place⟩ : Reader).advance.summary = (pairs, stop)) (pairs : List Pair)
    (stop : Option Nat) :
    LineByLine number (r.rest :: lines) pairs stop ↔ (r.before tail).summary = (pairs, stop) := by
  constructor
  · intro told
    cases told with
    | empty empty rest =>
      obtain ⟨place, line, same⟩ := on.summary_of_empty ends empty
      rw [same]
      exact (later place line _ _).mp rest
    | setting setting rest =>
      obtain ⟨place, line, same⟩ := on.summary_of_pair ends setting
      rw [same, (later place line _ _).mp rest]
    | refused no => exact on.summary_of_refused ends no
  · intro told
    rcases whole : r.next.1 with e | _ | pair
    · have no : ∀ o, ¬ Line r.rest o := by
        intro o line
        rw [on.next_eq_ok_iff.mpr line] at whole
        cases whole
      rw [on.summary_of_refused ends no] at told
      cases told
      exact .refused no
    · have empty := on.next_eq_ok_iff.mp whole
      obtain ⟨place, line, same⟩ := on.summary_of_empty ends empty
      rw [same] at told
      exact .empty empty ((later place line _ _).mpr told)
    · have setting := on.next_eq_ok_iff.mp whole
      obtain ⟨place, line, same⟩ := on.summary_of_pair ends setting
      rw [same] at told
      cases told
      exact .setting setting ((later place line _ _).mpr rfl)

end OnLine

end Reader

/-- Induction over the lines of a text. -/
theorem lines_induction {motive : Bytes → Prop}
    (last : ∀ line, newline ∉ line → motive line)
    (before : ∀ line rest, newline ∉ line → motive rest → motive (line ++ newline :: rest))
    (text : Bytes) : motive text := by
  by_cases feed : newline ∈ text
  · obtain ⟨line, rest, split, noFeed⟩ := List.eq_append_cons_of_mem feed
    have shorter : rest.length < text.length := by
      rw [split, List.length_append, List.length_cons]
      omega
    rw [split]
    exact before line rest noFeed (lines_induction last before rest)
  · exact last text feed
termination_by text.length

theorem lineByLine_nil_iff {number : Nat} {pairs : List Pair} {stop : Option Nat} :
    LineByLine number [] pairs stop ↔ ([], none) = (pairs, stop) := by
  constructor
  · intro told
    cases told
    rfl
  · intro same
    cases same
    exact .done number

/-- Reading from any place is reading the lines from there on. The induction is over the lines:
behind each line feed the reader stands on the next line. -/
theorem lineByLine_iff_summary (text : Bytes) (place : Place) (pairs : List Pair)
    (stop : Option Nat) :
    LineByLine place.line (text.splitOn newline) pairs stop ↔
      (⟨text, place⟩ : Reader).summary = (pairs, stop) := by
  induction text using lines_induction generalizing place pairs stop with
  | last line noFeed =>
    have on : (⟨line, place⟩ : Reader).OnLine place.line := ⟨noFeed, rfl⟩
    rw [List.splitOn_eq_singleton noFeed]
    have whole := (⟨line, place⟩ : Reader).before_nil
    rw [← whole]
    refine on.lineByLine_iff .nil ?_ pairs stop
    intro place' _ pairs stop
    rw [lineByLine_nil_iff, Reader.advance_of_empty rfl, Reader.summary_nil]
  | before line rest noFeed ih =>
    have on : (⟨line, place⟩ : Reader).OnLine place.line := ⟨noFeed, rfl⟩
    rw [List.splitOn_append_cons_self_of_not_mem noFeed]
    refine on.lineByLine_iff (.feed rest) ?_ pairs stop
    intro place' same pairs stop
    have next : (place'.step newline).line = place.line + 1 := congrArg (· + 1) same
    rw [← next, ih]
    rfl

/-- **A settings text is read line by line.** The pairs that the reader takes off a text, one call
after another, and the line on which an error ends them are those that the grammar gives for the
lines of the text up to its first NUL, each line on its own. -/
theorem pairs_line_by_line (text : Bytes) (pairs : List Pair) (stop : Option Nat) :
    LineByLine 1 ((text.takeWhile (· != 0)).splitOn newline) pairs stop ↔
      (Reader.ofBytes text).pairs.1 = pairs ∧
        (Reader.ofBytes text).pairs.2.map (·.place.line) = stop := by
  have run := lineByLine_iff_summary (text.takeWhile (· != 0)) .start pairs stop
  rw [Reader.summary, Prod.mk.injEq] at run
  exact run

end EfiLoader.Ini
