import EfiLoader.Kernel.Load
import EfiLoader.Proofs.Attempts
import EfiLoader.Proofs.Kernel.Bounds

/-!
Every history that loading a kernel can have, phase by phase: `Staging` reads the file into a pool
block, `Placing` claims the pages and stores the segments, `Loading` is the whole. Main statements:
these are all histories (`staging_of_yields`, `placing_of_yields`, `loading_of_yields`).
-/

namespace EfiLoader.Kernel

open Boot (Cause)
open Services (Block ReadReply)

variable {h : List (Exchange Services)}

/-- What a reply to a request to read lacks, told as the status to end with. -/
inductive Shortfall (size : UInt64) : Outcome Status ReadReply → Status → Prop
  | failed (status : Status) : Shortfall size (.fail status) status
  | short (reply : ReadReply) (differs : reply.count ≠ size) :
      Shortfall size (.ok reply) .endOfFile

/-- What a pool block of `size` bytes holds once data was read into it. -/
def fillBlock (size : UInt64) (block : Block) (data : Bytes) : Bytes :=
  (Bytes.overlay (List.replicate size.toNat 0) 0 block.contents).overlay 0 data

inductive Staging (file : Services.File) :
    List (Exchange Services) → Outcome Cause Staged → Prop
  | sizeCrashed : Staging file [⟨.fileSize file, .crash⟩] .crash
  | noSize (status : Status) : Staging file [⟨.fileSize file, .fail status⟩] (.fail (.io status))
  | poolCrashed (size : UInt64) :
      Staging file [⟨.fileSize file, .ok size⟩, ⟨.allocatePool size, .crash⟩] .crash
  | noMemory (size : UInt64) (status : Status) (record : Log.Record) :
      Staging file
        [⟨.fileSize file, .ok size⟩, ⟨.allocatePool size, .fail status⟩, ⟨.log record, ()⟩]
        (.fail (.outOfMemory status))
  | readCrashed (size : UInt64) (block : Block) :
      Staging file
        [⟨.fileSize file, .ok size⟩, ⟨.allocatePool size, .ok block⟩,
          ⟨.readFile file size, .crash⟩]
        .crash
  | freeCrashed (size : UInt64) (block : Block) (reply : Outcome Status ReadReply)
      (record : Log.Record) :
      Staging file
        [⟨.fileSize file, .ok size⟩, ⟨.allocatePool size, .ok block⟩,
          ⟨.readFile file size, reply⟩, ⟨.log record, ()⟩, ⟨.freePool block.address, .crash⟩]
        .crash
  /-- The block is released; whether that failed makes no difference. -/
  | notRead (size : UInt64) (block : Block) (reply : Outcome Status ReadReply) (status : Status)
      (record : Log.Record) (freed : Except Status Unit) (shortfall : Shortfall size reply status) :
      Staging file
        [⟨.fileSize file, .ok size⟩, ⟨.allocatePool size, .ok block⟩,
          ⟨.readFile file size, reply⟩, ⟨.log record, ()⟩,
          ⟨.freePool block.address, freed.mapError .failed⟩]
        (.fail (.io status))
  | staged (size : UInt64) (block : Block) (reply : ReadReply) (full : reply.count = size) :
      Staging file
        [⟨.fileSize file, .ok size⟩, ⟨.allocatePool size, .ok block⟩,
          ⟨.readFile file size, .ok reply⟩]
        (.ok ⟨block.address, fillBlock size block reply.data⟩)

theorem staging_of_yields {file : Services.File} {o : Outcome Cause Staged}
    (yields : (stage file).Yields h o) : Staging file h o := by
  rcases Attempt.of_require_bind yields with ⟨stop, asked, rfl⟩ | ⟨_, size, _, rfl, asked, sized⟩
  · cases Program.yields_request.mp asked
    cases stop with
    | failed status => exact .noSize status
    | crashed => exact .sizeCrashed
  cases Program.yields_request.mp asked
  rcases Attempt.of_reply_bind sized with ⟨asked, rfl⟩ | ⟨_, granted, _, rfl, asked, answered⟩
  · cases Program.yields_request.mp asked
    exact .poolCrashed size
  cases Program.yields_request.mp asked
  cases granted with
  | error status =>
    obtain ⟨_, _, rfl, noted⟩ := Attempt.yields_lift_bind.mp answered
    obtain ⟨rfl, rfl⟩ := Attempt.yields_fail.mp noted
    exact .noMemory size status _
  | ok block =>
    -- Both a failed and a short read end in these calls.
    have givenUp {reply : Outcome Status ReadReply} {status : Status}
        {rest : List (Exchange Services)} (shortfall : Shortfall size reply status)
        (giving : Attempt.Yields (do
          Services.log .error target (readFailure block size status)
          let _ ← Attempt.reply (Services.freePool block.address)
          Attempt.fail (.io status)) rest o) :
        Staging file (⟨.fileSize file, .ok size⟩ :: ⟨.allocatePool size, .ok block⟩ ::
          ⟨.readFile file size, reply⟩ :: rest) o := by
      obtain ⟨_, _, rfl, noted⟩ := Attempt.yields_lift_bind.mp giving
      rcases Attempt.of_reply_bind noted with ⟨asked, rfl⟩ | ⟨_, freed, _, rfl, asked, failed⟩
      · cases Program.yields_request.mp asked
        exact .freeCrashed size block reply _
      cases Program.yields_request.mp asked
      obtain ⟨rfl, rfl⟩ := Attempt.yields_fail.mp failed
      exact .notRead size block reply status _ freed shortfall
    rcases Attempt.of_reply_bind answered with ⟨asked, rfl⟩ | ⟨_, read, _, rfl, asked, judged⟩
    · cases Program.yields_request.mp asked
      exact .readCrashed size block
    cases Program.yields_request.mp asked
    cases read with
    | error status => exact givenUp (.failed status) judged
    | ok reply =>
      dsimp only at judged
      by_cases full : reply.count = size
      · rw [if_pos full] at judged
        obtain ⟨rfl, rfl⟩ := Attempt.yields_pure.mp judged
        exact .staged size block reply full
      · rw [if_neg full] at judged
        exact givenUp (.short reply full) judged

/-- The store that puts a segment into the memory at `destination`. -/
def Segment.stored (file : Bytes) (base destination : UInt64) (s : Segment) : Exchange Services :=
  ⟨.store (destination + .ofNat (s.address.toNat - base.toNat)) (s.contents file), ()⟩

theorem storeSegments_yields {file : Bytes} {base destination : UInt64} {size : Nat}
    {segments : List Segment} {o : Outcome Cause Unit}
    (places : ∀ s ∈ segments,
      s.store? file base size = some (s.address.toNat - base.toNat, s.contents file))
    (yields : (storeSegments file base destination size segments).Yields h o) :
    h = segments.map (Segment.stored file base destination) ∧ o = .ok () := by
  induction segments generalizing h with
  | nil => exact Attempt.yields_pure.mp yields
  | cons s rest ih =>
    rw [storeSegments, places s List.mem_cons_self] at yields
    obtain ⟨_, _, rfl, storing⟩ := Attempt.yields_lift_bind.mp yields
    obtain ⟨rfl, rfl⟩ := ih (fun t ht => places t (List.mem_cons_of_mem s ht)) storing
    exact ⟨rfl, rfl⟩

/-- An accepted file with the span of its segments and the number of the span's pages. -/
structure Fits (file : Bytes) (kernel : Executable) (span : Span) (pages : Nat) : Prop where
  parsed : Executable.parse file = .ok kernel
  spanned : (kernel.span : Outcome Cause (Option Span)) = .ok (some span)
  counted : (span.pages : Outcome Cause Nat) = .ok pages

/-- Accepted files have a span and pages, unless they have nothing to load. -/
theorem exists_fits {file : Bytes} {kernel : Executable}
    (parsed : Executable.parse file = .ok kernel) :
    (kernel.segments = [] ∧ (kernel.span : Outcome Cause (Option Span)) = .ok none) ∨
      ∃ span pages, Fits file kernel span pages := by
  obtain ⟨elf, reads⟩ := Executable.parse_reads parsed
  rcases Span.cover_enclosing (ε := Cause) fun s hs => (reads.valid s hs).memory with
    none | ⟨span, spanned, some, encloses⟩
  · exact .inl none
  · obtain ⟨s, hs⟩ := List.exists_mem_of_ne_nil _ some
    obtain ⟨pages, counted, _⟩ := Span.pages_reaching (ε := Cause) (encloses s hs).first_le_last
    exact .inr ⟨span, pages, parsed, spanned, counted⟩

namespace Fits

variable {file : Bytes} {kernel : Executable} {span : Span} {pages : Nat}

theorem encloses (fits : Fits file kernel span pages) :
    ∀ s ∈ kernel.segments, span.Encloses s := by
  obtain ⟨elf, reads⟩ := Executable.parse_reads fits.parsed
  rcases Span.cover_enclosing (ε := Cause) fun s hs => (reads.valid s hs).memory with
    ⟨_, none⟩ | ⟨_, spanned, _, encloses⟩
  · cases none.symm.trans fits.spanned
  · cases spanned.symm.trans fits.spanned
    exact encloses

theorem segments_ne_nil (fits : Fits file kernel span pages) : kernel.segments ≠ [] := by
  intro nil
  have spanned := fits.spanned
  rw [Executable.span, nil] at spanned
  cases spanned

theorem least (fits : Fits file kernel span pages) :
    IsLeast {n | span.last.toNat ≤ span.base.toNat + n * pageSize} pages := by
  obtain ⟨s, hs⟩ := List.exists_mem_of_ne_nil _ fits.segments_ne_nil
  obtain ⟨_, counted, least⟩ := Span.pages_least (ε := Cause) (fits.encloses s hs).first_le_last
  cases counted.symm.trans fits.counted
  exact least

theorem reaching (fits : Fits file kernel span pages) :
    span.last.toNat ≤ span.base.toNat + pages * pageSize := fits.least.1

/-- The last page may be that of the last address, but none comes after it. -/
theorem end_le (fits : Fits file kernel span pages) :
    span.base.toNat + pages * pageSize ≤ wordLimit := by
  have base := span.toNat_base
  have first := span.first.toNat_lt
  have last := span.last.toNat_lt
  -- Pages up to the end of the address space would do, and the span's are the fewest that do.
  have toTheEnd : span.last.toNat ≤
      span.base.toNat + (wordLimit / pageSize - span.first.toNat / pageSize) * pageSize := by
    simp only [wordLimit, pageSize] at base ⊢
    omega
  have fewest := fits.least.2 toTheEnd
  simp only [wordLimit, pageSize] at base fewest ⊢
  omega

theorem store? (fits : Fits file kernel span pages) :
    ∀ s ∈ kernel.segments, s.store? file span.base (pages * pageSize) =
      some (s.address.toNat - span.base.toNat, s.contents file) := by
  obtain ⟨elf, reads⟩ := Executable.parse_reads fits.parsed
  exact fun s hs => Segment.store?_of_enclosed (reads.valid s hs) (fits.encloses s hs) fits.reaching

end Fits

inductive Placing (file : Bytes) : List (Exchange Services) → Outcome Cause Loaded → Prop
  | rejected (rejection : Rejection) (parsed : Executable.parse file = .error rejection) :
      Placing file [] (.fail (.invalidKernel rejection))
  | nothing (kernel : Executable) (parsed : Executable.parse file = .ok kernel)
      (nil : kernel.segments = []) :
      Placing file [] (.fail .noLoadSegments)
  | grantCrashed {kernel : Executable} {span : Span} {pages : Nat}
      (fits : Fits file kernel span pages) :
      Placing file [⟨.allocatePages span.base pages, .crash⟩] .crash
  | refused {kernel : Executable} {span : Span} {pages : Nat}
      (fits : Fits file kernel span pages) (status : Status) (record : Log.Record) :
      Placing file [⟨.allocatePages span.base pages, .fail status⟩, ⟨.log record, ()⟩]
        (.fail (.addressRangeUnavailable status))
  /-- No memory is as large as the granted pages. -/
  | tooLarge {kernel : Executable} {span : Span} {pages : Nat}
      (fits : Fits file kernel span pages) (destination : UInt64)
      (large : wordLimit ≤ pages * pageSize) :
      Placing file [⟨.allocatePages span.base pages, .ok destination⟩] .crash
  | placed {kernel : Executable} {span : Span} {pages : Nat}
      (fits : Fits file kernel span pages) (destination : UInt64) (record : Log.Record)
      (bounded : pages * pageSize < wordLimit) :
      Placing file
        (⟨.allocatePages span.base pages, .ok destination⟩ ::
          (kernel.segments.map (Segment.stored file span.base destination) ++ [⟨.log record, ()⟩]))
        (.ok ⟨kernel.entry, span⟩)

theorem placing_of_yields {file : Bytes} {o : Outcome Cause Loaded}
    (yields : (placeFile file).Yields h o) : Placing file h o := by
  unfold placeFile at yields
  cases parsed : Executable.parse file with
  | error rejection =>
    simp only [parsed, Outcome.mapError_error, Attempt.ofExcept_error_bind] at yields
    obtain ⟨rfl, rfl⟩ := Attempt.yields_fail.mp yields
    exact .rejected rejection parsed
  | ok kernel =>
    simp only [parsed, Outcome.mapError_ok, Attempt.ofExcept_ok_bind] at yields
    rcases exists_fits parsed with ⟨nil, spanned⟩ | ⟨span, pages, fits⟩
    · simp only [spanned, Attempt.ofOutcome_ok_bind] at yields
      obtain ⟨rfl, rfl⟩ := Attempt.yields_fail.mp yields
      exact .nothing kernel parsed nil
    simp only [fits.spanned, fits.counted, Attempt.ofOutcome_ok_bind] at yields
    rcases Attempt.of_reply_bind yields with ⟨asked, rfl⟩ | ⟨_, granted, _, rfl, asked, claimed⟩
    · cases Program.yields_request.mp asked
      exact .grantCrashed fits
    cases Program.yields_request.mp asked
    cases granted with
    | error status =>
      obtain ⟨_, _, rfl, noted⟩ := Attempt.yields_lift_bind.mp claimed
      obtain ⟨rfl, rfl⟩ := Attempt.yields_fail.mp noted
      exact .refused fits status _
    | ok destination =>
      by_cases large : wordLimit ≤ pages * pageSize
      · simp only [if_pos large, Attempt.crash_bind] at claimed
        obtain ⟨rfl, rfl⟩ := Attempt.yields_crash.mp claimed
        exact .tooLarge fits destination large
      · simp only [if_neg large] at claimed
        rcases Attempt.yields_bind.mp claimed with
          ⟨_, storing, rfl⟩ | ⟨_, _, _, rfl, storing, stored⟩
        · cases (storeSegments_yields fits.store? storing).2
        · obtain ⟨rfl, _⟩ := storeSegments_yields fits.store? storing
          obtain ⟨_, _, rfl, noted⟩ := Attempt.yields_lift_bind.mp stored
          obtain ⟨rfl, rfl⟩ := Attempt.yields_pure.mp noted
          exact .placed fits destination _ (Nat.not_le.mp large)

/-- What a failure to open the file is told as. -/
def openFailure (status : Status) : Cause :=
  if status = .notFound then .fileNotFound status else .io status

inductive Loading (path : String) : List (Exchange Services) → Outcome Cause Loaded → Prop
  | openCrashed : Loading path [⟨.openFile path, .crash⟩] .crash
  | notOpened (status : Status) (record : Log.Record) :
      Loading path [⟨.openFile path, .fail status⟩, ⟨.log record, ()⟩] (.fail (openFailure status))
  | stagingCrashed {file : Services.File} {staging : List (Exchange Services)}
      (crashed : Staging file staging .crash) :
      Loading path (⟨.openFile path, .ok file⟩ :: staging) .crash
  | notStaged {file : Services.File} {staging : List (Exchange Services)} {cause : Cause}
      (failed : Staging file staging (.fail cause)) :
      Loading path (⟨.openFile path, .ok file⟩ :: (staging ++ [⟨.closeFile file, ()⟩]))
        (.fail cause)
  | placingCrashed {file : Services.File} {staging placing : List (Exchange Services)}
      {staged : Staged} (read : Staging file staging (.ok staged))
      (crashed : Placing staged.bytes placing .crash) :
      Loading path
        (⟨.openFile path, .ok file⟩ :: (staging ++ ⟨.closeFile file, ()⟩ :: placing)) .crash
  | freeCrashed {file : Services.File} {staging placing : List (Exchange Services)}
      {staged : Staged} {result : Except Cause Loaded} (read : Staging file staging (.ok staged))
      (ended : Placing staged.bytes placing (result.mapError .failed)) :
      Loading path
        (⟨.openFile path, .ok file⟩ :: (staging ++ ⟨.closeFile file, ()⟩ :: (placing ++
          [⟨.freePool staged.block, .crash⟩])))
        .crash
  /-- A failure to release the block is not told as well. -/
  | notPlaced {file : Services.File} {staging placing : List (Exchange Services)} {staged : Staged}
      {cause : Cause} (read : Staging file staging (.ok staged))
      (failed : Placing staged.bytes placing (.fail cause)) (freed : Except Status Unit) :
      Loading path
        (⟨.openFile path, .ok file⟩ :: (staging ++ ⟨.closeFile file, ()⟩ :: (placing ++
          [⟨.freePool staged.block, freed.mapError .failed⟩])))
        (.fail cause)
  | notReleased {file : Services.File} {staging placing : List (Exchange Services)}
      {staged : Staged} {loaded : Loaded} (read : Staging file staging (.ok staged))
      (placed : Placing staged.bytes placing (.ok loaded)) (status : Status)
      (record : Log.Record) :
      Loading path
        (⟨.openFile path, .ok file⟩ :: (staging ++ ⟨.closeFile file, ()⟩ :: (placing ++
          [⟨.freePool staged.block, .fail status⟩, ⟨.log record, ()⟩])))
        (.fail (.io status))
  | loaded {file : Services.File} {staging placing : List (Exchange Services)} {staged : Staged}
      {loaded : Loaded} (read : Staging file staging (.ok staged))
      (placed : Placing staged.bytes placing (.ok loaded)) :
      Loading path
        (⟨.openFile path, .ok file⟩ :: (staging ++ ⟨.closeFile file, ()⟩ :: (placing ++
          [⟨.freePool staged.block, .ok ()⟩])))
        (.ok loaded)

theorem loading_of_yields {path : String} {o : Outcome Cause Loaded}
    (yields : (load path).Yields h o) : Loading path h o := by
  rcases Attempt.of_reply_bind yields with ⟨asked, rfl⟩ | ⟨_, opened, _, rfl, asked, answered⟩
  · cases Program.yields_request.mp asked
    exact .openCrashed
  cases Program.yields_request.mp asked
  cases opened with
  | error status =>
    obtain ⟨_, _, rfl, noted⟩ := Attempt.yields_lift_bind.mp answered
    obtain ⟨rfl, rfl⟩ := Attempt.yields_fail.mp noted
    exact .notOpened status _
  | ok file =>
    rcases Attempt.of_settle_bind answered with ⟨read, rfl⟩ | ⟨_, read, _, rfl, reading, settled⟩
    · exact .stagingCrashed (staging_of_yields read)
    obtain ⟨_, _, rfl, closed⟩ := Attempt.yields_lift_bind.mp settled
    cases read with
    | error cause =>
      obtain ⟨rfl, rfl⟩ := Attempt.yields_fail.mp closed
      exact .notStaged (staging_of_yields reading)
    | ok staged =>
      have read := staging_of_yields reading
      rw [Attempt.ofExcept_ok_bind] at closed
      rcases Attempt.of_settle_bind closed with ⟨crashed, rfl⟩ | ⟨_, result, _, rfl, placing, ended⟩
      · exact .placingCrashed read (placing_of_yields crashed)
      have placed := placing_of_yields placing
      rcases Attempt.of_reply_bind ended with ⟨asked, rfl⟩ | ⟨_, freed, _, rfl, asked, released⟩
      · cases Program.yields_request.mp asked
        exact .freeCrashed read placed
      cases Program.yields_request.mp asked
      cases result with
      | error cause =>
        obtain ⟨rfl, rfl⟩ := Attempt.yields_fail.mp released
        exact .notPlaced read placed freed
      | ok loaded =>
        rw [Attempt.ofExcept_ok_bind] at released
        cases freed with
        | error status =>
          obtain ⟨_, _, rfl, noted⟩ := Attempt.yields_lift_bind.mp released
          obtain ⟨rfl, rfl⟩ := Attempt.yields_fail.mp noted
          exact .notReleased read placed status _
        | ok _ =>
          obtain ⟨rfl, rfl⟩ := Attempt.yields_pure.mp released
          exact .loaded read placed

end EfiLoader.Kernel
