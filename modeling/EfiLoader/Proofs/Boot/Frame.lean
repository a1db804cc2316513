import EfiLoader.Proofs.Boot.Stages
import EfiLoader.Proofs.Kernel.Placement

/-!
What a boot attempt leaves of physical memory. `prepare_frames`: whatever the firmware replies, it
is asked for pages at most once, nothing outside the frame buffer is written but in pages that were
granted before, and the frame buffer is painted as a whole or not written at all. Attempts that do
not come to the placing of their kernel have no pages.

Most calls are quiet, they have nothing to do with memory. What is left are the search for the
screen, the painting, and the placing of the kernel, whose writes are `Contained` in its own grant.
-/

namespace EfiLoader

open Kernel (pageSize wordLimit)

variable {h h' : List (Exchange Services)} {screen : Screen.Mode} {allowed : Nat → Prop}

/-- The byte at that address is one of the frame buffer's. -/
def Screen.Mode.Holds (mode : Screen.Mode) (a : Nat) : Prop :=
  mode.base.toNat ≤ a ∧ a < mode.base.toNat + mode.size.toNat

/-- The screen is in that mode, and pages are granted only where they end in the address space and
hold no byte of the frame buffer. -/
def Services.Keeps (screen : Screen.Mode) : (request : Request) → Reply request → Prop
  | .graphicsMode, reply => ∀ mode, reply = .ok (some mode) → mode = screen
  | .allocatePages _ count, reply => ∀ destination, reply = .ok destination →
    destination.toNat + count * pageSize ≤ wordLimit ∧
      ∀ a, destination.toNat ≤ a → a < destination.toNat + count * pageSize → ¬ screen.Holds a
  | _, _ => True

namespace Exchange

/-- The byte at that address is one of the pages that the call granted. -/
def Grants : Exchange Services → Nat → Prop
  | ⟨.allocatePages _ count, .ok destination⟩, a =>
    destination.toNat ≤ a ∧ a < destination.toNat + count * pageSize
  | _, _ => False

/-- A file is not opened, or not read in full. -/
def FallsShort : Exchange Services → Prop
  | ⟨.openFile _, .ok _⟩ | ⟨.fileSize _, .ok _⟩ => False
  | ⟨.readFile _ count, .ok reply⟩ => reply.count ≠ count
  | ⟨.openFile _, _⟩ | ⟨.fileSize _, _⟩ | ⟨.readFile _ _, _⟩ => True
  | _ => False

/-- The call neither writes memory, asks for pages nor looks for the screen. -/
def isQuiet : Exchange Services → Bool
  | ⟨.store _ _, _⟩ | ⟨.fill _ _ _, _⟩ | ⟨.allocatePages _ _, _⟩ | ⟨.graphicsMode, _⟩ => false
  | _ => true

/-- A quiet call, and no file that falls short. -/
def IsPlain (e : Exchange Services) : Prop := e.isQuiet = true ∧ ¬ e.FallsShort

variable {e : Exchange Services} {a : Nat}

theorem not_writes_of_isQuiet (quiet : e.isQuiet = true) : ¬ e.request.Writes a := by
  obtain ⟨request, reply⟩ := e
  cases request with
  | store | fill => cases quiet
  | _ => exact id

theorem not_grants_of_isQuiet (quiet : e.isQuiet = true) : ¬ e.Grants a := by
  obtain ⟨request, reply⟩ := e
  cases request with
  | allocatePages => cases quiet
  | _ => exact id

theorem pagesAsked_of_isQuiet (quiet : e.isQuiet = true) : pagesAsked e.request = [] := by
  obtain ⟨request, reply⟩ := e
  cases request with
  | allocatePages => cases quiet
  | _ => rfl

theorem not_holds_of_grants (keeps : Services.Keeps screen e.request e.reply)
    (grants : e.Grants a) : ¬ screen.Holds a := by
  obtain ⟨request, reply⟩ := e
  cases request with
  | allocatePages base count =>
    rcases reply with _ | destination
    · exact grants.elim
    · exact (keeps destination rfl).2 a grants.1 grants.2
  | _ => exact grants.elim

end Exchange

theorem pageRequests_of_isQuiet (quiet : ∀ e ∈ h, e.isQuiet = true) : pageRequests h = [] :=
  List.flatMap_eq_nil_iff.mpr fun e he => Exchange.pagesAsked_of_isQuiet (quiet e he)

/-- What is written is allowed, or lies in pages that were granted before. -/
def Confined (allowed : Nat → Prop) (h : List (Exchange Services)) : Prop :=
  ∀ before e rest, h = before ++ e :: rest → ∀ a, e.request.Writes a →
    allowed a ∨ ∃ grant ∈ before, grant.Grants a

theorem confined_nil : Confined allowed [] := by
  intro before e rest split
  simp at split

theorem confined_cons {e : Exchange Services} :
    Confined allowed (e :: h) ↔
      (∀ a, e.request.Writes a → allowed a) ∧ Confined (fun a => allowed a ∨ e.Grants a) h := by
  constructor
  · intro confined
    constructor
    · intro a writes
      rcases confined [] e h rfl a writes with within | ⟨_, none, _⟩
      · exact within
      · cases none
    · intro before e' rest split a writes
      rcases confined (e :: before) e' rest (by rw [split]; rfl) a writes with
        within | ⟨grant, earlier, grants⟩
      · exact .inl (.inl within)
      · rcases List.mem_cons.mp earlier with rfl | earlier
        · exact .inl (.inr grants)
        · exact .inr ⟨grant, earlier, grants⟩
  · rintro ⟨first, confined⟩ before e' rest split a writes
    cases before with
    | nil =>
      cases split
      exact .inl (first a writes)
    | cons e before =>
      cases split
      rcases confined before e' rest rfl a writes with (within | grants) | ⟨grant, earlier, grants⟩
      · exact .inl within
      · exact .inr ⟨_, List.mem_cons_self, grants⟩
      · exact .inr ⟨grant, List.mem_cons_of_mem _ earlier, grants⟩

theorem Confined.mono {allowed' : Nat → Prop} (confined : Confined allowed h)
    (wider : ∀ a, allowed a → allowed' a) : Confined allowed' h := by
  intro before e rest split a writes
  exact (confined before e rest split a writes).imp_left (wider a)

theorem Confined.of_forall (within : ∀ e ∈ h, ∀ a, e.request.Writes a → allowed a) :
    Confined allowed h := by
  intro before e rest split a writes
  exact .inl (within e (by simp [split]) a writes)

theorem confined_append :
    Confined allowed (h ++ h') ↔
      Confined allowed h ∧ Confined (fun a => allowed a ∨ ∃ e ∈ h, e.Grants a) h' := by
  induction h generalizing allowed with
  | nil => simp [confined_nil]
  | cons e rest ih => simp [confined_cons, ih, and_assoc, or_assoc]

/-- Pages are asked for at most once, only for a file that was read in full, and nothing is written
but these once they are granted. -/
structure Contained (h : List (Exchange Services)) : Prop where
  asksOnce : (pageRequests h).length ≤ 1
  confined : Confined (fun _ => False) h
  short : (∃ e ∈ h, e.FallsShort) → ∀ e ∈ h, ∀ a, ¬ e.Grants a

namespace Contained

theorem of_isQuiet (quiet : ∀ e ∈ h, e.isQuiet = true) : Contained h where
  asksOnce := by
    rw [pageRequests_of_isQuiet quiet]
    exact Nat.zero_le 1
  confined := .of_forall fun e he _ => Exchange.not_writes_of_isQuiet (quiet e he)
  short _ e he _ := Exchange.not_grants_of_isQuiet (quiet e he)

theorem plain_append (plain : ∀ e ∈ h, e.IsPlain) (contained : Contained h') :
    Contained (h ++ h') where
  asksOnce := by
    rw [pageRequests_append, pageRequests_of_isQuiet fun e he => (plain e he).1, List.nil_append]
    exact contained.asksOnce
  confined := by
    refine confined_append.mpr ⟨(of_isQuiet fun e he => (plain e he).1).confined, ?_⟩
    exact contained.confined.mono fun _ => False.elim
  short := by
    rintro ⟨e, he, short⟩
    have he := (List.mem_append.mp he).resolve_left fun he => (plain e he).2 short
    exact List.forall_mem_append.mpr
      ⟨fun e he a => Exchange.not_grants_of_isQuiet (plain e he).1, contained.short ⟨e, he, short⟩⟩

theorem append_plain (contained : Contained h) (plain : ∀ e ∈ h', e.IsPlain) :
    Contained (h ++ h') where
  asksOnce := by
    rw [pageRequests_append, pageRequests_of_isQuiet fun e he => (plain e he).1, List.append_nil]
    exact contained.asksOnce
  confined := by
    refine confined_append.mpr ⟨contained.confined, ?_⟩
    exact (of_isQuiet fun e he => (plain e he).1).confined.mono fun _ => False.elim
  short := by
    rintro ⟨e, he, short⟩
    have he := (List.mem_append.mp he).resolve_right fun he => (plain e he).2 short
    exact List.forall_mem_append.mpr
      ⟨contained.short ⟨e, he, short⟩, fun e he a => Exchange.not_grants_of_isQuiet (plain e he).1⟩

theorem claim {base : UInt64} {pages : Nat} {answer : Outcome Status UInt64}
    (asksNoMore : pageRequests h = []) (whole : ∀ e ∈ h, ¬ e.FallsShort)
    (within : ∀ e ∈ h, ∀ a, e.request.Writes a →
      Exchange.Grants ⟨.allocatePages base pages, answer⟩ a) :
    Contained (⟨.allocatePages base pages, answer⟩ :: h) where
  asksOnce := by
    rw [pageRequests_cons, asksNoMore]
    exact Nat.le_refl 1
  confined := by
    refine confined_cons.mpr ⟨fun _ => id, .of_forall fun e he a writes => ?_⟩
    exact .inr (within e he a writes)
  short := by
    rintro ⟨e, he, short⟩
    rcases List.mem_cons.mp he with rfl | he
    · exact short.elim
    · exact absurd short (whole e he)

/-- A claim that nothing is written after, one that was refused for example. -/
theorem claim_plain {base : UInt64} {pages : Nat} (answer : Outcome Status UInt64)
    (plain : ∀ e ∈ h, e.IsPlain) : Contained (⟨.allocatePages base pages, answer⟩ :: h) := by
  refine claim (pageRequests_of_isQuiet fun e he => (plain e he).1) (fun e he => (plain e he).2) ?_
  exact fun e he a writes => absurd writes (Exchange.not_writes_of_isQuiet (plain e he).1)

/-- Granted pages do not hold the screen, so it is not written. -/
theorem misses (contained : Contained h)
    (keeps : ∀ e ∈ h, Services.Keeps screen e.request e.reply) {a : Nat} (holds : screen.Holds a) :
    ∀ e ∈ h, ¬ e.request.Writes a := by
  intro e he writes
  obtain ⟨before, rest, split⟩ := List.append_of_mem he
  rcases contained.confined before e rest split a writes with none | ⟨grant, earlier, grants⟩
  · exact none
  · have kept := keeps grant (by simp [split, earlier])
    exact Exchange.not_holds_of_grants kept grants holds

end Contained

namespace Kernel

open Boot (Cause)

/-- The store of a segment stays in the pages that were granted for the kernel. -/
theorem Fits.stored_within {file : Bytes} {kernel : Executable} {span : Span} {pages : Nat}
    (fits : Fits file kernel span pages) {destination : UInt64}
    (ends : destination.toNat + pages * pageSize ≤ wordLimit) {s : Segment}
    (hs : s ∈ kernel.segments) {a : Nat}
    (writes : (s.stored file span.base destination).request.Writes a) :
    Exchange.Grants ⟨.allocatePages span.base pages, .ok destination⟩ a := by
  obtain ⟨elf, reads⟩ := Executable.parse_reads fits.parsed
  have inPages := fits.inRange.inPages s hs
  obtain ⟨first, last⟩ := writes
  rw [Segment.length_contents (reads.valid s hs)] at last
  -- A segment that takes no memory may start where the address space ends.
  have address : (destination + .ofNat (s.address.toNat - span.base.toNat)).toNat =
      (destination.toNat + (s.address.toNat - span.base.toNat)) % wordLimit := by
    have bound := s.address.toNat_lt
    rw [UInt64.toNat_add, UInt64.toNat_ofNat', wordLimit]
    omega
  rw [address] at first last
  rw [wordLimit] at ends first last
  have start := destination.toNat_lt
  constructor <;> omega

theorem Staging.isQuiet {file : Services.File} {o : Outcome Cause Staged}
    (staging : Staging file h o) : ∀ e ∈ h, e.isQuiet = true := by
  cases staging <;> simp [Exchange.isQuiet]

theorem Staging.isPlain {file : Services.File} {staged : Staged}
    (staging : Staging file h (.ok staged)) : ∀ e ∈ h, e.IsPlain := by
  cases staging with
  | staged size block reply full =>
    simp [Exchange.IsPlain, Exchange.isQuiet, Exchange.FallsShort, full]

theorem Placing.contained {file : Bytes} {o : Outcome Cause Loaded} (placing : Placing file h o)
    (keeps : ∀ e ∈ h, Services.Keeps screen e.request e.reply) : Contained h := by
  cases placing with
  | rejected | nothing => exact .of_isQuiet nofun
  | grantCrashed => exact .claim_plain _ nofun
  | refused fits status record => exact .claim_plain _ (List.forall_mem_singleton.mpr ⟨rfl, id⟩)
  | tooLarge => exact .claim_plain _ nofun
  | @placed kernel span pages fits destination record bounded =>
    have ends := (keeps _ List.mem_cons_self destination rfl).1
    have whole : ∀ e ∈ kernel.segments.map (Segment.stored file span.base destination) ++
        [⟨.log record, ()⟩], ¬ e.FallsShort :=
      List.forall_mem_append.mpr
        ⟨List.forall_mem_map.mpr fun _ _ => id, List.forall_mem_singleton.mpr id⟩
    refine .claim (by simp [pagesAsked, pageRequests_stored]) whole fun e he a writes => ?_
    rcases List.mem_append.mp he with he | he
    · obtain ⟨s, hs, rfl⟩ := List.mem_map.mp he
      exact fits.stored_within ends hs writes
    · rw [List.mem_singleton.mp he] at writes
      exact writes.elim

theorem Loading.contained {path : String} {o : Outcome Cause Loaded} (loading : Loading path h o)
    (keeps : ∀ e ∈ h, Services.Keeps screen e.request e.reply) : Contained h := by
  have placed {file : Services.File} {staging placing back : List (Exchange Services)}
      {staged : Staged} {placed : Outcome Cause Loaded} (read : Staging file staging (.ok staged))
      (places : Placing staged.bytes placing placed)
      (keeps : ∀ e ∈ placing, Services.Keeps screen e.request e.reply)
      (released : ∀ e ∈ back, e.IsPlain) :
      Contained (⟨.openFile path, .ok file⟩ ::
        (staging ++ ⟨.closeFile file, ()⟩ :: (placing ++ back))) := by
    have before : ∀ e ∈ ⟨.openFile path, .ok file⟩ :: (staging ++ [⟨.closeFile file, ()⟩]),
        Exchange.IsPlain e :=
      List.forall_mem_cons.mpr ⟨⟨rfl, id⟩, List.forall_mem_append.mpr
        ⟨read.isPlain, List.forall_mem_singleton.mpr ⟨rfl, id⟩⟩⟩
    simpa using Contained.plain_append before ((places.contained keeps).append_plain released)
  cases loading with
  | openCrashed | notOpened => exact .of_isQuiet (by simp [Exchange.isQuiet])
  | stagingCrashed crashed =>
    exact .of_isQuiet (List.forall_mem_cons.mpr ⟨rfl, crashed.isQuiet⟩)
  | notStaged failed =>
    exact .of_isQuiet (List.forall_mem_cons.mpr ⟨rfl, List.forall_mem_append.mpr
      ⟨failed.isQuiet, List.forall_mem_singleton.mpr rfl⟩⟩)
  | placingCrashed read crashed =>
    simpa using placed read crashed (fun e he => keeps e (by simp [he])) (List.forall_mem_nil _)
  | freeCrashed read ended | notPlaced read ended | notReleased read ended | loaded read ended =>
    exact placed read ended (fun e he => keeps e (by simp [he]))
      (by simp [Exchange.IsPlain, Exchange.isQuiet, Exchange.FallsShort])

theorem Placing.not_grants {file : Bytes} {cause : Cause} (placing : Placing file h (.fail cause)) :
    ∀ e ∈ h, ∀ a, ¬ e.Grants a := by
  cases placing with
  | rejected | nothing => exact nofun
  | refused => simp [Exchange.Grants, Outcome.fail]

/-- A load that failed before it had its pages says so, unless it failed in a file or in releasing
its block. -/
theorem Loading.not_grants {path : String} {cause : Cause} (loading : Loading path h (.fail cause))
    (told : ∀ status, cause ≠ .io status) : ∀ e ∈ h, ∀ a, ¬ e.Grants a := by
  cases loading with
  | notOpened => simp [Exchange.Grants]
  | notStaged failed =>
    have staged := fun e he a => Exchange.not_grants_of_isQuiet (a := a) (failed.isQuiet e he)
    simpa [or_imp, forall_and, Exchange.Grants] using staged
  | notPlaced read failed =>
    have staged := fun e he a => Exchange.not_grants_of_isQuiet (a := a) (read.isQuiet e he)
    simpa [or_imp, forall_and, Exchange.Grants] using ⟨staged, failed.not_grants⟩
  | notReleased _ _ status => exact absurd rfl (told status)

end Kernel

theorem MemoryMap.Retaking.isPlain {map : MemoryMap} {result : MemoryMap × Outcome Boot.Cause Unit}
    (retaking : Retaking map h result) : ∀ e ∈ h, e.IsPlain := by
  cases retaking <;> simp [Exchange.IsPlain, Exchange.isQuiet, Exchange.FallsShort]

theorem MemoryMap.Listing.Saving.isPlain {map : MemoryMap} {path : String}
    {o : Outcome Boot.Cause Unit} (saving : Saving map path h o) : ∀ e ∈ h, e.IsPlain :=
  saving.forall_mem (fun _ => ⟨rfl, id⟩) (fun _ _ _ => ⟨rfl, id⟩) (fun _ => ⟨rfl, id⟩)
    fun _ => ⟨rfl, id⟩

namespace Boot

variable {options : Options} {map : MemoryMap} {o : Outcome Failure Launch}

theorem Leaving.isPlain {result : MemoryMap × Outcome Cause Unit} (left : Leaving map h result) :
    ∀ e ∈ h, e.IsPlain := by
  cases left with
  | notRetaken retaken => exact List.forall_mem_cons.mpr ⟨⟨rfl, id⟩, retaken.isPlain⟩
  | again _ retaken =>
    simp only [List.forall_mem_cons, List.forall_mem_append]
    exact ⟨⟨rfl, id⟩, retaken.isPlain, ⟨rfl, id⟩, nofun⟩
  | _ => simp [Exchange.IsPlain, Exchange.isQuiet, Exchange.FallsShort]

/-- Failures that are told only of attempts without pages. -/
def Failure.IsEarly : Failure → Prop
  | ⟨.loadKernel, .io _⟩ | ⟨.exitBootServices, _⟩ => False
  | _ => True

theorem FromKernel.contained {frameBuffer : Screen.FrameBuffer}
    (way : FromKernel options map frameBuffer h o)
    (keeps : ∀ e ∈ h, Services.Keeps screen e.request e.reply) : Contained h := by
  cases way with
  | notLoaded stopped => exact stopped.contained keeps
  | left loaded entry notice left =>
    have before := loaded.contained fun e he => keeps e (by simp [he])
    exact before.append_plain
      (List.forall_mem_cons.mpr ⟨⟨rfl, id⟩, List.forall_mem_cons.mpr ⟨⟨rfl, id⟩, left.isPlain⟩⟩)

theorem FromKernel.not_grants {frameBuffer : Screen.FrameBuffer} {failure : Failure}
    (way : FromKernel options map frameBuffer h (.fail failure)) (early : failure.IsEarly) :
    ∀ e ∈ h, ∀ a, ¬ e.Grants a := by
  generalize ended : Outcome.fail failure = o at way
  cases way with
  | @notLoaded _ stop stopped =>
    cases stop <;> cases ended
    refine stopped.not_grants ?_
    rintro status rfl
    exact early
  | @left _ _ _ _ result =>
    rcases result with (cause | _) | _ <;> cases ended
    exact early.elim

/-- The screen is to be painted, was found, and can be described. -/
structure Painted (screen : Screen.Mode) (options : Options) (h : List (Exchange Services)) :
    Prop where
  wanted : options.paintScreen = true
  found : ⟨.graphicsMode, .ok (some screen)⟩ ∈ h
  described : ∃ frameBuffer, Screen.describe screen = .ok frameBuffer

theorem mem_painting {e : Exchange Services} {mode : Screen.Mode} :
    e ∈ painting options mode ↔
      options.paintScreen = true ∧ e = ⟨.fill mode.base mode.size paintValue, ()⟩ := by
  unfold painting
  split <;> simp [*]

theorem pageRequests_painting (mode : Screen.Mode) : pageRequests (painting options mode) = [] := by
  refine List.flatMap_eq_nil_iff.mpr fun e he => ?_
  obtain ⟨_, rfl⟩ := mem_painting.mp he
  rfl

/-- What an attempt with that history and that end does to memory. -/
structure Framed (screen : Screen.Mode) (options : Options) (h : List (Exchange Services))
    (o : Outcome Failure Launch) : Prop where
  asksOnce : (pageRequests h).length ≤ 1
  confined : Confined screen.Holds h
  painted : Painted screen options h → ∀ (memory : Memory) a, screen.Holds a →
    memory.after h a = paintValue
  unpainted : ¬ Painted screen options h → ∀ a, screen.Holds a → ∀ e ∈ h, ¬ e.request.Writes a
  /-- An invalid kernel, pages that are taken, or anything before. -/
  early : ∀ failure, o = .fail failure → failure.IsEarly → ∀ e ∈ h, ∀ a, ¬ e.Grants a
  /-- A missing or short kernel. -/
  short : (∃ e ∈ h, e.FallsShort) → ∀ e ∈ h, ∀ a, ¬ e.Grants a

namespace Framed

/-- An attempt that ended before or with its search for the screen. -/
theorem of_unlit (unwritten : ∀ e ∈ h, ∀ a, ¬ e.request.Writes a)
    (asksNone : pageRequests h = []) (ungranted : ∀ e ∈ h, ∀ a, ¬ e.Grants a)
    (unpainted : ¬ Painted screen options h) : Framed screen options h o where
  asksOnce := by
    rw [asksNone]
    exact Nat.zero_le 1
  confined := .of_forall fun e he a writes => absurd writes (unwritten e he a)
  painted painted := absurd painted unpainted
  unpainted _ a _ e he := unwritten e he a
  early _ _ _ := ungranted
  short _ := ungranted

theorem of_isQuiet (quiet : ∀ e ∈ h, e.isQuiet = true) : Framed screen options h o := by
  refine of_unlit (fun e he a => Exchange.not_writes_of_isQuiet (quiet e he))
    (pageRequests_of_isQuiet quiet) (fun e he a => Exchange.not_grants_of_isQuiet (quiet e he)) ?_
  intro painted
  cases quiet _ painted.found

theorem plain_append (plain : ∀ e ∈ h, e.IsPlain) (framed : Framed screen options h' o) :
    Framed screen options (h ++ h') o := by
  have quiet (e : Exchange Services) (he : e ∈ h) : e.isQuiet = true := (plain e he).1
  have painted_iff : Painted screen options (h ++ h') ↔ Painted screen options h' := by
    constructor
    · rintro ⟨wanted, found, described⟩
      rcases List.mem_append.mp found with found | found
      · cases quiet _ found
      · exact ⟨wanted, found, described⟩
    · rintro ⟨wanted, found, described⟩
      exact ⟨wanted, List.mem_append_right h found, described⟩
  have ungranted (rests : ∀ e ∈ h', ∀ a, ¬ e.Grants a) : ∀ e ∈ h ++ h', ∀ a, ¬ e.Grants a :=
    List.forall_mem_append.mpr
      ⟨fun e he a => Exchange.not_grants_of_isQuiet (quiet e he), rests⟩
  constructor
  · rw [pageRequests_append, pageRequests_of_isQuiet quiet, List.nil_append]
    exact framed.asksOnce
  · refine confined_append.mpr ⟨?_, framed.confined.mono fun _ => .inl⟩
    exact (Contained.of_isQuiet quiet).confined.mono fun _ => False.elim
  · intro painted memory a holds
    rw [Memory.after_append]
    exact framed.painted (painted_iff.mp painted) _ a holds
  · intro unpainted a holds
    refine List.forall_mem_append.mpr ⟨fun e he => ?_, ?_⟩
    · exact Exchange.not_writes_of_isQuiet (quiet e he)
    · exact framed.unpainted (mt painted_iff.mpr unpainted) a holds
  · exact fun failure told early => ungranted (framed.early failure told early)
  · rintro ⟨e, he, short⟩
    have he := (List.mem_append.mp he).resolve_left fun he => (plain e he).2 short
    exact ungranted (framed.short ⟨e, he, short⟩)

/-- The screen was found and can be described. -/
theorem of_described {frameBuffer : Screen.FrameBuffer} {notes rest : List (Exchange Services)}
    (described : Screen.describe screen = .ok frameBuffer)
    (plain : ∀ e ∈ notes, e.IsPlain) (contained : Contained rest)
    (misses : ∀ a, screen.Holds a → ∀ e ∈ rest, ¬ e.request.Writes a)
    (early : ∀ failure, o = .fail failure → failure.IsEarly → ∀ e ∈ rest, ∀ a, ¬ e.Grants a) :
    Framed screen options
      (⟨.graphicsMode, .ok (some screen)⟩ :: (notes ++ (painting options screen ++ rest))) o := by
  have quiet (e : Exchange Services) (he : e ∈ notes) : e.isQuiet = true := (plain e he).1
  have ungranted (rests : ∀ e ∈ rest, ∀ a, ¬ e.Grants a) : ∀ e ∈
      ⟨.graphicsMode, .ok (some screen)⟩ :: (notes ++ (painting options screen ++ rest)), ∀ a,
        ¬ Exchange.Grants e a := by
    simp only [List.forall_mem_cons, List.forall_mem_append]
    refine ⟨fun _ => id, fun e he a => Exchange.not_grants_of_isQuiet (quiet e he), ?_, rests⟩
    intro e he a
    obtain ⟨_, rfl⟩ := mem_painting.mp he
    exact id
  constructor
  · rw [pageRequests_cons, pageRequests_append, pageRequests_of_isQuiet quiet,
      pageRequests_append, pageRequests_painting]
    exact contained.asksOnce
  · have paints : Confined screen.Holds (painting options screen) := by
      refine .of_forall fun e he a writes => ?_
      obtain ⟨_, rfl⟩ := mem_painting.mp he
      exact writes
    refine confined_cons.mpr ⟨fun _ => False.elim, confined_append.mpr ⟨?_, ?_⟩⟩
    · exact (Contained.of_isQuiet quiet).confined.mono fun _ => False.elim
    · refine confined_append.mpr ⟨paints.mono fun _ holds => .inl (.inl holds), ?_⟩
      exact contained.confined.mono fun _ => False.elim
  · intro painted memory a holds
    have painting_eq : painting options screen = [_] := if_pos painted.wanted
    rw [Memory.after_cons, Memory.after_append, Memory.after_append, painting_eq,
      Memory.after_of_not_writes (misses a holds)]
    exact Memory.apply_fill holds
  · intro unpainted a holds
    have painting_eq : painting options screen = [] :=
      if_neg fun wanted => unpainted ⟨wanted, List.mem_cons_self, frameBuffer, described⟩
    rw [painting_eq]
    refine List.forall_mem_cons.mpr ⟨id, List.forall_mem_append.mpr ⟨fun e he => ?_, ?_⟩⟩
    · exact Exchange.not_writes_of_isQuiet (quiet e he)
    · exact misses a holds
  · exact fun failure told isEarly => ungranted (early failure told isEarly)
  · rintro ⟨e, he, short⟩
    rcases List.mem_cons.mp he with rfl | he
    · exact short.elim
    rcases List.mem_append.mp he with he | he
    · exact absurd short (plain e he).2
    rcases List.mem_append.mp he with he | he
    · obtain ⟨_, rfl⟩ := mem_painting.mp he
      exact short.elim
    · exact ungranted (contained.short ⟨e, he, short⟩)

end Framed

theorem FromScreen.framed (way : FromScreen options map h o)
    (keeps : ∀ e ∈ h, Services.Keeps screen e.request e.reply) : Framed screen options h o := by
  cases way with
  | notFound stopped =>
    have unpainted : ¬ Painted screen options h := by
      rintro ⟨_, found, _⟩
      cases stopped <;> simp [Outcome.crash, Outcome.fail] at found
    cases stopped <;>
      exact .of_unlit (by simp [Services.Request.Writes]) rfl (by simp [Exchange.Grants]) unpainted
  | notDescribed found unknown =>
    cases found with
    | found mode first second =>
      cases keeps _ List.mem_cons_self _ rfl
      refine .of_unlit (by simp [Services.Request.Writes]) rfl (by simp [Exchange.Grants]) ?_
      rintro ⟨_, _, frameBuffer, described⟩
      cases unknown.symm.trans described
  | @described _ rest _ _ _ found described onward =>
    cases found with
    | found mode first second =>
      cases keeps _ List.mem_cons_self _ rfl
      have contained := onward.contained fun e he => keeps e (by simp [he])
      have misses (a : Nat) (holds : screen.Holds a) : ∀ e ∈ rest, ¬ e.request.Writes a :=
        contained.misses (fun e he => keeps e (by simp [he])) holds
      have plain : ∀ e ∈ [⟨.log first, ()⟩, ⟨.log second, ()⟩], Exchange.IsPlain e := by
        simp [Exchange.IsPlain, Exchange.isQuiet, Exchange.FallsShort]
      refine .of_described described plain contained misses ?_
      rintro failure rfl early
      exact onward.not_grants early

theorem Preparing.framed {buffer : MemoryMap.Buffer} (way : Preparing buffer options h o)
    (keeps : ∀ e ∈ h, Services.Keeps screen e.request e.reply) : Framed screen options h o := by
  cases way with
  | notTaken stopped => exact .of_isQuiet fun e he => (stopped.isPlain e he).1
  | notSaved taken record wanted stopped =>
    refine .of_isQuiet (List.forall_mem_append.mpr ⟨fun e he => (taken.isPlain e he).1, ?_⟩)
    exact List.forall_mem_cons.mpr ⟨rfl, fun e he => (stopped.isPlain e he).1⟩
  | @saved taking saving rest _ _ taken record wanted saved notice onward =>
    have framed := onward.framed fun e he => keeps e (by simp [he])
    have before : ∀ e ∈ taking ++ ⟨.log record, ()⟩ :: (saving ++ [⟨.log notice, ()⟩]),
        Exchange.IsPlain e := by
      simp only [List.forall_mem_append, List.forall_mem_cons]
      exact ⟨taken.isPlain, ⟨rfl, id⟩, saved.isPlain, ⟨rfl, id⟩, nofun⟩
    simpa using Framed.plain_append before framed
  | @notWanted taking rest _ _ taken record unwanted onward =>
    have framed := onward.framed fun e he => keeps e (by simp [he])
    have before : ∀ e ∈ taking ++ [⟨.log record, ()⟩], Exchange.IsPlain e := by
      simp only [List.forall_mem_append, List.forall_mem_cons]
      exact ⟨taken.isPlain, ⟨rfl, id⟩, nofun⟩
    simpa using Framed.plain_append before framed

/-- **An attempt writes nothing but the pages that it was granted and, as a whole or not at all, the
frame buffer**, whatever the firmware replies and however it ends. Without pages all other memory is
left as it was. -/
theorem prepare_frames {σ : Type} (machine : Machine Services σ) (state : σ)
    (buffer : MemoryMap.Buffer) (options : Options) (screen : Screen.Mode)
    (keeps : ∀ e ∈ (prepare buffer options).history machine state,
      Services.Keeps screen e.request e.reply) :
    Framed screen options ((prepare buffer options).history machine state)
      ((prepare buffer options).outcome machine state) ∧
    ∀ (memory : Memory) a, ¬ screen.Holds a →
      (∀ e ∈ (prepare buffer options).history machine state, ¬ e.Grants a) →
      memory.after ((prepare buffer options).history machine state) a = memory a := by
  have way := preparing_of_yields ((prepare buffer options).yields_outcome machine state)
  have framed := way.framed keeps
  refine ⟨framed, fun memory a outside ungranted => Memory.after_of_not_writes ?_⟩
  intro e he writes
  obtain ⟨before, rest, split⟩ := List.append_of_mem he
  rcases framed.confined before e rest split a writes with holds | ⟨grant, earlier, grants⟩
  · exact outside holds
  · exact ungranted grant (by simp [split, earlier]) grants

/-- Firmware that grants the pages below its screen. -/
def belowScreen (file : Bytes) : Firmware where
  file := file
  grant address count :=
    if address.toNat + count * pageSize ≤ 0x80000000 then .ok address else .fail .outOfResources

def smallScreen : Screen.Mode := ⟨0x80000000, 0x1000, 32, 32, 32, .rgb⟩

theorem belowScreen_keeps (file : Bytes) (request : Services.Request) (state : Unit) :
    Services.Keeps smallScreen request ((belowScreen file).serve request state).1 := by
  cases request with
  | graphicsMode =>
    rintro _ ⟨⟩
    rfl
  | allocatePages address count =>
    intro destination granted
    change (if address.toNat + count * pageSize ≤ 0x80000000 then _ else _) = _ at granted
    split at granted
    · rename_i below
      cases granted
      refine ⟨Nat.le_trans below (by decide), fun a _ last holds => ?_⟩
      have above : 0x80000000 ≤ a := holds.1
      omega
    · cases granted
  | _ => trivial

/-- Bytes around the kernel and around the frame buffer, both of which were written. -/
theorem prepare_overlapping :
    let attempt := prepare ⟨0x2000, List.replicate 64 0⟩ {}
    let machine := (belowScreen Kernel.overlapping).serve
    let h := attempt.history machine ()
    Framed smallScreen {} h (attempt.outcome machine ()) ∧
    pageRequests h = [(0x100000, 1)] ∧
    [0x10000f, 0x100010, 0x80000000, 0x80000fff, 0x80001000].map (Memory.after (fun _ => 0xcc) h) =
      [0xcc, 1, 0xff, 0xff, 0xcc] := by
  intro attempt machine h
  obtain ⟨framed, _⟩ := prepare_frames machine () ⟨0x2000, List.replicate 64 0⟩ {}
    smallScreen (Program.forall_mem_history (belowScreen_keeps Kernel.overlapping) _ _)
  refine ⟨framed, ?_, ?_⟩
  · decide +kernel
  · decide +kernel

end Boot

end EfiLoader
