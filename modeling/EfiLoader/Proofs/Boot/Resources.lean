import EfiLoader.MemoryMap.Listing
import EfiLoader.Proofs.Kernel.Placement

/-!
What a boot attempt holds for a while: an open file, a pool block. `GivenBack` says of a history
that one thing at most was taken and was given back once, with no use of it afterwards. Main
statement: loading a kernel and saving a listing give back what they took in every run that returns,
also where a call fails, and the pages of a kernel are claimed in between (`resources_given_back`).
-/

namespace EfiLoader

open Boot (Cause)

variable {h : List (Exchange Services)}

namespace Services

/-- The file that a call opened. -/
def opened? : (request : Request) → Reply request → Option File
  | .openFile _, .ok file => some file
  | .createFile _, .ok file => some file
  | _, _ => none

def closed? : Request → Option File
  | .closeFile file => some file
  | _ => none

/-- The pool block that a call was granted. -/
def granted? : (request : Request) → Reply request → Option UInt64
  | .allocatePool _, .ok block => some block.address
  | _, _ => none

/-- The pool block that a call is to release, whatever comes of the call. -/
def freed? : Request → Option UInt64
  | .freePool block => some block
  | _ => none

/-- The request is about that open file. -/
def Request.Concerns (file : File) : Request → Prop
  | .fileSize other => other = file
  | .readFile other _ => other = file
  | .writeFile other _ => other = file
  | .closeFile other => other = file
  | _ => False

/-- The request touches neither memory nor the contents of a file. -/
def Request.IsIdle : Request → Prop
  | .closeFile _ => True
  | .log _ => True
  | _ => False

/-- The request is one of those that put a kernel into memory. -/
def Request.Places : Request → Prop
  | .allocatePages _ _ => True
  | .store _ _ => True
  | .log _ => True
  | _ => False

/-- The request is one of those that write a listing to its file. -/
def Request.Records : Request → Prop
  | .writeFile _ _ => True
  | .log _ => True
  | _ => False

end Services

namespace Exchange

def opened? (e : Exchange Services) : Option Services.File := Services.opened? e.request e.reply

def closed? (e : Exchange Services) : Option Services.File := Services.closed? e.request

def granted? (e : Exchange Services) : Option UInt64 := Services.granted? e.request e.reply

def freed? (e : Exchange Services) : Option UInt64 := Services.freed? e.request

end Exchange

/-- Nothing is taken and nothing given back. -/
structure Neutral (h : List (Exchange Services)) : Prop where
  opened : h.filterMap Exchange.opened? = []
  closed : h.filterMap Exchange.closed? = []
  granted : h.filterMap Exchange.granted? = []
  freed : h.filterMap Exchange.freed? = []

theorem Exchange.neutral {e : Exchange Services} (work : e.request.Places ∨ e.request.Records) :
    e.opened? = none ∧ e.closed? = none ∧ e.granted? = none ∧ e.freed? = none := by
  obtain ⟨request, reply⟩ := e
  cases request with
  | allocatePages | store | log | writeFile => exact ⟨rfl, rfl, rfl, rfl⟩
  | _ => rcases work with places | records <;> contradiction

theorem neutral_of_work (work : ∀ e ∈ h, e.request.Places ∨ e.request.Records) : Neutral h where
  opened := List.filterMap_eq_nil_iff.mpr fun e he => (Exchange.neutral (work e he)).1
  closed := List.filterMap_eq_nil_iff.mpr fun e he => (Exchange.neutral (work e he)).2.1
  granted := List.filterMap_eq_nil_iff.mpr fun e he => (Exchange.neutral (work e he)).2.2.1
  freed := List.filterMap_eq_nil_iff.mpr fun e he => (Exchange.neutral (work e he)).2.2.2

theorem Neutral.of_places (places : ∀ e ∈ h, e.request.Places) : Neutral h :=
  neutral_of_work fun e he => .inl (places e he)

theorem Neutral.of_records (records : ∀ e ∈ h, e.request.Records) : Neutral h :=
  neutral_of_work fun e he => .inr (records e he)

theorem Exchange.not_concerns_of_places {e : Exchange Services} (places : e.request.Places)
    (file : Services.File) : ¬ e.request.Concerns file := by
  obtain ⟨request, reply⟩ := e
  cases request with
  | allocatePages | store | log => exact nofun
  | _ => cases places

/-- Nothing was taken and nothing given back, or one thing was taken and later given back, each
once, and from then on only things happened that may happen without it. -/
inductive GivenBack {α : Type} (taken? returned? : Exchange Services → Option α)
    (Without : α → Exchange Services → Prop) : List (Exchange Services) → Prop
  | nothing {h : List (Exchange Services)} (untaken : h.filterMap taken? = [])
      (unreturned : h.filterMap returned? = []) : GivenBack taken? returned? Without h
  | once {before after : List (Exchange Services)} {back : Exchange Services} {thing : α}
      (taken : before.filterMap taken? = [thing]) (held : before.filterMap returned? = [])
      (returned : returned? back = some thing) (alone : (back :: after).filterMap taken? = [])
      (last : after.filterMap returned? = []) (without : ∀ e ∈ after, Without thing e) :
      GivenBack taken? returned? Without (before ++ back :: after)

/-- Files that were opened are closed, and not asked for anything after that. -/
def FilesClosed : List (Exchange Services) → Prop :=
  GivenBack Exchange.opened? Exchange.closed? fun file e => ¬ e.request.Concerns file

/-- Pool blocks that were granted are released, and all work is done by then. -/
def BlocksFreed : List (Exchange Services) → Prop :=
  GivenBack Exchange.granted? Exchange.freed? fun _ e => e.request.IsIdle

namespace Kernel

/-- Pages are asked for at most once, for a file that was read as a whole, closed and accepted, and
before the block that holds it is released. -/
inductive ClaimsInTime (path : String) : List (Exchange Services) → Prop
  | unasked {h : List (Exchange Services)} (unasked : pageRequests h = []) : ClaimsInTime path h
  | once {file : Services.File} {size : UInt64} {block : Services.Block}
      {read : Services.ReadReply} {kernel : Executable} {span : Span} {pages : Nat}
      {reply : Outcome Status UInt64} {after : List (Exchange Services)}
      (complete : read.count = size)
      (fits : Fits (fillBlock size block read.data) kernel span pages)
      (once : pageRequests after = []) (freed : after.filterMap Exchange.freed? = [block.address]) :
      ClaimsInTime path
        ([⟨.openFile path, .ok file⟩, ⟨.fileSize file, .ok size⟩, ⟨.allocatePool size, .ok block⟩,
          ⟨.readFile file size, .ok read⟩, ⟨.closeFile file, ()⟩] ++
          ⟨.allocatePages span.base pages, reply⟩ :: after)

structure Disciplined (path : String) (h : List (Exchange Services)) : Prop where
  files : FilesClosed h
  blocks : BlocksFreed h
  pages : ClaimsInTime path h

section Load

variable {path : String}

theorem Placing.places {file : Bytes} {o : Outcome Cause Loaded} (placing : Placing file h o) :
    ∀ e ∈ h, e.request.Places := by
  cases placing with
  | placed fits destination record bounded =>
    simp only [List.forall_mem_cons, List.forall_mem_append, List.forall_mem_map]
    exact ⟨True.intro, fun _ _ => True.intro, True.intro, nofun⟩
  | _ => simp [Services.Request.Places]

/-- Pages are asked for at most once, first of all, and for a file that is accepted. -/
theorem Placing.claims {file : Bytes} {o : Outcome Cause Loaded} (placing : Placing file h o) :
    pageRequests h = [] ∨ ∃ kernel span pages reply rest, Fits file kernel span pages ∧
      h = ⟨.allocatePages span.base pages, reply⟩ :: rest ∧ pageRequests rest = [] := by
  cases placing with
  | rejected | nothing => exact .inl rfl
  | grantCrashed fits | refused fits | tooLarge fits =>
    exact .inr ⟨_, _, _, _, _, fits, rfl, rfl⟩
  | placed fits =>
    refine .inr ⟨_, _, _, _, _, fits, rfl, ?_⟩
    rw [pageRequests_append, pageRequests_stored]
    rfl

/-- Once a file is in its block, all ways to return lead past the release of that block. -/
theorem disciplined_of_released {file : Services.File} {size : UInt64} {block : Services.Block}
    {read : Services.ReadReply} {placing notes : List (Exchange Services)}
    {o : Outcome Cause Loaded} (complete : read.count = size)
    (placed : Placing (fillBlock size block read.data) placing o) (freed : Outcome Status Unit)
    (noted : ∀ e ∈ notes, ∃ record, e = ⟨.log record, ()⟩) :
    Disciplined path
      (⟨.openFile path, .ok file⟩ ::
        ([⟨.fileSize file, .ok size⟩, ⟨.allocatePool size, .ok block⟩,
          ⟨.readFile file size, .ok read⟩] ++ ⟨.closeFile file, ()⟩ :: (placing ++
          ⟨.freePool block.address, freed⟩ :: notes))) := by
  have places := placed.places
  have neutral := Neutral.of_places places
  have notesPlace : ∀ e ∈ notes, e.request.Places := by
    intro e he
    obtain ⟨record, rfl⟩ := noted e he
    exact True.intro
  have notesNeutral := Neutral.of_places notesPlace
  constructor
  case files =>
    change FilesClosed ([_, _, _, _] ++ ⟨.closeFile file, ()⟩ :: _)
    refine .once rfl rfl rfl ?_ ?_ ?_
    · rw [List.filterMap_cons_none rfl, List.filterMap_append, neutral.opened,
        List.filterMap_cons_none rfl, notesNeutral.opened]
      rfl
    · rw [List.filterMap_append, neutral.closed,
        List.filterMap_cons_none rfl, notesNeutral.closed]
      rfl
    · simp only [List.forall_mem_append, List.forall_mem_cons]
      exact ⟨fun e he => Exchange.not_concerns_of_places (places e he) file, nofun,
        fun e he => Exchange.not_concerns_of_places (notesPlace e he) file⟩
  case blocks =>
    change BlocksFreed ([_, _, _, _, _] ++ (placing ++ ⟨.freePool block.address, freed⟩ :: notes))
    rw [← List.append_assoc]
    refine .once ?_ ?_ rfl ?_ ?_ ?_
    · rw [List.filterMap_append, neutral.granted]
      rfl
    · rw [List.filterMap_append, neutral.freed]
      rfl
    · rw [List.filterMap_cons_none rfl, notesNeutral.granted]
    · exact notesNeutral.freed
    · intro e he
      obtain ⟨record, rfl⟩ := noted e he
      exact True.intro
  case pages =>
    have unaskedLater : pageRequests notes = [] := by
      rw [pageRequests, List.flatMap_eq_nil_iff]
      intro e he
      obtain ⟨record, rfl⟩ := noted e he
      rfl
    rcases placed.claims with unasked | ⟨kernel, span, pages, reply, rest, fits, rfl, once⟩
    · refine .unasked ?_
      simp [unasked, unaskedLater, pagesAsked]
    · have restNeutral : Neutral rest :=
        .of_places fun e he => places e (List.mem_cons_of_mem _ he)
      change ClaimsInTime path ([_, _, _, _, _] ++ ⟨.allocatePages span.base pages, reply⟩ ::
        (rest ++ ⟨.freePool block.address, freed⟩ :: notes))
      refine .once complete fits ?_ ?_
      · simp [once, unaskedLater, pagesAsked]
      · have released : Exchange.freed? ⟨.freePool block.address, freed⟩ = some block.address := rfl
        rw [List.filterMap_append, restNeutral.freed,
          List.filterMap_cons_some released, notesNeutral.freed]
        rfl

theorem Loading.disciplined {o : Outcome Cause Loaded} (loading : Loading path h o)
    (returns : o ≠ .crash) : Disciplined path h := by
  cases loading with
  | openCrashed | stagingCrashed | placingCrashed | freeCrashed => exact absurd rfl returns
  | notOpened status record => exact ⟨.nothing rfl rfl, .nothing rfl rfl, .unasked rfl⟩
  | @notStaged file _ _ failed =>
    cases failed with
    | noSize status =>
      refine ⟨?_, .nothing rfl rfl, .unasked rfl⟩
      change FilesClosed ([_, _] ++ ⟨.closeFile file, ()⟩ :: [])
      exact .once rfl rfl rfl rfl rfl nofun
    | noMemory size status record =>
      refine ⟨?_, .nothing rfl rfl, .unasked rfl⟩
      change FilesClosed ([_, _, _, _] ++ ⟨.closeFile file, ()⟩ :: [])
      exact .once rfl rfl rfl rfl rfl nofun
    | notRead size block reply status record freed shortfall =>
      refine ⟨?_, ?_, .unasked rfl⟩
      · change FilesClosed ([_, _, _, _, _, _] ++ ⟨.closeFile file, ()⟩ :: [])
        exact .once rfl rfl rfl rfl rfl nofun
      · change BlocksFreed ([_, _, _, _, _] ++ ⟨.freePool block.address, _⟩ :: [_])
        exact .once rfl rfl rfl rfl rfl (List.forall_mem_singleton.mpr True.intro)
  | notPlaced read failed freed =>
    cases read with
    | staged size block reply complete =>
      exact disciplined_of_released complete failed _ nofun
  | notReleased read placed status record =>
    cases read with
    | staged size block reply complete =>
      exact disciplined_of_released complete placed _
        (List.forall_mem_singleton.mpr ⟨record, rfl⟩)
  | loaded read placed =>
    cases read with
    | staged size block reply complete =>
      exact disciplined_of_released complete placed _ nofun

end Load

end Kernel

namespace MemoryMap.Listing

variable {o : Outcome Cause Unit}

theorem writeLines_records {file : Services.File} {index : Nat} {ds : List Descriptor}
    (yields : (writeLines file index ds).Yields h o) : ∀ e ∈ h, e.request.Records := by
  induction ds generalizing index h with
  | nil =>
    obtain ⟨rfl, rfl⟩ := Attempt.yields_pure.mp yields
    exact nofun
  | cons d rest ih =>
    rw [writeLines] at yields
    by_cases long : lineCapacity < (Bytes.utf8 (line index d)).length
    · simp only [if_pos long] at yields
      rcases Attempt.yields_bind.mp yields with ⟨_, failed, _⟩ | ⟨_, _, _, _, failed, _⟩
      · rw [(Attempt.yields_fail.mp failed).1]
        exact nofun
      · cases (Attempt.yields_fail.mp failed).2
    · simp only [if_neg long] at yields
      rcases Attempt.of_require_bind yields with ⟨_, asked, _⟩ | ⟨_, _, _, rfl, asked, rest⟩
      · rw [Program.yields_request.mp asked]
        exact List.forall_mem_singleton.mpr True.intro
      · rw [Program.yields_request.mp asked]
        exact List.forall_mem_cons.mpr ⟨True.intro, ih rest⟩

theorem write_records {map : MemoryMap} {file : Services.File}
    (yields : (write map file).Yields h o) : ∀ e ∈ h, e.request.Records := by
  rcases Attempt.of_require_bind yields with ⟨_, asked, _⟩ | ⟨_, _, _, rfl, asked, noting⟩
  · rw [Program.yields_request.mp asked]
    exact List.forall_mem_singleton.mpr True.intro
  obtain ⟨_, _, rfl, viewing⟩ := Attempt.yields_lift_bind.mp noting
  rw [Program.yields_request.mp asked]
  refine List.forall_mem_cons.mpr ⟨True.intro, List.forall_mem_cons.mpr ⟨True.intro, ?_⟩⟩
  rcases Attempt.yields_bind.mp viewing with ⟨_, stopped, _⟩ | ⟨_, _, _, rfl, viewed, lines⟩
  · rw [(Attempt.yields_ofOutcome.mp stopped).1]
    exact nofun
  · rw [(Attempt.yields_ofOutcome.mp viewed).1]
    exact writeLines_records lines

/-- A listing's file is closed whatever its writing comes to, unless that is a crash. -/
theorem filesClosed_of_save {map : MemoryMap} {path : String}
    (yields : (save map path).Yields h o) (returns : o ≠ .crash) : FilesClosed h := by
  rcases Attempt.of_require_bind yields with ⟨stop, asked, rfl⟩ | ⟨_, file, _, rfl, asked, rest⟩
  · rw [Program.yields_request.mp asked]
    exact .nothing rfl rfl
  rw [Program.yields_request.mp asked]
  rcases Attempt.of_settle_bind rest with ⟨_, rfl⟩ | ⟨writing, _, _, rfl, wrote, settled⟩
  · exact absurd rfl returns
  obtain ⟨_, _, rfl, closed⟩ := Attempt.yields_lift_bind.mp settled
  rw [(Attempt.yields_ofExcept.mp closed).1]
  have neutral := Neutral.of_records (write_records wrote)
  change FilesClosed ((⟨.createFile path, .ok file⟩ :: writing) ++ ⟨.closeFile file, ()⟩ :: [])
  refine .once ?_ ?_ rfl rfl rfl nofun
  · have created : Exchange.opened? ⟨.createFile path, .ok file⟩ = some file := rfl
    rw [List.filterMap_cons_some created, neutral.opened]
  · rw [List.filterMap_cons_none rfl, neutral.closed]

end MemoryMap.Listing

/-- **What a boot attempt takes for a while it gives back exactly once**, in every run that returns
and whatever the firmware replies, a failing release included. A kernel's file is closed and its
block released after their last use, its pages are claimed while the block is still held, and a
listing's file is closed whether or not it could be written. -/
theorem resources_given_back {σ : Type} (machine : Machine Services σ) (state : σ) :
    (∀ path, (Kernel.load path).outcome machine state ≠ .crash →
      Kernel.Disciplined path ((Kernel.load path).history machine state)) ∧
    ∀ map path, (MemoryMap.Listing.save map path).outcome machine state ≠ .crash →
      FilesClosed ((MemoryMap.Listing.save map path).history machine state) :=
  ⟨fun _ => (Kernel.loading_of_yields (Attempt.yields_outcome _ machine state)).disciplined,
    fun _ _ => MemoryMap.Listing.filesClosed_of_save (Attempt.yields_outcome _ machine state)⟩

/-- A kernel whose pages are refused, and a listing that is written. -/
theorem resources_given_back_refused :
    let firmware : Firmware :=
      { file := Kernel.overlapping, grant := fun _ _ => .fail .notFound }
    let h := (Kernel.load "kernel").history firmware.serve ()
    let map : MemoryMap := ⟨⟨0x2000, List.replicate 40 0⟩, ⟨40, 1, 40, 1⟩⟩
    (Kernel.load "kernel").outcome firmware.serve () =
      .fail (.addressRangeUnavailable .notFound) ∧
    Kernel.Disciplined "kernel" h ∧ pageRequests h = [(0x100000, 1)] ∧
    h.filterMap Exchange.freed? = [0x1000] ∧
    FilesClosed ((MemoryMap.Listing.save map "map").history firmware.serve ()) := by
  intro firmware h map
  have refused : (Kernel.load "kernel").outcome firmware.serve () =
      .fail (.addressRangeUnavailable .notFound) := by decide +kernel
  have saved : (MemoryMap.Listing.save map "map").outcome firmware.serve () = .ok () := by
    decide +kernel
  obtain ⟨loads, saves⟩ := resources_given_back firmware.serve ()
  exact ⟨refused, loads "kernel" (by rw [refused]; exact nofun), by decide +kernel,
    by decide +kernel, saves map "map" (by rw [saved]; exact nofun)⟩

end EfiLoader
