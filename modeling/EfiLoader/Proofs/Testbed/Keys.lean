import EfiLoader.Proofs.Boot.Preparation
import EfiLoader.Proofs.Execution
import EfiLoader.Proofs.Testbed.Answers
import Mathlib.Data.List.TakeWhile

/-!
The key of firmware in memory. Up to the exit it counts the calls that real firmware allocates for
(`run_key_untilExit`), of which the load of a kernel makes four (`key_of_load`): a map from before a
load is out of date after it. Main statement: a key lets the boot services go as long as nothing was
allocated since it was reported, and after that no service works (`key_counts_allocations`).
-/

namespace EfiLoader

/-- A call that real firmware allocates for. -/
def Exchange.allocates (e : Exchange Services) : Bool :=
  match e.request with
  | .openFile _ | .createFile _ | .allocatePool _ | .freePool _ | .allocatePages _ _
  | .graphicsMode => true
  | _ => false

/-- An exit that succeeded. -/
def Exchange.leaves : Exchange Services → Bool
  | ⟨.exitBootServices _, .ok _⟩ => true
  | _ => false

theorem Exchange.exits_of_leaves {e : Exchange Services} (leaves : e.leaves = true) :
    e.exits = true := by
  unfold Exchange.leaves at leaves
  split at leaves
  · rfl
  · cases leaves

theorem Exchange.allocates_of_leaves {e : Exchange Services} (leaves : e.leaves = true) :
    e.allocates = false := by
  unfold Exchange.leaves at leaves
  split at leaves
  · rfl
  · cases leaves

/-- Calls of the firmware itself; the others are on open files, on memory and for the log. -/
def Services.Request.isService : Services.Request → Bool
  | .fileSize _ | .readFile _ _ | .writeFile _ _ | .closeFile _ | .store _ _ | .fill _ _ _
  | .log _ => false
  | _ => true

/-- How often real firmware allocates in a history. -/
def allocations (h : List (Exchange Services)) : Nat := h.countP Exchange.allocates

/-- What comes before the exit in a history, all of it if there is no exit. -/
def untilExit (h : List (Exchange Services)) : List (Exchange Services) :=
  h.takeWhile fun e => !e.leaves

theorem untilExit_eq_self {h : List (Exchange Services)} (stays : ∀ e ∈ h, e.leaves = false) :
    untilExit h = h := by
  rw [untilExit, List.takeWhile_eq_self_iff]
  intro e he
  simp [stays e he]

theorem allocations_untilExit_le (h : List (Exchange Services)) :
    allocations (untilExit h) ≤ h.length :=
  Nat.le_trans List.countP_le_length (List.takeWhile_prefix _).length_le

theorem Kernel.Loading.allocations {path : String} {h : List (Exchange Services)} {loaded : Loaded}
    (loading : Loading path h (.ok loaded)) : EfiLoader.allocations h = 4 := by
  cases loading with
  | loaded read placed =>
    cases read with
    | staged size block reply full =>
      cases placed with
      | placed fits destination record bounded =>
        have stores (segments : List Segment) (file : Bytes) (base : UInt64) :
            (segments.map (Segment.stored file base destination)).countP Exchange.allocates =
              0 := by
          simp [List.countP_eq_zero, Segment.stored, Exchange.allocates]
        simp only [EfiLoader.allocations, List.cons_append, List.nil_append, List.countP_cons,
          List.countP_append, stores]
        rfl

namespace Testbed.MemoryFirmware

variable {firmware : MemoryFirmware}

/-- Before the exit the key counts, and a successful exit is the way out. -/
theorem answer_isOpen (isOpen : firmware.exited = false) (request : Services.Request) :
    let e : Exchange Services := ⟨request, (answer request firmware).1⟩
    (answer request firmware).2.exited = e.leaves ∧
      (answer request firmware).2.key = firmware.key + .ofNat (allocations [e]) := by
  have still : firmware.key = firmware.key + .ofNat 0 := (UInt64.add_zero _).symm
  cases request with
  | memoryMap buffer =>
    have run : answer (.memoryMap buffer) firmware = _ := run_memoryMap isOpen buffer
    rw [run]
    dsimp only
    repeat' split
    all_goals exact ⟨isOpen, still⟩
  | openFile path =>
    have run : answer (.openFile path) firmware = _ := run_openFile isOpen path
    rw [run]
    split <;> exact ⟨isOpen, rfl⟩
  | createFile path =>
    have run : answer (.createFile path) firmware = _ := run_createFile isOpen path
    rw [run]
    exact ⟨isOpen, rfl⟩
  | fileSize | closeFile | store | fill | log => exact ⟨isOpen, still⟩
  | readFile file count =>
    have run : answer (.readFile file count) firmware = _ := run_readFile file count
    rw [run]
    split <;> exact ⟨isOpen, still⟩
  | writeFile file data =>
    have run : answer (.writeFile file data) firmware = _ := run_writeFile file data
    rw [run]
    split <;> exact ⟨isOpen, still⟩
  | allocatePool size =>
    have run : answer (.allocatePool size) firmware = _ := run_allocatePool isOpen size
    rw [run]
    repeat' split
    all_goals exact ⟨isOpen, rfl⟩
  | freePool block =>
    have run : answer (.freePool block) firmware = _ := run_freePool isOpen block
    rw [run]
    split <;> exact ⟨isOpen, rfl⟩
  | allocatePages address count =>
    have run : answer (.allocatePages address count) firmware = _ :=
      run_allocatePages isOpen address count
    rw [run]
    dsimp only
    repeat' split
    all_goals exact ⟨isOpen, rfl⟩
  | graphicsMode =>
    have run : answer .graphicsMode firmware = _ := run_graphicsMode isOpen
    rw [run]
    split <;> exact ⟨isOpen, rfl⟩
  | exitBootServices key =>
    have run : answer (.exitBootServices key) firmware = _ := run_exitBootServices isOpen key
    rw [run]
    repeat' split
    · exact ⟨isOpen, still⟩
    · exact ⟨rfl, still⟩
    · exact ⟨isOpen, still⟩

theorem crashes_of_run {request : Services.Request} {reply : Services.Reply request}
    (run : answer request firmware = (reply, firmware))
    (crash : Services.verdict request reply = .crash) :
    Exchange.verdict ⟨request, (answer request firmware).1⟩ = .crash ∧
      (answer request firmware).2 = firmware := by
  rw [run]
  exact ⟨crash, rfl⟩

section AfterExit

variable (exited : firmware.exited = true)

include exited

theorem allocating_of_exited {α : Type} (call : StateM MemoryFirmware (Outcome Status α)) :
    (allocating call).run firmware = (.crash, firmware) := by
  simp [allocating, exited]
  rfl

/-- After the exit every service is a crash and changes nothing. -/
theorem answer_of_exited {request : Services.Request} (service : request.isService = true) :
    Exchange.verdict ⟨request, (answer request firmware).1⟩ = .crash ∧
      (answer request firmware).2 = firmware := by
  cases request with
  | fileSize | readFile | writeFile | closeFile | store | fill | log => cases service
  | memoryMap buffer =>
    have run : answer (.memoryMap buffer) firmware = (⟨buffer, .crash⟩, firmware) := by
      change (memoryMap buffer).run firmware = _
      simp [memoryMap, exited]
      rfl
    exact crashes_of_run run rfl
  | exitBootServices key =>
    have run : answer (.exitBootServices key) firmware = (.crash, firmware) := by
      change (exitBootServices key).run firmware = _
      simp [exitBootServices, exited]
      rfl
    exact crashes_of_run run rfl
  | openFile | createFile | allocatePool | freePool | allocatePages | graphicsMode =>
    exact crashes_of_run (allocating_of_exited exited _) rfl

/-- Nothing brings the services back. -/
theorem answer_stays_exited (request : Services.Request) :
    (answer request firmware).2.exited = true ∧ (answer request firmware).2.key = firmware.key := by
  by_cases service : request.isService = true
  · rw [(answer_of_exited exited service).2]
    exact ⟨exited, rfl⟩
  cases request with
  | fileSize | closeFile | store | fill | log => exact ⟨exited, rfl⟩
  | readFile file count =>
    have run : answer (.readFile file count) firmware = _ := run_readFile file count
    rw [run]
    split <;> exact ⟨exited, rfl⟩
  | writeFile file data =>
    have run : answer (.writeFile file data) firmware = _ := run_writeFile file data
    rw [run]
    split <;> exact ⟨exited, rfl⟩
  | _ => exact absurd rfl service

theorem run_stays_exited {α : Type} (program : Program Services α) :
    (program.run answer firmware).2.exited = true ∧
      (program.run answer firmware).2.key = firmware.key := by
  induction program generalizing firmware with
  | done value => exact ⟨exited, rfl⟩
  | ask request next ih =>
    obtain ⟨exitedStill, sameKey⟩ := answer_stays_exited exited request
    have rest := ih (answer request firmware).1 exitedStill
    rw [sameKey] at rest
    exact rest

end AfterExit

/-- **The key counts what was allocated before the exit**, and there is an exit if one succeeded. -/
theorem run_key_untilExit {α : Type} (program : Program Services α)
    (isOpen : firmware.exited = false) :
    let h := program.history answer firmware
    (program.run answer firmware).2.exited = h.any Exchange.leaves ∧
      (program.run answer firmware).2.key = firmware.key + .ofNat (allocations (untilExit h)) := by
  induction program generalizing firmware with
  | done value => exact ⟨isOpen, (UInt64.add_zero _).symm⟩
  | ask request next ih =>
    let e : Exchange Services := ⟨request, (answer request firmware).1⟩
    let later := (answer request firmware).2
    let rest := (next e.reply).history answer later
    obtain ⟨exits, key⟩ : later.exited = e.leaves ∧
        later.key = firmware.key + .ofNat (allocations [e]) := answer_isOpen isOpen request
    change ((next e.reply).run answer later).2.exited = (e :: rest).any Exchange.leaves ∧
      ((next e.reply).run answer later).2.key =
        firmware.key + .ofNat (allocations (untilExit (e :: rest)))
    rw [List.any_cons]
    by_cases leaves : e.leaves = true
    · have quiet : allocations [e] = 0 := by
        simp [allocations, Exchange.allocates_of_leaves leaves]
      have before : untilExit (e :: rest) = [] := List.takeWhile_cons_of_neg (by simp [leaves])
      rw [leaves] at exits
      rw [quiet] at key
      obtain ⟨exited, kept⟩ := run_stays_exited exits (next e.reply)
      rw [before, leaves, Bool.true_or, exited, kept, key]
      exact ⟨rfl, rfl⟩
    · have stays : e.leaves = false := Bool.not_eq_true _ ▸ leaves
      have before : untilExit (e :: rest) = [e] ++ untilExit rest :=
        List.takeWhile_cons_of_pos (by simp [stays])
      rw [stays] at exits
      obtain ⟨exitedLater, keyLater⟩ := ih e.reply exits
      rw [before, stays, Bool.false_or, allocations, List.countP_append, UInt64.ofNat_add,
        ← UInt64.add_assoc, exitedLater, keyLater, key]
      exact ⟨rfl, rfl⟩

theorem run_key {α : Type} (program : Program Services α) (isOpen : firmware.exited = false)
    (stays : ∀ e ∈ program.history answer firmware, e.exits = false) :
    (program.run answer firmware).2.key =
      firmware.key + .ofNat (allocations (program.history answer firmware)) := by
  have stays' : ∀ e ∈ program.history answer firmware, e.leaves = false := by
    intro e he
    by_contra leaves
    have exits := Exchange.exits_of_leaves (Bool.not_eq_false _ ▸ leaves)
    rw [stays e he] at exits
    cases exits
  have key := (run_key_untilExit program isOpen).2
  rwa [untilExit_eq_self stays'] at key

/-- The key that is reported is the current one. -/
theorem key_of_report {buffer : Bytes} {report : Services.MapReport}
    (reported : (answer (.memoryMap buffer) firmware).1.outcome = .ok report) :
    firmware.exited = false ∧ report.key = firmware.key := by
  by_cases exited : firmware.exited = true
  · have service : Services.Request.isService (.memoryMap buffer) = true := rfl
    have crashed : Except.map (fun _ => ()) (answer (.memoryMap buffer) firmware).1.outcome =
        Outcome.crash := (answer_of_exited exited service).1
    rw [reported] at crashed
    cases crashed
  have isOpen : firmware.exited = false := Bool.not_eq_true _ ▸ exited
  have run : answer (.memoryMap buffer) firmware = _ := run_memoryMap isOpen buffer
  refine ⟨isOpen, ?_⟩
  rw [run] at reported
  dsimp only at reported
  split at reported
  · cases reported
  split at reported
  · cases reported
  split at reported
  · cases reported
  split at reported
  · cases reported
  cases wrote : writeMap firmware.stride.toNat 0 firmware.regions buffer with
  | mk written outcome =>
    rw [wrote] at reported
    cases outcome with
    | error stop => cases reported
    | ok => cases reported; rfl

theorem key_of_load {path : String} {loaded : Kernel.Loaded} {later : MemoryFirmware}
    (isOpen : firmware.exited = false)
    (ended : (Kernel.load path).result answer firmware = (.ok loaded, later)) :
    later.key = firmware.key + 4 := by
  have yields := Program.yields_run answer (Kernel.load path).run firmware
  have outcome : (Program.run answer (Kernel.load path).run firmware).1 = .ok loaded :=
    congrArg Prod.fst ended
  rw [outcome] at yields
  have loading := Kernel.loading_of_yields yields
  have counted := run_key (Kernel.load path).run isOpen loading.stays
  rw [loading.allocations] at counted
  exact (congrArg (fun result => result.2.key) ended).symm.trans counted

/-- A call for the exit that no failure was set up for is decided by its key, as long as there are
services at all. -/
theorem exit_ok_iff (unscripted : firmware.exitFailures = []) (key : UInt64) :
    (answer (.exitBootServices key) firmware).1 = .ok () ↔
      firmware.exited = false ∧ key = firmware.key := by
  by_cases exited : firmware.exited = true
  · have service : Services.Request.isService (.exitBootServices key) = true := rfl
    have crashed : (answer (.exitBootServices key) firmware).1 = Outcome.crash :=
      (answer_of_exited exited service).1
    rw [crashed, exited]
    exact ⟨nofun, nofun⟩
  have isOpen : firmware.exited = false := Bool.not_eq_true _ ▸ exited
  have run : answer (.exitBootServices key) firmware = _ := run_exitBootServices isOpen key
  rw [run, unscripted]
  by_cases same : key = firmware.key <;> simp [same, isOpen, Outcome.fail]

/-- What happens between the report of a key and a later state decides whether it still is the
key. -/
theorem key_current_iff {α : Type} (program : Program Services α) (isOpen : firmware.exited = false)
    (few : (program.history answer firmware).length < UInt64.size) :
    let later := (program.run answer firmware).2
    later.exited = false ∧ firmware.key = later.key ↔
      later.exited = false ∧ ∀ e ∈ program.history answer firmware, e.allocates = false := by
  intro later
  obtain ⟨exits, key⟩ := run_key_untilExit program isOpen
  apply and_congr_right
  intro stillOpen
  have stays : ∀ e ∈ program.history answer firmware, e.leaves = false := by
    have none : (program.history answer firmware).any Exchange.leaves = false :=
      exits.symm.trans stillOpen
    simpa using none
  have counted :
      later.key = firmware.key + .ofNat (allocations (program.history answer firmware)) := by
    rw [untilExit_eq_self stays] at key
    exact key
  have bounded : allocations (program.history answer firmware) < UInt64.size :=
    Nat.lt_of_le_of_lt List.countP_le_length few
  have small : (UInt64.ofNat (allocations (program.history answer firmware))).toNat =
      allocations (program.history answer firmware) := UInt64.toNat_ofNat_of_lt' bounded
  have zero : allocations (program.history answer firmware) = 0 ↔
      ∀ e ∈ program.history answer firmware, e.allocates = false := by
    simp [allocations]
  rw [← zero, counted, ← UInt64.toNat_inj, UInt64.toNat_add, small]
  have word := firmware.key.toNat_lt
  rw [UInt64.size] at bounded
  omega

/-- **A key is good for as long as nothing was allocated.** Whatever is asked of new firmware, its
key counts the calls up to the exit that real firmware allocates for, and no other call changes it.
So a call for the exit with a key that was reported, unless a failure was set up for it, succeeds
just if no such call came in between and the exit is still ahead; behind it every service crashes
and changes nothing. -/
theorem key_counts_allocations {α : Type} (program : Program Services α)
    (new : firmware.key = 0x1000) (isOpen : firmware.exited = false)
    (few : (program.history answer firmware).length < UInt64.size - 0x1000) :
    let h := program.history answer firmware
    let later := (program.run answer firmware).2
    later.key.toNat = 0x1000 + allocations (untilExit h) ∧
    (∀ request, Exchange.allocates ⟨request, (answer request later).1⟩ = false →
      (answer request later).2.key = later.key) ∧
    (∀ earlier buffer reply between report,
      h = earlier ++ ⟨.memoryMap buffer, reply⟩ :: between → reply.outcome = .ok report →
      later.exitFailures = [] →
      ((answer (.exitBootServices report.key) later).1 = .ok () ↔
        later.exited = false ∧ ∀ e ∈ between, e.allocates = false)) ∧
    ∀ e ∈ h, e.leaves = true → ∀ request : Services.Request, request.isService = true →
      Exchange.verdict ⟨request, (answer request later).1⟩ = .crash ∧
        (answer request later).2 = later := by
  intro h later
  obtain ⟨exits, key⟩ := run_key_untilExit program isOpen
  have bounded : allocations (untilExit h) < UInt64.size - 0x1000 :=
    Nat.lt_of_le_of_lt (allocations_untilExit_le h) few
  refine ⟨?_, ?_, ?_, ?_⟩
  · have counted : later.key = 0x1000 + .ofNat (allocations (untilExit h)) := by
      rw [← new]
      exact key
    have small : (UInt64.ofNat (allocations (untilExit h))).toNat = allocations (untilExit h) :=
      UInt64.toNat_ofNat_of_lt' (by omega)
    rw [counted, UInt64.toNat_add, small]
    change (0x1000 + _) % UInt64.size = _
    rw [UInt64.size] at bounded ⊢
    omega
  · intro request quiet
    by_cases exited : later.exited = true
    · exact (answer_stays_exited exited request).2
    · have isOpenStill : later.exited = false := Bool.not_eq_true _ ▸ exited
      rw [(answer_isOpen isOpenStill request).2]
      simp [allocations, quiet]
  · intro earlier buffer reply between report split reported unscripted
    obtain ⟨here, rest, asked, went, ran⟩ := Program.exists_of_history_eq split
    dsimp only at asked went ran
    rw [asked] at reported
    obtain ⟨openHere, current⟩ := key_of_report reported
    obtain ⟨openStill, counted⟩ := answer_isOpen openHere (.memoryMap buffer)
    have sameKey : (answer (.memoryMap buffer) here).2.key = here.key :=
      counted.trans (UInt64.add_zero _)
    have length : (program.history answer firmware).length = _ := congrArg List.length split
    rw [List.length_append, List.length_cons] at length
    have short :
        (rest.history answer (answer (.memoryMap buffer) here).2).length < UInt64.size := by
      rw [went]
      omega
    have decided := key_current_iff rest openStill short
    rw [went, ran, sameKey] at decided
    rw [exit_ok_iff unscripted, current]
    exact decided
  · intro e he leaves request service
    have exited : later.exited = true := by
      rw [exits]
      exact List.any_eq_true.mpr ⟨e, he, leaves⟩
    exact answer_of_exited exited service

/-- A missing file makes a key stale; the next one that is reported is good. -/
theorem key_counts_allocations_renewed :
    let program : Program Services Unit := do
      let _ ← Services.memoryMap []
      let _ ← Services.openFile "none"
      let _ ← Services.exitBootServices 0x1000
      let _ ← Services.memoryMap []
      let _ ← Services.exitBootServices 0x1001
      let _ ← Services.openFile "none"
    let firmware : MemoryFirmware := {}
    let h := program.history answer firmware
    let later := (program.run answer firmware).2
    firmware.key = 0x1000 ∧ firmware.exited = false ∧ h.length < UInt64.size - 0x1000 ∧
      h.map (·.verdict) =
        [.ok (), .fail .notFound, .fail .invalidParameter, .ok (), .ok (), .crash] ∧
      later.key.toNat = 0x1001 ∧ (answer .graphicsMode later).2 = later := by
  intro program firmware h later
  have new : firmware.key = 0x1000 := rfl
  have isOpen : firmware.exited = false := rfl
  have few : h.length < UInt64.size - 0x1000 := by decide +kernel
  have verdicts : h.map (·.verdict) =
      [.ok (), .fail .notFound, .fail .invalidParameter, .ok (), .ok (), .crash] := by
    decide +kernel
  have once : allocations (untilExit h) = 1 := by decide +kernel
  have left : ∃ e ∈ h, e.leaves = true := List.any_eq_true.mp (by decide +kernel)
  obtain ⟨e, he, leaves⟩ := left
  obtain ⟨counted, _, _, silent⟩ := key_counts_allocations program new isOpen few
  have service : Services.Request.isService .graphicsMode = true := rfl
  have key : later.key.toNat = 0x1000 + allocations (untilExit h) := counted
  rw [once] at key
  exact ⟨new, isOpen, few, verdicts, key, (silent e he leaves .graphicsMode service).2⟩

end Testbed.MemoryFirmware

end EfiLoader
