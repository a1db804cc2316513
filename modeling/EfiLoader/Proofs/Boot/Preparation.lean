import EfiLoader.Boot.Launch
import EfiLoader.Proofs.Kernel.Loading
import EfiLoader.Proofs.MemoryMap.Acceptance

/-!
The parts of a boot attempt before the exit. `Preparatory` is what they have in common: they never
call for the exit, and hide no failure of what they do call. It is kept by sequencing, so that the
whole way to the exit has it as soon as each part does.
-/

namespace EfiLoader

open Boot (Cause Failure)

variable {ε ε' α β : Type} {h : List (Exchange Services)}

namespace Exchange

/-- A call for the exit from the boot services, whatever its reply. -/
def exits (e : Exchange Services) : Bool :=
  match e.request with
  | .exitBootServices _ => true
  | _ => false

/-- An exchange of the way to the exit, and one that went well. -/
structure Prepares (e : Exchange Services) : Prop where
  stays : e.exits = false
  succeeded : e.Succeeded

theorem stays_of_prepares (prepares : ∀ e ∈ h, e.Prepares) : ∀ e ∈ h, e.exits = false :=
  fun e he => (prepares e he).stays

end Exchange

namespace Attempt

/-- No call for the exit, and a value only if every call succeeded. -/
structure Preparatory (attempt : Attempt ε α) : Prop where
  stays : ∀ {h o}, attempt.Yields h o → ∀ e ∈ h, e.exits = false
  strict : ∀ {h value}, attempt.Yields h (.ok value) → ∀ e ∈ h, e.Succeeded

namespace Preparatory

theorem prepares {attempt : Attempt ε α} (preparatory : attempt.Preparatory) {value : α}
    (yields : attempt.Yields h (.ok value)) : ∀ e ∈ h, e.Prepares :=
  fun e he => ⟨preparatory.stays yields e he, preparatory.strict yields e he⟩

theorem ofOutcome (outcome : Outcome ε α) : (ofOutcome outcome).Preparatory where
  stays yields := by
    rw [(yields_ofOutcome.mp yields).1]
    exact nofun
  strict yields := by
    rw [(yields_ofOutcome.mp yields).1]
    exact nofun

theorem ofExcept (result : Except ε α) : (ofExcept result).Preparatory where
  stays yields := by
    rw [(yields_ofExcept.mp yields).1]
    exact nofun
  strict yields := by
    rw [(yields_ofExcept.mp yields).1]
    exact nofun

theorem pure (value : α) : (Pure.pure value : Attempt ε α).Preparatory := ofOutcome (.ok value)

theorem fail (cause : ε) : (fail cause : Attempt ε α).Preparatory := ofOutcome (.fail cause)

theorem bind {attempt : Attempt ε α} {f : α → Attempt ε β} (first : attempt.Preparatory)
    (next : ∀ value, (f value).Preparatory) : (attempt >>= f : Attempt ε β).Preparatory where
  stays yields := by
    rcases yields_bind.mp yields with ⟨stop, stopped, _⟩ | ⟨_, value, _, rfl, came, rest⟩
    · exact first.stays stopped
    · intro e he
      rcases List.mem_append.mp he with he | he
      · exact first.stays came e he
      · exact (next value).stays rest e he
  strict yields := by
    rcases yields_bind.mp yields with ⟨_, _, impossible⟩ | ⟨_, value, _, rfl, came, rest⟩
    · cases impossible
    · intro e he
      rcases List.mem_append.mp he with he | he
      · exact first.strict came e he
      · exact (next value).strict rest e he

/-- One call that cannot fail. -/
theorem ask (request : Services.Request)
    (prepares : ∀ reply, Exchange.Prepares ⟨request, reply⟩) :
    (liftM (Services.ask request) : Attempt ε _).Preparatory where
  stays yields := by
    obtain ⟨reply, asked, _⟩ := yields_lift.mp yields
    rw [Program.yields_request.mp asked]
    intro e he
    rw [List.mem_singleton.mp he]
    exact (prepares reply).stays
  strict yields := by
    obtain ⟨reply, asked, _⟩ := yields_lift.mp yields
    rw [Program.yields_request.mp asked]
    intro e he
    rw [List.mem_singleton.mp he]
    exact (prepares reply).succeeded

theorem log (level : Log.Level) (target text : String) :
    (liftM (Services.log level target text) : Attempt ε Unit).Preparatory :=
  ask (.log { level, target, text }) fun _ => ⟨rfl, rfl⟩

/-- One call, and something to do after a failure of it that does not end with a value. -/
theorem reply {service : Program Services (Outcome Status α)} {f : Except Status α → Attempt ε β}
    (call : Outcome Status α → Exchange Services)
    (asks : ∀ {h outcome}, service.Yields h outcome → h = [call outcome])
    (stays : ∀ outcome, (call outcome).exits = false)
    (strict : ∀ value, (call (.ok value)).Succeeded)
    (failing : ∀ status, (f (.error status)).Preparatory)
    (fails : ∀ {status h value}, ¬ (f (.error status)).Yields h (.ok value))
    (next : ∀ value, (f (.ok value)).Preparatory) :
    (Attempt.reply service >>= f : Attempt ε β).Preparatory where
  stays yields := by
    rcases of_reply_bind yields with ⟨asked, _⟩ | ⟨_, result, _, rfl, asked, rest⟩
    · rw [asks asked]
      exact List.forall_mem_cons.mpr ⟨stays _, nofun⟩
    · rw [asks asked]
      cases result with
      | error status => exact List.forall_mem_cons.mpr ⟨stays _, (failing status).stays rest⟩
      | ok value => exact List.forall_mem_cons.mpr ⟨stays _, (next value).stays rest⟩
  strict yields := by
    rcases of_reply_bind yields with ⟨_, impossible⟩ | ⟨_, result, _, rfl, asked, rest⟩
    · cases impossible
    · rw [asks asked]
      cases result with
      | error status => exact absurd rest fails
      | ok value => exact List.forall_mem_cons.mpr ⟨strict value, (next value).strict rest⟩

/-- One call whose failure ends the whole. -/
theorem require {service : Program Services (Outcome Status α)} (cause : Status → ε)
    (call : Outcome Status α → Exchange Services)
    (asks : ∀ {h outcome}, service.Yields h outcome → h = [call outcome])
    (stays : ∀ outcome, (call outcome).exits = false)
    (strict : ∀ value, (call (.ok value)).Succeeded) : (require service cause).Preparatory := by
  refine reply call asks stays strict (fun status => fail _) ?_ fun value => pure value
  intro status h value failed
  cases (yields_fail.mp failed).2

theorem explain {attempt : Attempt ε α} (preparatory : attempt.Preparatory) (f : ε → ε') :
    (attempt.explain f).Preparatory where
  stays yields := by
    obtain ⟨_, explained, _⟩ := yields_explain.mp yields
    exact preparatory.stays explained
  strict yields := preparatory.strict (of_explain_ok yields)

/-- A file is closed after a failure as well, which then still ends the whole. -/
theorem closing {attempt : Attempt ε α} (preparatory : attempt.Preparatory)
    (file : Services.File) :
    (do
      let result ← attempt.settle
      Services.closeFile file
      Attempt.ofExcept result : Attempt ε α).Preparatory := by
  have closes : Exchange.Prepares ⟨.closeFile file, ()⟩ := ⟨rfl, rfl⟩
  have ends {h : List (Exchange Services)} {o : Outcome ε α}
      (yields : (do
        let result ← attempt.settle
        Services.closeFile file
        Attempt.ofExcept result : Attempt ε α).Yields h o) :
      attempt.Yields h o ∨
        ∃ tried, attempt.Yields tried o ∧ h = tried ++ [⟨.closeFile file, ()⟩] := by
    rcases of_settle_bind yields with ⟨crashed, rfl⟩ | ⟨tried, result, _, rfl, ended, rest⟩
    · exact .inl crashed
    · obtain ⟨_, _, rfl, closed⟩ := yields_lift_bind.mp rest
      obtain ⟨rfl, rfl⟩ := yields_ofExcept.mp closed
      exact .inr ⟨tried, ended, rfl⟩
  constructor
  · intro h o yields e he
    rcases ends yields with crashed | ⟨tried, ended, rfl⟩
    · exact preparatory.stays crashed e he
    · rcases List.mem_append.mp he with he | he
      · exact preparatory.stays ended e he
      · rw [List.mem_singleton.mp he]
        exact closes.stays
  · intro h value yields e he
    rcases ends yields with came | ⟨tried, ended, rfl⟩
    · exact preparatory.strict came e he
    · rcases List.mem_append.mp he with he | he
      · exact preparatory.strict ended e he
      · rw [List.mem_singleton.mp he]
        exact closes.succeeded

end Preparatory

end Attempt

namespace MemoryMap

theorem Retaking.stays {map : MemoryMap} {result : MemoryMap × Outcome Cause Unit}
    (retaking : Retaking map h result) : ∀ e ∈ h, e.exits = false := by
  cases retaking with
  | noRoom empty => exact nofun
  | stopped reply stop => exact fun e he => by rw [List.mem_singleton.mp he]; rfl
  | taken reply report => exact fun e he => by rw [List.mem_singleton.mp he]; rfl

theorem Retaking.succeeded {map taken : MemoryMap} (retaking : Retaking map h (taken, .ok ())) :
    ∀ e ∈ h, e.Succeeded := by
  cases retaking with
  | taken reply report room judged =>
    intro e he
    rw [List.mem_singleton.mp he]
    change reply.outcome.map _ = _
    cases answer : reply.outcome with
    | error stop => rw [answer] at judged; cases judged
    | ok report => rfl

open Attempt (Preparatory)

namespace Listing

theorem preparatory_write (file : Services.File) (data : Bytes) :
    (Attempt.require (Services.writeFile file data) Cause.io).Preparatory :=
  .require _ (fun outcome => ⟨.writeFile file data, outcome⟩) Program.yields_request.mp
    (fun _ => rfl) fun _ => rfl

theorem preparatory_writeLines (file : Services.File) (index : Nat) (ds : List Descriptor) :
    (writeLines file index ds).Preparatory := by
  induction ds generalizing index with
  | nil => exact .pure ()
  | cons d rest ih =>
    rw [writeLines]
    split
    · exact .bind (.fail _) fun _ => .bind (preparatory_write _ _) fun _ => ih _
    · exact .bind (preparatory_write _ _) fun _ => ih _

theorem preparatory_save (map : MemoryMap) (path : String) : (save map path).Preparatory := by
  have created : (Attempt.require (Services.createFile path) Cause.io).Preparatory :=
    .require _ (fun outcome => ⟨.createFile path, outcome⟩) Program.yields_request.mp
      (fun _ => rfl) fun _ => rfl
  refine .bind created fun file => .closing ?_ file
  refine .bind (preparatory_write _ _) fun _ => .bind (.log _ _ _) fun _ => ?_
  exact .bind (.ofOutcome _) fun descriptors => preparatory_writeLines file 0 descriptors

end Listing

end MemoryMap

namespace Kernel

theorem Staging.stays {file : Services.File} {o : Outcome Cause Staged}
    (staging : Staging file h o) : ∀ e ∈ h, e.exits = false := by
  cases staging <;> simp [Exchange.exits]

theorem stored_prepares {file : Bytes} {base destination : UInt64} {segments : List Segment} :
    ∀ e ∈ segments.map (Segment.stored file base destination), e.Prepares := by
  intro e he
  obtain ⟨s, _, rfl⟩ := List.mem_map.mp he
  exact ⟨rfl, rfl⟩

theorem Placing.stays {file : Bytes} {o : Outcome Cause Loaded} (placing : Placing file h o) :
    ∀ e ∈ h, e.exits = false := by
  cases placing with
  | placed fits destination record bounded =>
    simp only [List.forall_mem_cons, List.forall_mem_append]
    exact ⟨rfl, Exchange.stays_of_prepares stored_prepares, rfl, nofun⟩
  | _ => simp [Exchange.exits]

theorem Loading.stays {path : String} {o : Outcome Cause Loaded} (loading : Loading path h o) :
    ∀ e ∈ h, e.exits = false := by
  cases loading with
  | openCrashed => simp [Exchange.exits]
  | notOpened => simp [Exchange.exits]
  | stagingCrashed crashed => exact List.forall_mem_cons.mpr ⟨rfl, crashed.stays⟩
  | notStaged failed =>
    simp only [List.forall_mem_cons, List.forall_mem_append]
    exact ⟨rfl, failed.stays, rfl, nofun⟩
  | placingCrashed read crashed =>
    simp only [List.forall_mem_cons, List.forall_mem_append]
    exact ⟨rfl, read.stays, rfl, crashed.stays⟩
  | freeCrashed read ended =>
    simp only [List.forall_mem_cons, List.forall_mem_append]
    exact ⟨rfl, read.stays, rfl, ended.stays, rfl, nofun⟩
  | notPlaced read failed freed =>
    simp only [List.forall_mem_cons, List.forall_mem_append]
    exact ⟨rfl, read.stays, rfl, failed.stays, rfl, nofun⟩
  | notReleased read placed status record =>
    simp only [List.forall_mem_cons, List.forall_mem_append]
    exact ⟨rfl, read.stays, rfl, placed.stays, rfl, rfl, nofun⟩
  | loaded read placed =>
    simp only [List.forall_mem_cons, List.forall_mem_append]
    exact ⟨rfl, read.stays, rfl, placed.stays, rfl, nofun⟩

/-- The calls of a load in which nothing failed: the pages of a kernel that fits were granted, all
its segments were stored, and the block that held its file was released. -/
def Loads (path : String) (h : List (Exchange Services)) : Prop :=
  ∃ handle size block reply kernel span pages destination record,
    let file := fillBlock size block reply.data
    reply.count = size ∧ Fits file kernel span pages ∧
      h = [⟨.openFile path, .ok handle⟩, ⟨.fileSize handle, .ok size⟩,
          ⟨.allocatePool size, .ok block⟩, ⟨.readFile handle size, .ok reply⟩,
          ⟨.closeFile handle, ()⟩, ⟨.allocatePages span.base pages, .ok destination⟩]
        ++ kernel.segments.map (Segment.stored file span.base destination)
        ++ [⟨.log record, ()⟩, ⟨.freePool block.address, .ok ()⟩]

theorem Loading.loads {path : String} {loaded : Loaded} (loading : Loading path h (.ok loaded)) :
    Loads path h := by
  cases loading with
  | @loaded handle _ _ _ _ read placed =>
    cases read with
    | staged size block reply full =>
      cases placed with
      | @placed kernel span pages fits destination record bounded =>
        refine ⟨handle, size, block, reply, kernel, span, pages, destination, record, full, fits,
          ?_⟩
        simp

theorem Loads.prepares {path : String} (loads : Loads path h) : ∀ e ∈ h, e.Prepares := by
  obtain ⟨handle, size, block, reply, kernel, span, pages, destination, record, full, fits, rfl⟩ :=
    loads
  simp only [List.forall_mem_cons, List.forall_mem_append]
  exact ⟨⟨⟨⟨rfl, rfl⟩, ⟨rfl, rfl⟩, ⟨rfl, rfl⟩, ⟨rfl, rfl⟩, ⟨rfl, rfl⟩, ⟨rfl, rfl⟩, nofun⟩,
    stored_prepares⟩, ⟨rfl, rfl⟩, ⟨rfl, rfl⟩, nofun⟩

theorem preparatory_load (path : String) : (load path).Preparatory where
  stays yields := (loading_of_yields yields).stays
  strict yields := fun e he => ((loading_of_yields yields).loads.prepares e he).succeeded

end Kernel

theorem Screen.preparatory_find : Screen.find.Preparatory := by
  refine .reply (fun found => ⟨.graphicsMode, found⟩) Program.yields_request.mp (fun _ => rfl)
    (fun _ => rfl) (fun status => .bind (.log _ _ _) fun _ => .fail _) ?_ ?_
  · intro status h mode told
    obtain ⟨_, _, _, failed⟩ := Attempt.yields_lift_bind.mp told
    cases (Attempt.yields_fail.mp failed).2
  · rintro (_ | mode)
    · exact .fail _
    · exact .bind (.log _ _ _) fun _ => .bind (.log _ _ _) fun _ => .pure mode

theorem Screen.preparatory_paint (mode : Screen.Mode) (value : UInt8) :
    (liftM (Screen.paint mode value) : Attempt ε Unit).Preparatory :=
  .ask (.fill mode.base mode.size value) fun _ => ⟨rfl, rfl⟩

namespace Boot

theorem yields_mapOrFail {taken : Program Services (MemoryMap × Outcome Cause Unit)}
    {o : Outcome Cause MemoryMap} :
    (mapOrFail taken).Yields h o ↔
      ∃ result, taken.Yields h result ∧ o = result.2.map fun _ => result.1 := by
  refine Program.yields_bind.trans ⟨?_, ?_⟩
  · rintro ⟨first, result, rest, rfl, hfirst, hrest⟩
    obtain ⟨rfl, rfl⟩ := Program.yields_pure.mp hrest
    rw [List.append_nil]
    exact ⟨result, hfirst, rfl⟩
  · rintro ⟨result, htaken, rfl⟩
    exact ⟨h, result, [], by simp, htaken, Program.yields_pure.mpr ⟨rfl, rfl⟩⟩

theorem of_mapOrFail_ok {taken : Program Services (MemoryMap × Outcome Cause Unit)}
    {map : MemoryMap} (yields : (mapOrFail taken).Yields h (.ok map)) :
    taken.Yields h (map, .ok ()) := by
  obtain ⟨⟨map, outcome⟩, took, told⟩ := yields_mapOrFail.mp yields
  cases outcome with
  | error stop => cases told
  | ok _ => cases told; exact took

theorem preparatory_take (buffer : MemoryMap.Buffer) :
    (mapOrFail (MemoryMap.take buffer)).Preparatory where
  stays yields := by
    obtain ⟨_, taken, _⟩ := yields_mapOrFail.mp yields
    exact (MemoryMap.retaking_of_yields taken).stays
  strict yields := (MemoryMap.retaking_of_yields (of_mapOrFail_ok yields)).succeeded

end Boot

end EfiLoader
