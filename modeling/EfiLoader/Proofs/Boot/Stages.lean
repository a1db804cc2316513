import EfiLoader.Proofs.Boot.Exit
import EfiLoader.Proofs.MemoryMap.Recording

/-!
Every history that a whole boot attempt can have, stage by stage: `Preparing` takes the map and
saves its listing, `FromScreen` goes on with the screen, `FromKernel` loads the kernel and leaves
the boot services. Main statement: these are all histories (`preparing_of_yields`).
-/

namespace EfiLoader

variable {h : List (Exchange Services)}

namespace Screen

open Boot (Cause)

inductive Finding : List (Exchange Services) → Outcome Cause Mode → Prop
  | crashed : Finding [⟨.graphicsMode, .crash⟩] .crash
  | failed (status : Status) (record : Log.Record) :
      Finding [⟨.graphicsMode, .fail status⟩, ⟨.log record, ()⟩]
        (.fail (.graphicsNotFound (some status)))
  | noDevice : Finding [⟨.graphicsMode, .ok none⟩] (.fail (.graphicsNotFound none))
  | found (mode : Mode) (first second : Log.Record) :
      Finding [⟨.graphicsMode, .ok (some mode)⟩, ⟨.log first, ()⟩, ⟨.log second, ()⟩] (.ok mode)

theorem finding_of_yields {o : Outcome Cause Mode} (yields : find.Yields h o) : Finding h o := by
  rcases Attempt.of_reply_bind yields with ⟨asked, rfl⟩ | ⟨_, found, _, rfl, asked, answered⟩
  · cases Program.yields_request.mp asked
    exact .crashed
  cases Program.yields_request.mp asked
  rcases found with status | _ | mode
  · obtain ⟨_, _, rfl, noted⟩ := Attempt.yields_lift_bind.mp answered
    obtain ⟨rfl, rfl⟩ := Attempt.yields_fail.mp noted
    exact .failed status _
  · obtain ⟨rfl, rfl⟩ := Attempt.yields_fail.mp answered
    exact .noDevice
  · obtain ⟨_, _, rfl, noted⟩ := Attempt.yields_lift_bind.mp answered
    obtain ⟨_, _, rfl, ended⟩ := Attempt.yields_lift_bind.mp noted
    obtain ⟨rfl, rfl⟩ := Attempt.yields_pure.mp ended
    exact .found mode _ _

end Screen

namespace Boot

variable {options : Options} {map : MemoryMap} {o : Outcome Failure Launch}

/-- What follows once the screen is described. -/
def fromKernel (options : Options) (map : MemoryMap) (frameBuffer : Screen.FrameBuffer) :
    Attempt Failure Launch := do
  let kernel ← atStep .loadKernel (Kernel.load kernelPath)
  Services.log .info target ("Kernel entry point: " ++ Numeral.address kernel.entry.toNat)
  Services.log .info target "Exiting boot services"
  let _ ← atStep .exitBootServices (mapOrFail (leave map))
  return ⟨kernel.entry, frameBuffer, options.entryCall⟩

/-- What follows once the map is taken and its listing saved. -/
def fromScreen (options : Options) (map : MemoryMap) : Attempt Failure Launch := do
  let mode ← atStep .openGraphicsOutput Screen.find
  let frameBuffer ← atStep .describeFrameBuffer (Attempt.ofExcept (Screen.describe mode))
  if options.paintScreen then
    Screen.paint mode paintValue
  fromKernel options map frameBuffer

theorem prepare_eq (buffer : MemoryMap.Buffer) (options : Options) :
    prepare buffer options = (do
      let map ← atStep .getMemoryMap (mapOrFail (MemoryMap.take buffer))
      Services.log .info target <|
        "Memory map: " ++ Numeral.decimal map.length ++ " descriptors of "
          ++ Numeral.decimal map.report.stride.toNat ++ " bytes, version "
          ++ Numeral.decimal map.report.version.toNat
      if options.saveMemoryMap then
        atStep .saveMemoryMap (MemoryMap.Listing.save map listingPath)
        Services.log .info target ("Memory map saved to " ++ listingPath)
      fromScreen options map) := rfl

inductive FromKernel (options : Options) (map : MemoryMap) (frameBuffer : Screen.FrameBuffer) :
    List (Exchange Services) → Outcome Failure Launch → Prop
  | notLoaded {h : List (Exchange Services)} {stop : Stop Cause}
      (stopped : Kernel.Loading kernelPath h (.error stop)) :
      FromKernel options map frameBuffer h (.error (stop.map (Failure.mk .loadKernel)))
  | left {loading leaving : List (Exchange Services)} {kernel : Kernel.Loaded} {later : MemoryMap}
      {result : Outcome Cause Unit} (loaded : Kernel.Loading kernelPath loading (.ok kernel))
      (entry notice : Log.Record) (left : Leaving map leaving (later, result)) :
      FromKernel options map frameBuffer
        (loading ++ ⟨.log entry, ()⟩ :: ⟨.log notice, ()⟩ :: leaving)
        ((result.explain (Failure.mk .exitBootServices)).map fun _ =>
          ⟨kernel.entry, frameBuffer, options.entryCall⟩)

/-- The stores that paint the screen, if it is to be painted. -/
def painting (options : Options) (mode : Screen.Mode) : List (Exchange Services) :=
  if options.paintScreen then [⟨.fill mode.base mode.size paintValue, ()⟩] else []

inductive FromScreen (options : Options) (map : MemoryMap) :
    List (Exchange Services) → Outcome Failure Launch → Prop
  | notFound {h : List (Exchange Services)} {stop : Stop Cause}
      (stopped : Screen.Finding h (.error stop)) :
      FromScreen options map h (.error (stop.map (Failure.mk .openGraphicsOutput)))
  | notDescribed {h : List (Exchange Services)} {mode : Screen.Mode} {cause : Cause}
      (found : Screen.Finding h (.ok mode)) (unknown : Screen.describe mode = .error cause) :
      FromScreen options map h (.fail ⟨.describeFrameBuffer, cause⟩)
  | described {finding rest : List (Exchange Services)} {mode : Screen.Mode}
      {frameBuffer : Screen.FrameBuffer} {o : Outcome Failure Launch}
      (found : Screen.Finding finding (.ok mode))
      (described : Screen.describe mode = .ok frameBuffer)
      (onward : FromKernel options map frameBuffer rest o) :
      FromScreen options map (finding ++ (painting options mode ++ rest)) o

inductive Preparing (buffer : MemoryMap.Buffer) (options : Options) :
    List (Exchange Services) → Outcome Failure Launch → Prop
  | notTaken {h : List (Exchange Services)} {map : MemoryMap} {stop : Stop Cause}
      (stopped : MemoryMap.Retaking (.blank buffer) h (map, .error stop)) :
      Preparing buffer options h (.error (stop.map (Failure.mk .getMemoryMap)))
  | notSaved {taking saving : List (Exchange Services)} {map : MemoryMap} {stop : Stop Cause}
      (taken : MemoryMap.Retaking (.blank buffer) taking (map, .ok ())) (record : Log.Record)
      (wanted : options.saveMemoryMap = true)
      (stopped : MemoryMap.Listing.Saving map listingPath saving (.error stop)) :
      Preparing buffer options (taking ++ ⟨.log record, ()⟩ :: saving)
        (.error (stop.map (Failure.mk .saveMemoryMap)))
  | saved {taking saving rest : List (Exchange Services)} {map : MemoryMap}
      {o : Outcome Failure Launch}
      (taken : MemoryMap.Retaking (.blank buffer) taking (map, .ok ())) (record : Log.Record)
      (wanted : options.saveMemoryMap = true)
      (saved : MemoryMap.Listing.Saving map listingPath saving (.ok ())) (notice : Log.Record)
      (onward : FromScreen options map rest o) :
      Preparing buffer options
        (taking ++ ⟨.log record, ()⟩ :: (saving ++ ⟨.log notice, ()⟩ :: rest)) o
  | notWanted {taking rest : List (Exchange Services)} {map : MemoryMap}
      {o : Outcome Failure Launch}
      (taken : MemoryMap.Retaking (.blank buffer) taking (map, .ok ())) (record : Log.Record)
      (unwanted : options.saveMemoryMap = false) (onward : FromScreen options map rest o) :
      Preparing buffer options (taking ++ ⟨.log record, ()⟩ :: rest) o

theorem of_atStep_bind {α β : Type} {step : Step} {part : Attempt Cause α}
    {f : α → Attempt Failure β} {o : Outcome Failure β}
    (yields : (atStep step part >>= f : Attempt Failure β).Yields h o) :
    (∃ stop, part.Yields h (.error stop) ∧ o = .error (stop.map (Failure.mk step))) ∨
      ∃ first value rest, h = first ++ rest ∧ part.Yields first (.ok value) ∧
        (f value).Yields rest o := by
  rcases Attempt.yields_bind.mp yields with ⟨_, stopped, rfl⟩ | ⟨_, value, _, rfl, came, rest⟩
  · obtain ⟨outcome, ended, told⟩ := Attempt.yields_explain.mp stopped
    cases outcome with
    | error stop => cases told; exact .inl ⟨stop, ended, rfl⟩
    | ok _ => cases told
  · exact .inr ⟨_, value, _, rfl, Attempt.of_explain_ok came, rest⟩

theorem of_mapOrFail_error {taken : Program Services (MemoryMap × Outcome Cause Unit)}
    {stop : Stop Cause} (yields : (mapOrFail taken).Yields h (.error stop)) :
    ∃ map, taken.Yields h (map, .error stop) := by
  obtain ⟨⟨map, outcome⟩, took, told⟩ := yields_mapOrFail.mp yields
  cases outcome with
  | error _ => cases told; exact ⟨map, took⟩
  | ok _ => cases told

theorem fromKernel_of_yields {frameBuffer : Screen.FrameBuffer}
    (yields : (fromKernel options map frameBuffer).Yields h o) :
    FromKernel options map frameBuffer h o := by
  rcases of_atStep_bind yields with ⟨stop, stopped, rfl⟩ | ⟨_, kernel, _, rfl, came, rest⟩
  · exact .notLoaded (Kernel.loading_of_yields stopped)
  have loaded := Kernel.loading_of_yields came
  obtain ⟨_, _, rfl, noted⟩ := Attempt.yields_lift_bind.mp rest
  obtain ⟨_, _, rfl, exiting⟩ := Attempt.yields_lift_bind.mp noted
  rcases of_atStep_bind exiting with ⟨stop, stopped, rfl⟩ | ⟨_, _, _, rfl, came, rest⟩
  · obtain ⟨later, left⟩ := of_mapOrFail_error stopped
    exact .left loaded _ _ (leaving_of_yields left)
  · obtain ⟨rfl, rfl⟩ := Attempt.yields_pure.mp rest
    rw [List.append_nil]
    exact .left loaded _ _ (leaving_of_yields (of_mapOrFail_ok came))

theorem fromScreen_of_yields (yields : (fromScreen options map).Yields h o) :
    FromScreen options map h o := by
  rcases of_atStep_bind yields with ⟨stop, stopped, rfl⟩ | ⟨_, mode, _, rfl, came, rest⟩
  · exact .notFound (Screen.finding_of_yields stopped)
  have found := Screen.finding_of_yields came
  cases described : Screen.describe mode with
  | error cause =>
    rw [described] at rest
    obtain ⟨rfl, rfl⟩ := Attempt.yields_fail.mp rest
    rw [List.append_nil]
    exact .notDescribed found described
  | ok frameBuffer =>
    rw [described] at rest
    have painted : (do
        if options.paintScreen then
          Screen.paint mode paintValue
        fromKernel options map frameBuffer : Attempt Failure Launch).Yields _ o := rest
    by_cases wanted : options.paintScreen = true
    · rw [if_pos wanted] at painted
      obtain ⟨_, _, rfl, onward⟩ := Attempt.yields_lift_bind.mp painted
      have way := FromScreen.described found described (fromKernel_of_yields onward)
      rw [painting, if_pos wanted] at way
      exact way
    · rw [if_neg wanted] at painted
      have way := FromScreen.described found described (fromKernel_of_yields painted)
      rw [painting, if_neg wanted] at way
      exact way

/-- Whatever the replies, an attempt goes one of these ways. -/
theorem preparing_of_yields {buffer : MemoryMap.Buffer}
    (yields : (prepare buffer options).Yields h o) : Preparing buffer options h o := by
  rw [prepare_eq] at yields
  rcases of_atStep_bind yields with ⟨stop, stopped, rfl⟩ | ⟨_, map, _, rfl, came, rest⟩
  · obtain ⟨map, taking⟩ := of_mapOrFail_error stopped
    exact .notTaken (MemoryMap.retaking_of_yields taking)
  have taken := MemoryMap.retaking_of_yields (of_mapOrFail_ok came)
  obtain ⟨_, _, rfl, noted⟩ := Attempt.yields_lift_bind.mp rest
  by_cases wanted : options.saveMemoryMap = true
  · rw [if_pos wanted] at noted
    rcases of_atStep_bind noted with ⟨stop, stopped, rfl⟩ | ⟨_, _, _, rfl, came, rest⟩
    · exact .notSaved taken _ wanted (MemoryMap.Listing.saving_of_yields taken.accepted stopped)
    · have saved := MemoryMap.Listing.saving_of_yields taken.accepted came
      obtain ⟨_, _, rfl, onward⟩ := Attempt.yields_lift_bind.mp rest
      exact .saved taken _ wanted saved _ (fromScreen_of_yields onward)
  · rw [if_neg wanted] at noted
    exact .notWanted taken _ (Bool.not_eq_true _ ▸ wanted) (fromScreen_of_yields noted)

end Boot

end EfiLoader
