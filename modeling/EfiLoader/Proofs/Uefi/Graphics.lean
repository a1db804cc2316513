import EfiLoader.Proofs.Boot.Frame
import EfiLoader.Proofs.Boot.Path
import EfiLoader.Proofs.Uefi.Serving

/-!
What becomes of a graphics device's mode. `mode_decides`: a mode with a frame buffer reaches the
boot attempt as the firmware reported it, and is then described to the kernel or refused by its
format; a mode that has none is not refused, the loader crashes over it.
-/

namespace EfiLoader

open Boot (Failure Launch Options)

variable {h h' : List (Exchange Services)} {mode : Screen.Mode}

namespace Services

/-- What the loader makes of a reported mode. -/
def told (mode : Screen.Mode) : Outcome Status (Option Screen.Mode) :=
  if mode.format = .bltOnly then .crash else .ok (some mode)

theorem told_eq_crash_iff : told mode = .crash ↔ mode.format = .bltOnly := by
  unfold told
  split <;> simp_all [Outcome.crash]

theorem told_ne_fail (mode : Screen.Mode) (status : Status) : told mode ≠ .fail status := by
  unfold told
  split <;> simp [Outcome.crash, Outcome.fail]

theorem told_eq_ok_iff {found : Option Screen.Mode} :
    told mode = .ok found ↔ found = some mode ∧ mode.format ≠ .bltOnly := by
  unfold told
  split <;> simp_all [Outcome.crash, eq_comm]

/-- The search for the screen ends as it does with that mode. -/
def Tells (mode : Screen.Mode) : (request : Request) → Reply request → Prop
  | .graphicsMode, reply => reply = told mode
  | _, _ => True

end Services

/-- A request for pages or an attempt to exit. -/
def Exchange.commits : Exchange Services → Bool
  | ⟨.allocatePages _ _, _⟩ | ⟨.exitBootServices _, _⟩ => true
  | _ => false

theorem MemoryMap.Retaking.uncommitted {map : MemoryMap}
    {result : MemoryMap × Outcome Boot.Cause Unit} (retaking : Retaking map h result) :
    ∀ e ∈ h, e.commits = false := by
  cases retaking <;> simp [Exchange.commits]

theorem MemoryMap.Listing.Saving.uncommitted {map : MemoryMap} {path : String}
    {o : Outcome Boot.Cause Unit} (saving : Saving map path h o) : ∀ e ∈ h, e.commits = false :=
  saving.forall_mem (fun _ => rfl) (fun _ _ _ => rfl) (fun _ => rfl) fun _ => rfl

theorem Kernel.Loading.opens {path : String} {o : Outcome Boot.Cause Loaded}
    (loading : Loading path h o) : ∃ e ∈ h, e.request = .openFile path := by
  cases loading <;> exact ⟨_, List.mem_cons_self, rfl⟩

namespace Boot

variable {options : Options} {map : MemoryMap} {o : Outcome Failure Launch}

/-- How an attempt goes on with a mode, by its format. -/
inductive ByFormat (mode : Screen.Mode) : List (Exchange Services) → Outcome Failure Launch → Prop
  | crashed {h : List (Exchange Services)} (format : mode.format = .bltOnly)
      (uncommitted : ∀ e ∈ h, e.commits = false) : ByFormat mode h .crash
  | refused {h : List (Exchange Services)} (format : mode.format = .bitmask)
      (uncommitted : ∀ e ∈ h, e.commits = false) :
      ByFormat mode h (.fail ⟨.describeFrameBuffer, .unsupportedPixelFormat mode.format⟩)
  | wentOn {h : List (Exchange Services)} {o : Outcome Failure Launch}
      (supported : IsSupported mode)
      (opens : ∃ e ∈ h, e.request = .openFile kernelPath)
      (later : ∀ failure, o = .fail failure →
        failure.step = .loadKernel ∨ failure.step = .exitBootServices) :
      ByFormat mode h o

theorem ByFormat.append (first : ∀ e ∈ h, e.commits = false) (rest : ByFormat mode h' o) :
    ByFormat mode (h ++ h') o := by
  cases rest with
  | crashed format uncommitted =>
    exact .crashed format (List.forall_mem_append.mpr ⟨first, uncommitted⟩)
  | refused format uncommitted =>
    exact .refused format (List.forall_mem_append.mpr ⟨first, uncommitted⟩)
  | wentOn supported opens later =>
    obtain ⟨e, he, opens⟩ := opens
    exact .wentOn supported ⟨e, List.mem_append_right _ he, opens⟩ later

theorem ByFormat.of_bltOnly (way : ByFormat mode h o) (format : mode.format = .bltOnly) :
    o = .crash ∧ ∀ e ∈ h, e.commits = false := by
  cases way with
  | crashed _ uncommitted => exact ⟨rfl, uncommitted⟩
  | refused other => cases format.symm.trans other
  | wentOn supported =>
    rcases supported with other | other
    all_goals cases format.symm.trans other

theorem FromKernel.opens {frameBuffer : Screen.FrameBuffer}
    (way : FromKernel options map frameBuffer h o) : ∃ e ∈ h, e.request = .openFile kernelPath := by
  cases way with
  | notLoaded stopped => exact stopped.opens
  | left loaded =>
    obtain ⟨e, he, opens⟩ := loaded.opens
    exact ⟨e, List.mem_append_left _ he, opens⟩

theorem FromKernel.step {frameBuffer : Screen.FrameBuffer} {failure : Failure}
    (way : FromKernel options map frameBuffer h (.fail failure)) :
    failure.step = .loadKernel ∨ failure.step = .exitBootServices := by
  generalize ended : Outcome.fail failure = o at way
  cases way with
  | @notLoaded _ stop stopped =>
    cases stop <;> cases ended
    exact .inl rfl
  | @left _ _ _ _ result =>
    rcases result with (cause | _) | _ <;> cases ended
    exact .inr rfl

theorem FromScreen.byFormat (way : FromScreen options map h o)
    (tells : ∀ e ∈ h, Services.Tells mode e.request e.reply) : ByFormat mode h o := by
  cases way with
  | notFound stopped =>
    cases stopped with
    | crashed =>
      have reply : Outcome.crash = Services.told mode := tells _ List.mem_cons_self
      exact .crashed (Services.told_eq_crash_iff.mp reply.symm) (by simp [Exchange.commits])
    | failed =>
      have reply : Outcome.fail _ = Services.told mode := tells _ List.mem_cons_self
      exact absurd reply.symm (Services.told_ne_fail mode _)
    | noDevice =>
      have reply : .ok none = Services.told mode := tells _ List.mem_cons_self
      cases (Services.told_eq_ok_iff.mp reply.symm).1
  | @notDescribed _ shown cause found unknown =>
    cases found with
    | found _ first second =>
      have reply : .ok (some shown) = Services.told mode := tells _ List.mem_cons_self
      obtain ⟨same, linear⟩ := Services.told_eq_ok_iff.mp reply.symm
      cases same
      rcases describe_cases mode with ⟨_, _, described⟩ | ⟨other, told⟩
      · cases unknown.symm.trans described
      · cases unknown.symm.trans told
        refine .refused ?_ (by simp [Exchange.commits])
        cases format : mode.format with
        | rgb => exact absurd (.inl format) other
        | bgr => exact absurd (.inr format) other
        | bitmask => rfl
        | bltOnly => exact absurd format linear
  | @described _ _ shown _ _ found described onward =>
    cases found with
    | found _ first second =>
      have reply : .ok (some shown) = Services.told mode := tells _ List.mem_cons_self
      cases (Services.told_eq_ok_iff.mp reply.symm).1
      obtain ⟨e, he, opens⟩ := onward.opens
      rcases describe_cases mode with ⟨supported, _⟩ | ⟨_, unknown⟩
      · refine .wentOn supported ⟨e, by simp [he], opens⟩ ?_
        rintro failure rfl
        exact onward.step
      · cases unknown.symm.trans described

/-- The screen is looked for after calls that do not commit the attempt. -/
theorem Preparing.byFormat {buffer : MemoryMap.Buffer} (way : Preparing buffer options h o)
    (searched : ∃ e ∈ h, e.request = .graphicsMode)
    (tells : ∀ e ∈ h, Services.Tells mode e.request e.reply) : ByFormat mode h o := by
  obtain ⟨⟨request, reply⟩, hsearch, searches⟩ := searched
  cases searches
  have noisy : Exchange.isQuiet ⟨.graphicsMode, reply⟩ ≠ true := nofun
  cases way with
  | notTaken stopped => exact absurd ((stopped.isPlain _ hsearch).1) noisy
  | notSaved taken record wanted stopped =>
    rcases List.mem_append.mp hsearch with hsearch | hsearch
    · exact absurd ((taken.isPlain _ hsearch).1) noisy
    · rcases List.mem_cons.mp hsearch with other | hsearch
      · cases other
      · exact absurd ((stopped.isPlain _ hsearch).1) noisy
  | @saved taking saving rest _ _ taken record wanted saved notice onward =>
    have uncommitted : ∀ e ∈ taking ++ ⟨.log record, ()⟩ :: (saving ++ [⟨.log notice, ()⟩]),
        Exchange.commits e = false := by
      simp only [List.forall_mem_append, List.forall_mem_cons]
      exact ⟨taken.uncommitted, rfl, saved.uncommitted, rfl, nofun⟩
    have way := onward.byFormat fun e he => tells e (by simp [he])
    simpa using ByFormat.append uncommitted way
  | @notWanted taking rest _ _ taken record unwanted onward =>
    have uncommitted : ∀ e ∈ taking ++ [⟨.log record, ()⟩], Exchange.commits e = false := by
      simp only [List.forall_mem_append, List.forall_mem_cons]
      exact ⟨taken.uncommitted, rfl, nofun⟩
    have way := onward.byFormat fun e he => tells e (by simp [he])
    simpa using ByFormat.append uncommitted way

end Boot

namespace Uefi

/-- The firmware has a graphics device, the first of them in that mode. -/
def Reports (mode : Screen.Mode) : (request : Request) → Reply request → Prop
  | .locateGraphics, reply => ∃ others, reply = .ok (others + 1)
  | .openGraphics, reply => reply = .ok mode
  | _, _ => True

variable {σ : Type}

/-- What the loader makes of the reply about the device that it opened. -/
def judge : Except Status Screen.Mode → Outcome Status (Option Screen.Mode)
  | .error status => .fail status
  | .ok mode => Services.told mode

theorem graphicsMode_eq (loader : LoaderState) :
    graphicsMode.run.run loader = @Program.ask Uefi _ .locateGraphics fun
      | .error status => .done (if status = .notFound then .ok none else .fail status, loader)
      | .ok 0 => .done (.ok none, loader)
      | .ok (_ + 1) =>
        @Program.ask Uefi _ .openGraphics fun opened => .done (judge opened, loader) := by
  refine congrArg (@Program.ask Uefi _ .locateGraphics) (funext fun located => ?_)
  rcases located with status | _ | others
  · by_cases absent : status = .notFound
    · subst absent
      rfl
    · change StateT.run (ExceptT.run
        (if status = .notFound then pure none else Call.fail status : Call _)) loader =
          .done (if status = .notFound then .ok none else Outcome.fail status, loader)
      rw [if_neg absent, if_neg absent]
      rfl
  · rfl
  · refine congrArg (@Program.ask Uefi _ .openGraphics) (funext fun opened => ?_)
    rcases opened with status | mode
    · rfl
    · change StateT.run (ExceptT.run (do
        if mode.format = .bltOnly then throw .crashed
        return some mode : Call (Option Screen.Mode))) loader = .done (Services.told mode, loader)
      unfold Services.told
      by_cases blt : mode.format = .bltOnly
      · rw [if_pos blt, if_pos blt]
        rfl
      · rw [if_neg blt, if_neg blt]
        rfl

theorem graphicsMode_of_reports {machine : Machine Uefi σ}
    (reports : ∀ request state, Reports mode request (machine request state).1)
    (loader : LoaderState) (state : σ) :
    ((graphicsMode.run.run loader).run machine state).1 = (Services.told mode, loader) := by
  obtain ⟨others, located⟩ := reports .locateGraphics state
  have opened : (machine .openGraphics (machine .locateGraphics state).2).1 = .ok mode :=
    reports .openGraphics _
  rw [graphicsMode_eq]
  simp only [Program.run]
  change (Program.run machine (match (machine .locateGraphics state).1 with
    | .error status => _
    | .ok 0 => _
    | .ok (_ + 1) => _) _).1 = _
  rw [located]
  change (Program.run machine (.done (judge (machine .openGraphics _).1, loader)) _).1 = _
  rw [opened]
  rfl

/-- **Whether a reported mode reaches the boot attempt, and how that goes on, is decided by its
format alone.** A mode without a frame buffer is the only one that is not handed on, and in place of
a failure to describe it there is a crash, in the attempt and in the whole loader. -/
theorem mode_decides {machine : Machine Uefi σ}
    (reports : ∀ request state, Reports mode request (machine request state).1)
    (options : Options) (loader : LoaderState) (state : σ) :
    ((graphicsMode.run.run loader).run machine state).1 = (Services.told mode, loader) ∧
    let attempt := Boot.prepare mapBuffer options
    let h := attempt.history (served machine) (loader, state)
    let o := attempt.outcome (served machine) (loader, state)
    (((boot options).run loader).run machine state).1.1 =
      (if o = .crash then .crashed else .halted) ∧
    ((∃ e ∈ h, e.request = .graphicsMode) → Boot.ByFormat mode h o) := by
  refine ⟨graphicsMode_of_reports reports loader state, boot_ends machine options loader state, ?_⟩
  intro searched
  have tells : ∀ e ∈ (Boot.prepare mapBuffer options).history (served machine) (loader, state),
      Services.Tells mode e.request e.reply := by
    refine Program.forall_mem_history (fun request (loader, state) => ?_) _ _
    cases request with
    | graphicsMode => exact congrArg Prod.fst (graphicsMode_of_reports reports loader state)
    | _ => trivial
  have way := Boot.preparing_of_yields
    ((Boot.prepare mapBuffer options).yields_outcome (served machine) (loader, state))
  exact way.byFormat searched tells

/-- Firmware with nothing but a memory map and a graphics device in that mode. -/
def displaying (mode : Screen.Mode) : Machine Uefi Unit := fun request => pure <|
  match request with
  | .revisions => ⟨0x10000, 0x20046⟩
  | .memoryMap _ => ⟨[], .success, ⟨0, 1, 40, 1⟩⟩
  | .exitBootServices _ => .success
  | .locateGraphics => .ok 1
  | .openGraphics => .ok mode
  | .closeFile _ | .store _ _ | .fill _ _ _ | .enterKernel _ _ => ()
  | .register (.write _ _) => ()
  | .register (.read _) => (0 : UInt8)
  | .register (.await _) => ⟨[0], 0x20, by simp, by decide⟩
  | .openLoadedImage | .openDevicePath | .locateDevicePath | .openFileSystem | .openVolume
  | .openFile _ _ | .deleteFile _ | .getPosition _ | .setPosition _ _ | .readFile _ _
  | .writeFile _ _ | .allocatePool _ | .freePool _ | .allocatePages _ _ | .locateConsole
  | .openConsole | .clearConsole | .printConsole _ => .error .notFound

theorem displaying_reports (mode : Screen.Mode) (request : Request) (state : Unit) :
    Reports mode request (displaying mode request state).1 := by
  cases request with
  | locateGraphics => exact ⟨0, rfl⟩
  | openGraphics => rfl
  | _ => trivial

theorem displaying_bltOnly_crashes :
    let mode : Screen.Mode := ⟨0, 0, 800, 600, 800, .bltOnly⟩
    let options : Options := { saveMemoryMap := false }
    ((graphicsMode.run.run {}).run (displaying mode) ()).1 = (Outcome.crash, {}) ∧
    (((boot options).run {}).run (displaying mode) ()).1.1 = .crashed ∧
    ∀ e ∈ (Boot.prepare mapBuffer options).history (served (displaying mode)) ({}, ()),
      e.commits = false := by
  intro mode options
  obtain ⟨told, ends, byFormat⟩ := mode_decides (displaying_reports mode) options {} ()
  have asked : Services.Request.graphicsMode ∈
      ((Boot.prepare mapBuffer options).history (served (displaying mode)) ({}, ())).map
        Exchange.request := by
    decide +kernel
  have way := byFormat (List.mem_map.mp asked)
  obtain ⟨crash, uncommitted⟩ := way.of_bltOnly rfl
  rw [if_pos crash] at ends
  exact ⟨told, ends, uncommitted⟩

end Uefi

end EfiLoader
