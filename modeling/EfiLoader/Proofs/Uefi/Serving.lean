import EfiLoader.Proofs.Attempts
import EfiLoader.Uefi.Loader

/-!
The services of a boot attempt as UEFI and the loader's own state serve them together. An attempt on
UEFI is an attempt on this one machine (`run_served`), so whatever holds of attempts on every
machine holds of the loader; and the loader ends as its attempt did (`boot_ends`).
-/

namespace EfiLoader.Uefi

variable {α σ : Type}

/-- UEFI and the state of the loader, as one machine that serves boot attempts. -/
def served (machine : Machine Uefi σ) : Machine Services (LoaderState × σ) :=
  fun request (loader, state) =>
    let ((reply, loader), state) := ((answer request).run loader).run machine state
    (reply, loader, state)

theorem run_served (machine : Machine Uefi σ) (program : Program Services α) (loader : LoaderState)
    (state : σ) :
    ((program.run answer).run loader).run machine state =
      let (value, loader, state) := program.run (served machine) (loader, state)
      ((value, loader), state) := by
  induction program generalizing loader state with
  | done value => rfl
  | ask request next ih =>
    have asked : ((Program.ask request next).run answer).run loader =
        (answer request).run loader >>= fun answered =>
          ((next answered.1).run answer).run answered.2 := rfl
    rw [asked, Program.run_bind]
    exact ih _ _ _

/-- What the loader does once the attempt has ended. -/
def conclude : Outcome Boot.Failure Boot.Launch → Loader End
  | .ok launch => do
    ask (.enterKernel launch.entry (match launch.entryCall with
      | .withFrameBuffer => some launch.frameBuffer
      | .bare => none))
    return .halted
  | .error (.failed failure) => do
    tell .error failure.message
    return .halted
  | .error .crashed => return .crashed

theorem boot_eq (options : Boot.Options) :
    boot options = (Boot.prepare mapBuffer options).run.run answer >>= conclude := rfl

/-- What the loader does once it has its settings. -/
def startWith (settings : Settings) : Loader End := do
  match ← Logger.setUp settings with
  | .error .crashed => return .crashed
  | _ =>
    greet
    boot (.ofSettings settings)

theorem start_eq :
    start = settings >>= fun
      | .error _ => pure .crashed
      | .ok settings => startWith settings := rfl

theorem conclude_ends (machine : Machine Uefi σ) (o : Outcome Boot.Failure Boot.Launch)
    (loader : LoaderState) (state : σ) :
    (((conclude o).run loader).run machine state).1.1 =
      if o = .crash then .crashed else .halted := by
  rcases o with (failure | _) | launch
  · have told : (conclude (.error (.failed failure))).run loader =
        (tell .error failure.message).run loader >>= fun told => pure (.halted, told.2) := rfl
    rw [told, Program.run_bind]
    rfl
  · rfl
  · rfl

/-- The processor is parked unless the attempt crashed. -/
theorem boot_ends (machine : Machine Uefi σ) (options : Boot.Options) (loader : LoaderState)
    (state : σ) :
    (((boot options).run loader).run machine state).1.1 =
      if (Boot.prepare mapBuffer options).outcome (served machine) (loader, state) = .crash
      then .crashed else .halted := by
  have split : (boot options).run loader =
      ((Boot.prepare mapBuffer options).run.run answer).run loader >>= fun prepared =>
        (conclude prepared.1).run prepared.2 := by
    rw [boot_eq]
    rfl
  rw [split, Program.run_bind]
  change (((conclude _).run _).run machine _).1.1 = _
  rw [run_served]
  exact conclude_ends machine _ _ _

end EfiLoader.Uefi
