import EfiLoader.Testbed.UefiMachine

/-!
Test sessions on the log of the loader, with a system table or without.
-/

namespace EfiLoader.Testbed

inductive LogStep where
  | setUp (settings : Settings)
  | log (record : Log.Record)
  /-- Whether there is a logger; there is nothing to flush. -/
  | flush
  /-- Takes the system table away. -/
  | exit

inductive LogResult where
  | done
  | told (answer : Bool)
  | failed (error : Uefi.Logger.SetUpError)
  | crashed

structure LogSession where
  machine : UefiMachine
  loader : Uefi.LoaderState

structure LogReport where
  result : LogResult
  maxLevel : Option Log.Level
  accesses : List RegisterAccess
  sent : Bytes
  printed : String
  clears : Nat

namespace LogSession

def perform {α : Type} (part : Uefi.Loader α) : StateM LogSession α :=
  modifyGet fun session =>
    let ((value, loader), machine) := (UefiMachine.perform part session.loader).run session.machine
    (value, ⟨machine, loader⟩)

def step : LogStep → StateM LogSession LogResult
  | .setUp settings => do
    match ← perform (Uefi.Logger.setUp settings) with
    | .ok () => return .done
    | .error (.failed error) => return .failed error
    | .error .crashed => return .crashed
  | .log record => do return .told (← perform (Uefi.log record))
  | .flush => do return .told (← get).loader.installed
  | .exit => do
    modify fun session => { session with loader := { session.loader with systemTable := false } }
    return .done

/-- Forgets what the machine has put out so far. -/
def clean (machine : UefiMachine) : UefiMachine :=
  { machine with printed := [], clears := 0, uarts := machine.uarts.forget }

def play (steps : List LogStep) : StateM LogSession (List LogReport) :=
  steps.mapM fun s => do
    modify fun session => { session with machine := clean session.machine }
    let result ← step s
    let ⟨machine, loader⟩ ← get
    return {
      result
      maxLevel := loader.maxLevel
      accesses := machine.uarts.accesses.reverse
      sent := machine.uarts.sent.reverse
      printed := String.join machine.printed.reverse
      clears := machine.clears }

end LogSession

end EfiLoader.Testbed
