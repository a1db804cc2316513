import EfiLoader.Services.Request

/-!
Programs over the services that end with a value, a cause of failure or a crash.
-/

namespace EfiLoader

/-- Ends at the first failure that is not taken up. -/
abbrev Attempt (ε : Type) := ExceptT (Stop ε) (Program Services)

namespace Attempt

variable {ε ε' α : Type}

def fail (cause : ε) : Attempt ε α := throw (.failed cause)

def crash : Attempt ε α := throw .crashed

def ofOutcome (outcome : Outcome ε α) : Attempt ε α := ExceptT.mk (pure outcome)

def ofExcept : Except ε α → Attempt ε α
  | .ok value => return value
  | .error cause => fail cause

/-- The reply of a service, success or status; a crash of the service is one of the attempt. -/
def reply (service : Program Services (Outcome Status α)) : Attempt ε (Except Status α) := do
  match ← (service : Program Services _) with
  | .ok value => return .ok value
  | .error (.failed status) => return .error status
  | .error .crashed => crash

/-- The value that a service replies; a failure is told as `cause` says. -/
def require (service : Program Services (Outcome Status α)) (cause : Status → ε) :
    Attempt ε α := do
  match ← reply service with
  | .ok value => return value
  | .error status => fail (cause status)

/-- Takes up a failure, so that what has to be done in any case can follow. -/
def settle (attempt : Attempt ε α) : Attempt ε (Except ε α) := ExceptT.mk do
  match ← attempt.run with
  | .ok value => return .ok (.ok value)
  | .error (.failed cause) => return .ok (.error cause)
  | .error .crashed => return .error .crashed

/-- The same attempt with its failure told in other terms. -/
def explain (attempt : Attempt ε α) (f : ε → ε') : Attempt ε' α :=
  ExceptT.mk do return Outcome.explain (← attempt.run) f

end Attempt

end EfiLoader
