/-!
How a computation ends: with a value, with a failure that it reports, or in a crash. A crash is a
check that did not hold (a sum past the word, a range outside its buffer); nothing runs after it.
-/

namespace EfiLoader

inductive Stop (ε : Type) where
  | failed (cause : ε)
  | crashed
  deriving DecidableEq, Repr

abbrev Outcome (ε α : Type) := Except (Stop ε) α

namespace Stop

variable {ε ε' : Type}

def map (f : ε → ε') : Stop ε → Stop ε'
  | failed cause => failed (f cause)
  | crashed => crashed

end Stop

namespace Outcome

variable {ε ε' α : Type}

instance [DecidableEq ε] [DecidableEq α] : DecidableEq (Outcome ε α)
  | .ok a, .ok b => decidable_of_iff (a = b) ⟨congrArg _, Except.ok.inj⟩
  | .error a, .error b => decidable_of_iff (a = b) ⟨congrArg _, Except.error.inj⟩
  | .ok _, .error _ => .isFalse nofun
  | .error _, .ok _ => .isFalse nofun

def fail (cause : ε) : Outcome ε α := .error (.failed cause)

def crash : Outcome ε α := .error .crashed

/-- The same outcome with its failure told in other terms. -/
def explain (outcome : Outcome ε α) (f : ε → ε') : Outcome ε' α :=
  Except.mapError (Stop.map f) outcome

end Outcome

end EfiLoader
