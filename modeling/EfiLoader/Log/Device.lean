/-!
Where log records can go.
-/

namespace EfiLoader.Log

inductive Device where
  | null
  | console
  | com1
  | com2
  deriving DecidableEq, Repr

end EfiLoader.Log
