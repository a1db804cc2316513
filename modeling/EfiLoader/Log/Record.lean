import EfiLoader.Log.Level

/-!
What one log call hands over.
-/

namespace EfiLoader.Log

structure Record where
  level : Level
  /-- The part of the program that speaks. -/
  target : String
  text : String
  file : String := ""
  line : Nat := 0
  deriving DecidableEq, Repr

end EfiLoader.Log
