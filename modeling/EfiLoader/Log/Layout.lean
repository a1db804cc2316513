import EfiLoader.Log.Record
import EfiLoader.Numeral

/-!
Records as lines of text: `[LEVEL  ][target] message`, the place in the program behind the target if
it is wanted.
-/

namespace EfiLoader.Log

/-- Columns for the level. -/
def levelWidth : Nat := 7

/-- The level's name, then the spaces that fill its columns, one by one. -/
def levelPieces (level : Level) : List String :=
  level.name :: List.replicate (levelWidth - level.name.length) " "

namespace Record

/-- The parts of a line, each in the pieces that it is handed over in. A device that refuses a piece
loses the rest of its part, and goes on with the next part. A message is one piece, also where the
caller puts it together of several. -/
def parts (record : Record) (sourcePath : Bool) : List (List String) :=
  ("[" :: levelPieces record.level ++ ["][", record.target])
    :: (if sourcePath then [[" ", record.file, "@", Numeral.decimal record.line]] else [])
    ++ [["] ", record.text, "\n"]]

def rendered (record : Record) (sourcePath : Bool) : String :=
  String.join ((record.parts sourcePath).map String.join)

end Record

end EfiLoader.Log
