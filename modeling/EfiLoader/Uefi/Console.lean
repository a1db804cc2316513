import EfiLoader.Uefi.Request

/-!
Text on the UEFI console. The console takes 16-bit characters, in strings that end at a NUL; text is
handed over in chunks, with a carriage return before every line feed.
-/

namespace EfiLoader.Uefi.Console

/-- Characters in a chunk. -/
def chunkSize : Nat := 128

/-- Characters that the console has. -/
def isKnown (c : Char) : Bool := c.toNat < 0x10000

/-- What a text looks like on the console, up to the first character that it does not have. -/
def characters (text : String) : List Char :=
  (text.toList.takeWhile isKnown).flatMap fun c => if c = '\n' then ['\r', '\n'] else [c]

def isWhole (text : String) : Bool := text.toList.all isKnown

/-- Cuts off full chunks; the last chunk is not full. -/
def chunks (cs : List Char) : List (List Char) × List Char :=
  if chunkSize ≤ cs.length then
    let (full, last) := chunks (cs.drop chunkSize)
    (cs.take chunkSize :: full, last)
  else ([], cs)
termination_by cs.length
decreasing_by
  have : chunkSize ≤ cs.length := by assumption
  simp [chunkSize] at this ⊢
  omega

/-- The chunks to hand over. The last one is held back until the text is complete. -/
def handedOver (text : String) : List (List Char) :=
  let (full, last) := chunks (characters text)
  if isWhole text then full ++ [last] else full

/-- Hands chunks over until one is refused, and tells whether none was. A NUL inside a chunk is
refused. -/
def printChunks : List (List Char) → Program Uefi Bool
  | [] => return true
  | chunk :: rest => do
    if '\x00' ∈ chunk then return false
    match ← ask (.printConsole (String.ofList chunk)) with
    | .error _ => return false
    | .ok () => printChunks rest

/-- Prints a piece of text, and tells whether all of it was taken. -/
def printPiece (text : String) : Program Uefi Bool := do
  let taken ← printChunks (handedOver text)
  return taken && isWhole text

/-- Prints pieces up to the first that is refused. -/
def printPieces : List String → Program Uefi Unit
  | [] => return ()
  | piece :: rest => do
    if ← printPiece piece then printPieces rest

/-- Opens the first console, if there is one. -/
def openFirst : Program Uefi Bool := do
  match ← ask .locateConsole with
  | .error _ => return false
  | .ok 0 => return false
  | .ok _ =>
    match ← ask .openConsole with
    | .error _ => return false
    | .ok () => return true

end EfiLoader.Uefi.Console
