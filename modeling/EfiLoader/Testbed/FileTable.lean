import EfiLoader.Services.Request
import EfiLoader.Testbed.Volume

/-!
Files together with the places where they are open. Open files share the contents of their path, and
each has a position of its own.
-/

namespace EfiLoader.Testbed

/-- An open file: its path and where the next byte is read or written. -/
structure Handle where
  path : String
  position : Nat
  deriving DecidableEq, Repr

structure FileTable where
  volume : Volume := []
  /-- By number; closed files keep theirs. -/
  handles : List Handle := []
  deriving DecidableEq, Repr

namespace FileTable

open Services (File)

def contains (table : FileTable) (path : String) : Bool := (table.volume.contents? path).isSome

/-- The contents of a file, nothing if there is none. -/
def contents (table : FileTable) (path : String) : Bytes :=
  (table.volume.contents? path).getD []

def put (table : FileTable) (path : String) (contents : Bytes) : FileTable :=
  { table with volume := table.volume.put path contents }

def handle (table : FileTable) (file : File) : Handle := table.handles[file]?.getD ⟨"", 0⟩

/-- One more open file, at its start. -/
def openAt (table : FileTable) (path : String) : File × FileTable :=
  (table.handles.length, { table with handles := table.handles ++ [⟨path, 0⟩] })

/-- An open file's contents, also before its position. -/
def whole (table : FileTable) (file : File) : Bytes := table.contents (table.handle file).path

def advance (table : FileTable) (file : File) (count : Nat) : FileTable :=
  { table with
    handles := table.handles.modify file fun h => { h with position := h.position + count } }

/-- Takes at most `count` bytes from the position on. -/
def read (table : FileTable) (file : File) (count : Nat) : Bytes × FileTable :=
  let data := (table.whole file).slice (table.handle file).position count
  (data, table.advance file data.length)

/-- Cuts the file at the position and appends. -/
def write (table : FileTable) (file : File) (data : Bytes) : FileTable :=
  let handle := table.handle file
  (table.put handle.path ((table.whole file).take handle.position ++ data)).advance file data.length

end FileTable

end EfiLoader.Testbed
