import EfiLoader.Bytes
import EfiLoader.Log.Record
import EfiLoader.Outcome
import EfiLoader.Program
import EfiLoader.Screen.Mode
import EfiLoader.Status

/-!
What a boot attempt asks of its surroundings: the boot services of the firmware, stores to memory,
and the log.
-/

namespace EfiLoader.Services

/-- An open file, by number. -/
abbrev File := Nat

/-- What a memory map reports besides its descriptors. -/
structure MapReport where
  /-- Bytes taken by descriptors. -/
  size : UInt64
  /-- Accepted at the exit as long as nothing was allocated or freed since. -/
  key : UInt64
  /-- Bytes from one descriptor to the next. -/
  stride : UInt64
  version : UInt32
  deriving DecidableEq, Repr

/-- The buffer's bytes after the call, as many as were written, and how the call ended. -/
structure MapReply where
  written : Bytes
  outcome : Outcome Status MapReport

/-- A pool block and the bytes that it happens to hold. -/
structure Block where
  address : UInt64
  contents : Bytes

/-- The number of bytes that were read, as reported, and the bytes. -/
structure ReadReply where
  count : UInt64
  data : Bytes

inductive Request where
  | memoryMap (buffer : Bytes)
  | openFile (path : String)
  | createFile (path : String)
  | fileSize (file : File)
  | readFile (file : File) (count : UInt64)
  | writeFile (file : File) (data : Bytes)
  | closeFile (file : File)
  | allocatePool (size : UInt64)
  | freePool (block : UInt64)
  | allocatePages (address : UInt64) (count : Nat)
  | graphicsMode
  | exitBootServices (key : UInt64)
  | store (address : UInt64) (data : Bytes)
  | fill (address : UInt64) (count : UInt64) (value : UInt8)
  | log (record : Log.Record)
  deriving DecidableEq, Repr

@[reducible] def Reply : Request → Type
  | .memoryMap _ => MapReply
  | .openFile _ => Outcome Status File
  | .createFile _ => Outcome Status File
  | .fileSize _ => Outcome Status UInt64
  | .readFile _ _ => Outcome Status ReadReply
  | .writeFile _ _ => Outcome Status Unit
  | .closeFile _ => Unit
  | .allocatePool _ => Outcome Status Block
  | .freePool _ => Outcome Status Unit
  | .allocatePages _ _ => Outcome Status UInt64
  | .graphicsMode => Outcome Status (Option Screen.Mode)
  | .exitBootServices _ => Outcome Status Unit
  | .store _ _ => Unit
  | .fill _ _ _ => Unit
  | .log _ => Unit

end Services

/-- The services of one boot attempt. -/
abbrev Services : Interface := ⟨Services.Request, Services.Reply⟩

namespace Services

def ask (request : Request) : Program Services (Reply request) := @Program.request Services request

/-- Fills the buffer with the current memory map. -/
def memoryMap (buffer : Bytes) : Program Services MapReply := ask (.memoryMap buffer)

def openFile (path : String) : Program Services (Outcome Status File) :=
  ask (.openFile path)

/-- An empty file to write to, in place of any file of that path. -/
def createFile (path : String) : Program Services (Outcome Status File) :=
  ask (.createFile path)

def fileSize (file : File) : Program Services (Outcome Status UInt64) := ask (.fileSize file)

/-- Up to `count` bytes from where the file stands. -/
def readFile (file : File) (count : UInt64) : Program Services (Outcome Status ReadReply) :=
  ask (.readFile file count)

def writeFile (file : File) (data : Bytes) : Program Services (Outcome Status Unit) :=
  ask (.writeFile file data)

def closeFile (file : File) : Program Services Unit := ask (.closeFile file)

def allocatePool (size : UInt64) : Program Services (Outcome Status Block) :=
  ask (.allocatePool size)

def freePool (block : UInt64) : Program Services (Outcome Status Unit) :=
  ask (.freePool block)

/-- Pages starting exactly at `address`; the reply is where their memory is reached. -/
def allocatePages (address : UInt64) (count : Nat) : Program Services (Outcome Status UInt64) :=
  ask (.allocatePages address count)

/-- The mode of the first graphics device, nothing if there is none. -/
def graphicsMode : Program Services (Outcome Status (Option Screen.Mode)) := ask .graphicsMode

def exitBootServices (key : UInt64) : Program Services (Outcome Status Unit) :=
  ask (.exitBootServices key)

def store (address : UInt64) (data : Bytes) : Program Services Unit :=
  ask (.store address data)

/-- Stores `value` to `count` bytes of memory. -/
def fill (address count : UInt64) (value : UInt8) : Program Services Unit :=
  ask (.fill address count value)

def log (level : Log.Level) (target text : String) : Program Services Unit :=
  ask (.log { level, target, text })

end Services

end EfiLoader
