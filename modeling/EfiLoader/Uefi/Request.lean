import EfiLoader.Screen.FrameBuffer
import EfiLoader.Serial.Register
import EfiLoader.Services.Request

/-!
What the loader asks of UEFI and of the machine: protocols and boot services one by one, device
registers, memory, and the call of the kernel. Any status but success counts as an error, except for
the memory map and the exit, where the loader looks at the status itself.
-/

namespace EfiLoader

namespace Uefi

open Services (MapReport Block)

/-- An open file or directory, by number. -/
abbrev File := Nat

inductive FileMode where
  | read
  | readWrite
  /-- Makes the file if there is none. -/
  | createReadWrite
  deriving DecidableEq, Repr

/-- The buffer's bytes after a call for the memory map, its status, and what it reported. -/
structure MapReply where
  written : Bytes
  status : Status
  report : MapReport

structure Revisions where
  firmware : UInt32
  uefi : UInt32
  deriving DecidableEq, Repr

inductive Request where
  | revisions
  /-- Whether the loader was started from a device. -/
  | openLoadedImage
  | openDevicePath
  | locateDevicePath
  | openFileSystem
  | openVolume
  | openFile (name : String) (mode : FileMode)
  | deleteFile (file : File)
  | closeFile (file : File)
  | getPosition (file : File)
  /-- To a place in the file, or to its end. -/
  | setPosition (file : File) (place : Option UInt64)
  | readFile (file : File) (count : Nat)
  | writeFile (file : File) (data : Bytes)
  | allocatePool (size : UInt64)
  | freePool (block : UInt64)
  | allocatePages (address : UInt64) (count : Nat)
  | memoryMap (buffer : Bytes)
  | exitBootServices (key : UInt64)
  /-- How many graphics devices there are. -/
  | locateGraphics
  | openGraphics
  /-- How many consoles there are. -/
  | locateConsole
  | openConsole
  | clearConsole
  | printConsole (text : String)
  | register (request : Serial.RegisterRequest)
  | store (address : UInt64) (data : Bytes)
  | fill (address : UInt64) (count : UInt64) (value : UInt8)
  /-- Calls the kernel, with the address of a description or without arguments. -/
  | enterKernel (entry : UInt64) (argument : Option Screen.FrameBuffer)
  deriving DecidableEq, Repr

@[reducible] def Reply : Request → Type
  | .revisions => Revisions
  | .openLoadedImage => Except Status Bool
  | .openDevicePath => Except Status Unit
  | .locateDevicePath => Except Status Unit
  | .openFileSystem => Except Status Unit
  | .openVolume => Except Status Unit
  | .openFile _ _ => Except Status File
  | .deleteFile _ => Except Status Unit
  | .closeFile _ => Unit
  | .getPosition _ => Except Status UInt64
  | .setPosition _ _ => Except Status Unit
  | .readFile _ _ => Except Status Bytes
  | .writeFile _ _ => Except Status Unit
  | .allocatePool _ => Except Status Block
  | .freePool _ => Except Status Unit
  | .allocatePages _ _ => Except Status UInt64
  | .memoryMap _ => MapReply
  | .exitBootServices _ => Status
  | .locateGraphics => Except Status Nat
  | .openGraphics => Except Status Screen.Mode
  | .locateConsole => Except Status Nat
  | .openConsole => Except Status Unit
  | .clearConsole => Except Status Unit
  | .printConsole _ => Except Status Unit
  | .register request => Serial.RegisterReply request
  | .store _ _ => Unit
  | .fill _ _ _ => Unit
  | .enterKernel _ _ => Unit

end Uefi

abbrev Uefi : Interface := ⟨Uefi.Request, Uefi.Reply⟩

namespace Uefi

def ask (request : Request) : Program Uefi (Reply request) := @Program.request Uefi request

/-- A program over the device registers of the machine. -/
def onRegisters {α : Type} (program : Program Registers α) : Program Uefi α :=
  program.run fun request => ask (.register request)

end Uefi

end EfiLoader
