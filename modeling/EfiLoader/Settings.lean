import EfiLoader.Ini.Reader
import EfiLoader.Log.Device
import EfiLoader.Log.Level

/-!
What the settings file of the loader may say. Unknown keys count for nothing, a repeated key
replaces what it said before, and a syntax error ends the reading but keeps the pairs before it.
-/

namespace EfiLoader

open Log (Device Level)

structure Settings where
  logDevice : Device := .console
  logLevel : Level := .info
  /-- Log records name the place in the program that made them. -/
  logSourcePath : Bool := false
  /-- The memory map goes to a file on the boot volume. -/
  saveMemoryMap : Bool := true
  /-- The screen is filled before the kernel starts. -/
  paintScreen : Bool := true
  /-- The kernel is called without the description of the screen. -/
  bareEntry : Bool := false
  deriving DecidableEq, Repr

namespace Settings

def isOn (value : Bytes) : Bool :=
  [Bytes.utf8 "yes", Bytes.utf8 "on", Bytes.utf8 "1", Bytes.utf8 "true"].contains value

def logDevice? (value : Bytes) : Option Device :=
  [(Bytes.utf8 "null", Device.null), (Bytes.utf8 "com1", .com1), (Bytes.utf8 "com2", .com2),
   (Bytes.utf8 "stdout", .console)].lookup value

def logLevel? (value : Bytes) : Option Level :=
  [(Bytes.utf8 "info", Level.info), (Bytes.utf8 "warn", .warn), (Bytes.utf8 "error", .error),
   (Bytes.utf8 "debug", .debug), (Bytes.utf8 "trace", .trace)].lookup value

def bareChoice? (value : Bytes) : Option Bool :=
  [(Bytes.utf8 "frame_buffer", false), (Bytes.utf8 "none", true)].lookup value

/-- A value that is not known leaves a choice as it was, and turns a switch off. -/
def apply (settings : Settings) (pair : Ini.Pair) : Settings :=
  let value := pair.value
  if pair.key = Bytes.utf8 "log_device" then
    { settings with logDevice := (logDevice? value).getD settings.logDevice }
  else if pair.key = Bytes.utf8 "log_level" then
    { settings with logLevel := (logLevel? value).getD settings.logLevel }
  else if pair.key = Bytes.utf8 "log_source_path" then
    { settings with logSourcePath := isOn value }
  else if pair.key = Bytes.utf8 "save_memory_map" then
    { settings with saveMemoryMap := isOn value }
  else if pair.key = Bytes.utf8 "paint_screen" then
    { settings with paintScreen := isOn value }
  else if pair.key = Bytes.utf8 "entry_args" then
    { settings with bareEntry := (bareChoice? value).getD settings.bareEntry }
  else settings

def parse (text : Bytes) : Settings :=
  (Ini.Reader.ofBytes text).pairs.1.foldl apply {}

end Settings

end EfiLoader
