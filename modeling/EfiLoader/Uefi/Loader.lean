import EfiLoader.Boot.Launch
import EfiLoader.Uefi.BootServices

/-!
The loader as UEFI starts it: settings from the boot volume, log, boot attempt, kernel. It never
returns to the firmware.
-/

namespace EfiLoader.Uefi

def loaderTarget : String := "boot_loader"

def settingsName : String := "kumquat-boot.ini"

/-- Only so many bytes of the settings file are read. -/
def settingsLimit : Nat := 4096

/-- The settings file's first bytes; what cannot be read counts as empty. -/
def readSettings : Call Bytes := do
  let file ← openRegular settingsName .read
  let data ← (readFile file settingsLimit).settle
  ask (.closeFile file)
  return data.toOption.getD []

/-- The settings, or their defaults if there is no settings file. -/
def settings : Loader (Outcome Status Settings) := do
  match ← readSettings.run with
  | .ok text => return .ok (Settings.parse text)
  | .error (.failed _) => return .ok {}
  | .error .crashed => return .crash

/-- Before the second major version, two digits of the minor number; from then on its tens, and its
ones if there are any. -/
def revisionText (revision : UInt32) : String :=
  let major := revision.toNat / 0x10000
  let minor := revision.toNat % 0x10000
  let rest :=
    if major < 2 then Numeral.zeroDecimal 2 minor
    else if minor % 10 = 0 then Numeral.decimal (minor / 10)
    else Numeral.decimal (minor / 10) ++ "." ++ Numeral.decimal (minor % 10)
  Numeral.decimal major ++ "." ++ rest

def tell (level : Log.Level) (text : String) : Loader Unit := do
  let _ ← log { level, target := loaderTarget, text }

def greet : Loader Unit := do
  tell .info "Loading **Kumquat**"
  let revisions ← ask .revisions
  tell .info <|
    "Firmware revision " ++ Numeral.hex (revisions.firmware.toNat / 0x10000) ++ "."
      ++ Numeral.hex (revisions.firmware.toNat % 0x10000) ++ ", UEFI revision "
      ++ revisionText revisions.uefi

/-- Room for the memory map, in the loader's own memory. -/
def mapBuffer : MemoryMap.Buffer := ⟨0x7e0000000000, List.replicate 0x4000 0⟩

/-- How the loader ends. -/
inductive End where
  /-- The processor is parked, after a failure or after the kernel returned. -/
  | halted
  | crashed
  deriving DecidableEq, Repr

def boot (options : Boot.Options) : Loader End := do
  match ← (Boot.prepare mapBuffer options).run.run answer with
  | .ok launch =>
    ask (.enterKernel launch.entry (match launch.entryCall with
      | .withFrameBuffer => some launch.frameBuffer
      | .bare => none))
    return .halted
  | .error (.failed failure) =>
    tell .error failure.message
    return .halted
  | .error .crashed => return .crashed

def start : Loader End := do
  match ← settings with
  | .error _ => return .crashed
  | .ok settings =>
    match ← Logger.setUp settings with
    | .error .crashed => return .crashed
    | _ =>
      greet
      boot (.ofSettings settings)

end EfiLoader.Uefi
