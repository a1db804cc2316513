import EfiLoader.Boot.Leave
import EfiLoader.Kernel.Load
import EfiLoader.MemoryMap.Listing
import EfiLoader.Screen.FrameBuffer
import EfiLoader.Settings

/-!
The whole boot attempt: memory map, its listing, screen, kernel, exit from the boot services. What
is left then is the call of the kernel.
-/

namespace EfiLoader.Boot

def target : String := "boot_handoff::sequence"

def kernelPath : String := "\\kernel.elf"

def listingPath : String := "\\memmap"

/-- What every byte of the screen is set to. -/
def paintValue : UInt8 := 0xff

/-- How the kernel is called. -/
inductive EntryCall where
  /-- With the address of the frame buffer's description. -/
  | withFrameBuffer
  /-- Without arguments. -/
  | bare
  deriving DecidableEq, Repr

structure Options where
  saveMemoryMap : Bool := true
  paintScreen : Bool := true
  entryCall : EntryCall := .withFrameBuffer
  deriving DecidableEq, Repr

def Options.ofSettings (settings : Settings) : Options where
  saveMemoryMap := settings.saveMemoryMap
  paintScreen := settings.paintScreen
  entryCall := if settings.bareEntry then .bare else .withFrameBuffer

/-- All that the call of the kernel needs. -/
structure Launch where
  entry : UInt64
  frameBuffer : Screen.FrameBuffer
  entryCall : EntryCall
  deriving DecidableEq, Repr

/-- A part of the attempt that belongs to `step`. -/
def atStep {α : Type} (step : Step) (attempt : Attempt Cause α) : Attempt Failure α :=
  attempt.explain (Failure.mk step)

/-- A map and what came of asking for it, as a part of an attempt. -/
def mapOrFail (taken : Program Services (MemoryMap × Outcome Cause Unit)) :
    Attempt Cause MemoryMap := ExceptT.mk do
  let (map, outcome) ← taken
  return outcome.map fun () => map

/-- Every step up to and with the exit from the boot services. -/
def prepare (buffer : MemoryMap.Buffer) (options : Options) : Attempt Failure Launch := do
  let map ← atStep .getMemoryMap (mapOrFail (MemoryMap.take buffer))
  Services.log .info target <|
    "Memory map: " ++ Numeral.decimal map.length ++ " descriptors of "
      ++ Numeral.decimal map.report.stride.toNat ++ " bytes, version "
      ++ Numeral.decimal map.report.version.toNat
  if options.saveMemoryMap then
    atStep .saveMemoryMap (MemoryMap.Listing.save map listingPath)
    Services.log .info target ("Memory map saved to " ++ listingPath)
  let mode ← atStep .openGraphicsOutput Screen.find
  let frameBuffer ← atStep .describeFrameBuffer (Attempt.ofExcept (Screen.describe mode))
  if options.paintScreen then
    Screen.paint mode paintValue
  let kernel ← atStep .loadKernel (Kernel.load kernelPath)
  Services.log .info target ("Kernel entry point: " ++ Numeral.address kernel.entry.toNat)
  Services.log .info target "Exiting boot services"
  let _ ← atStep .exitBootServices (mapOrFail (leave map))
  return ⟨kernel.entry, frameBuffer, options.entryCall⟩

end EfiLoader.Boot
