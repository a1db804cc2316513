import EfiLoader.Attempt
import EfiLoader.Boot.Cause

/-!
The screen: finding the device, painting it, and the description of its frame buffer that the kernel
gets.
-/

namespace EfiLoader.Screen

open Boot (Cause)

def target : String := "boot_handoff::graphics"

/-- Order of the colours in the first three bytes of a pixel; the fourth is unused. -/
inductive ColourOrder where
  | rgb
  | bgr
  deriving DecidableEq, Repr

def ColourOrder.code : ColourOrder → Nat
  | rgb => 0
  | bgr => 1

structure FrameBuffer where
  address : UInt64
  stride : UInt32
  width : UInt32
  height : UInt32
  order : ColourOrder
  deriving DecidableEq, Repr

namespace FrameBuffer

/-- The 24 bytes that the kernel reads. -/
def toBytes (f : FrameBuffer) : Bytes :=
  Bytes.ofNatLE 8 f.address.toNat ++ Bytes.ofNatLE 4 f.stride.toNat
    ++ Bytes.ofNatLE 4 f.width.toNat ++ Bytes.ofNatLE 4 f.height.toNat
    ++ Bytes.ofNatLE 4 f.order.code

end FrameBuffer

/-- Kernels know two pixel formats. -/
def describe (mode : Mode) : Except Cause FrameBuffer :=
  match mode.format with
  | .rgb => .ok ⟨mode.base, mode.stride, mode.width, mode.height, .rgb⟩
  | .bgr => .ok ⟨mode.base, mode.stride, mode.width, mode.height, .bgr⟩
  | format => .error (.unsupportedPixelFormat format)

/-- The end of the frame buffer, at most the greatest word. -/
def Mode.limit (mode : Mode) : Nat := min (mode.base.toNat + mode.size.toNat) 0xffffffffffffffff

/-- The mode of the first graphics device. -/
def find : Attempt Cause Mode := do
  match ← Attempt.reply Services.graphicsMode with
  | .error status =>
    Services.log .error target ("Failed to open graphics output protocol: " ++ status.text)
    Attempt.fail (.graphicsNotFound (some status))
  | .ok none => Attempt.fail (.graphicsNotFound none)
  | .ok (some mode) =>
    Services.log .info target <|
      "Resolution: " ++ Numeral.decimal mode.width.toNat ++ "x"
        ++ Numeral.decimal mode.height.toNat ++ ", Pixel Format: " ++ mode.format.name ++ ", "
        ++ Numeral.decimal mode.stride.toNat ++ " pixels/line"
    Services.log .info target <|
      "Frame Buffer: " ++ Numeral.address mode.base.toNat ++ " - " ++ Numeral.address mode.limit
        ++ ", Size: " ++ Numeral.decimal mode.size.toNat ++ " bytes"
    return mode

/-- Sets every byte of the frame buffer. -/
def paint (mode : Mode) (value : UInt8) : Program Services Unit :=
  Services.fill mode.base mode.size value

end EfiLoader.Screen
