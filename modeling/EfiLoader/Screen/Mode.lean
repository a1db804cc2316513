/-!
Modes of graphics devices, as the firmware reports them.
-/

namespace EfiLoader.Screen

/-- How a device stores a pixel. -/
inductive PixelFormat where
  | rgb
  | bgr
  /-- A mask for each channel. -/
  | bitmask
  /-- No frame buffer, only block transfers. -/
  | bltOnly
  deriving DecidableEq, Repr

def PixelFormat.name : PixelFormat → String
  | rgb => "Rgb"
  | bgr => "Bgr"
  | bitmask => "Bitmask"
  | bltOnly => "BltOnly"

structure Mode where
  base : UInt64
  size : UInt64
  width : UInt32
  height : UInt32
  /-- Pixels from one line to the next. -/
  stride : UInt32
  format : PixelFormat
  deriving DecidableEq, Repr

end EfiLoader.Screen
