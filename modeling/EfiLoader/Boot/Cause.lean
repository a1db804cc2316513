import EfiLoader.Kernel.Rejection
import EfiLoader.Screen.Mode
import EfiLoader.Status

/-!
Everything that can end a boot attempt, the step it ends in, and the texts of both.
-/

namespace EfiLoader.Boot

inductive Cause where
  | fileNotFound (status : Status)
  | io (status : Status)
  | outOfMemory (status : Status)
  | addressRangeUnavailable (status : Status)
  /-- The buffer for the memory map is empty, or smaller than the map. -/
  | bufferTooSmall
  | memoryMap (status : Status)
  | invalidKernel (rejection : Kernel.Rejection)
  | noLoadSegments
  /-- No device, or the search for one failed with a status. -/
  | graphicsNotFound (status : Option Status)
  | unsupportedPixelFormat (format : Screen.PixelFormat)
  | exitBootServices (status : Status)
  deriving DecidableEq, Repr

def Cause.message : Cause → String
  | fileNotFound status => "file not found: " ++ status.text
  | io status => "I/O error: " ++ status.text
  | outOfMemory status => "out of memory: " ++ status.text
  | addressRangeUnavailable status => "address range unavailable: " ++ status.text
  | bufferTooSmall => "memory map buffer too small"
  | memoryMap status => "can't get memory map: " ++ status.text
  | invalidKernel rejection => "invalid kernel image: " ++ rejection.message
  | noLoadSegments => "kernel image has no PT_LOAD segments"
  | graphicsNotFound none => "no graphics output device"
  | graphicsNotFound (some status) => "no graphics output device: " ++ status.text
  | unsupportedPixelFormat format => "unimplemented pixel format: " ++ format.name
  | exitBootServices status => "could not exit boot services: " ++ status.text

inductive Step where
  | getMemoryMap
  | saveMemoryMap
  | openGraphicsOutput
  | describeFrameBuffer
  | loadKernel
  | exitBootServices
  deriving DecidableEq, Repr

def Step.text : Step → String
  | getMemoryMap => "get memory map"
  | saveMemoryMap => "save memory map"
  | openGraphicsOutput => "open graphics output"
  | describeFrameBuffer => "describe frame buffer"
  | loadKernel => "load kernel"
  | exitBootServices => "exit boot services"

structure Failure where
  step : Step
  cause : Cause
  deriving DecidableEq, Repr

def Failure.message (failure : Failure) : String :=
  failure.step.text ++ ": " ++ failure.cause.message

end EfiLoader.Boot
