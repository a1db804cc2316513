import EfiLoader.Numeral

/-!
Status codes of the firmware: bit 63 marks an error, known codes have names.
-/

namespace EfiLoader

structure Status where
  code : UInt64
  deriving DecidableEq, Repr

namespace Status

def errorBit : UInt64 := 0x8000000000000000

def ofError (n : UInt64) : Status := ⟨errorBit + n⟩

def success : Status := ⟨0⟩
def invalidParameter : Status := ofError 2
def unsupported : Status := ofError 3
def bufferTooSmall : Status := ofError 5
def outOfResources : Status := ofError 9
def notFound : Status := ofError 14
def endOfFile : Status := ofError 31

/-- Warnings are no errors. -/
def isError (status : Status) : Bool := errorBit ≤ status.code

def names : List (Status × String) :=
  [(⟨0⟩, "SUCCESS"), (⟨1⟩, "WARN_UNKNOWN_GLYPH"), (⟨2⟩, "WARN_DELETE_FAILURE"),
   (⟨3⟩, "WARN_WRITE_FAILURE"), (⟨4⟩, "WARN_BUFFER_TOO_SMALL"), (⟨5⟩, "WARN_STALE_DATA"),
   (⟨6⟩, "WARN_FILE_SYSTEM"), (⟨7⟩, "WARN_RESET_REQUIRED"), (ofError 1, "LOAD_ERROR"),
   (ofError 2, "INVALID_PARAMETER"), (ofError 3, "UNSUPPORTED"), (ofError 4, "BAD_BUFFER_SIZE"),
   (ofError 5, "BUFFER_TOO_SMALL"), (ofError 6, "NOT_READY"), (ofError 7, "DEVICE_ERROR"),
   (ofError 8, "WRITE_PROTECTED"), (ofError 9, "OUT_OF_RESOURCES"),
   (ofError 10, "VOLUME_CORRUPTED"), (ofError 11, "VOLUME_FULL"), (ofError 12, "NO_MEDIA"),
   (ofError 13, "MEDIA_CHANGED"), (ofError 14, "NOT_FOUND"), (ofError 15, "ACCESS_DENIED"),
   (ofError 16, "NO_RESPONSE"), (ofError 17, "NO_MAPPING"), (ofError 18, "TIMEOUT"),
   (ofError 19, "NOT_STARTED"), (ofError 20, "ALREADY_STARTED"), (ofError 21, "ABORTED"),
   (ofError 22, "ICMP_ERROR"), (ofError 23, "TFTP_ERROR"), (ofError 24, "PROTOCOL_ERROR"),
   (ofError 25, "INCOMPATIBLE_VERSION"), (ofError 26, "SECURITY_VIOLATION"),
   (ofError 27, "CRC_ERROR"), (ofError 28, "END_OF_MEDIA"), (ofError 31, "END_OF_FILE"),
   (ofError 32, "INVALID_LANGUAGE"), (ofError 33, "COMPROMISED_DATA"),
   (ofError 34, "IP_ADDRESS_CONFLICT"), (ofError 35, "HTTP_ERROR")]

def name? (status : Status) : Option String := names.lookup status

def ofName? (name : String) : Option Status :=
  (names.find? (fun entry => entry.2 == name)).map Prod.fst

/-- The name, or the code in decimal where there is none. -/
def text (status : Status) : String :=
  status.name?.getD ("Status(" ++ Numeral.decimal status.code.toNat ++ ")")

end Status

end EfiLoader
