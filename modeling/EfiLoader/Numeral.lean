/-!
Numbers as text: decimal and lower-case hexadecimal digits.
-/

namespace EfiLoader.Numeral

def decimal (n : Nat) : String := String.ofList (Nat.toDigits 10 n)

/-- At least `width` decimal digits, zeros in front. -/
def zeroDecimal (width n : Nat) : String :=
  String.ofList ((Nat.toDigits 10 n).leftpad width '0')

def hex (n : Nat) : String := String.ofList (Nat.toDigits 16 n)

/-- At least `width` hexadecimal digits, zeros in front. -/
def zeroHex (width n : Nat) : String := String.ofList ((Nat.toDigits 16 n).leftpad width '0')

/-- An address: `0x` and hexadecimal digits. -/
def address (n : Nat) : String := "0x" ++ hex n

/-- An address of at least ten columns. -/
def wideAddress (n : Nat) : String := "0x" ++ zeroHex 8 n

end EfiLoader.Numeral
