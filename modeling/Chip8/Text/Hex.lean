/-!
Hexadecimal text.

Addresses and words may be any integer, so a padded text has room for a minus
sign: the sign takes one of the requested places, and a text that needs more
places than requested is never cut.
-/

namespace Chip8.Text

/-- The lower-case hexadecimal digits of a number, the most significant first. -/
def hexDigits (value : Nat) : List Char :=
  Nat.toDigits 16 value

def hexChars (width : Nat) (value : Int) : List Char :=
  let sign := if value < 0 then ['-'] else []
  let digits := hexDigits value.natAbs
  sign ++ List.replicate (width - sign.length - digits.length) '0' ++ digits

/-- An integer in hexadecimal, filled with zeros up to `width` places. -/
def hex (width : Nat) (value : Int) : String :=
  String.ofList (hexChars width value)

def byteHex (byte : UInt8) : String :=
  hex 2 byte.toNat

def bytesHex (bytes : List UInt8) : String :=
  String.join (bytes.map byteHex)

def upperDigit (value : Fin 16) : Char :=
  (Nat.digitChar value.val).toUpper

def prefixedHex (value : Int) : String :=
  (if value < 0 then "-0x" else "0x") ++ String.ofList (hexDigits value.natAbs)

end Chip8.Text
