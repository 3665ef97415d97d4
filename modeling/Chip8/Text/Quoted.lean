import Chip8.Text.Hex
import Chip8.Text.Printable

/-!
Quoted text, as error messages show a value.

A text stands between single quotes, or between double quotes when it holds single
ones and no double ones. The quote that is used and the backslash are escaped; so is
every character that is not printable, with as many hexadecimal digits as its code
point needs.
-/

namespace Chip8.Text.Quoted

def quoteFor (text : List Char) : Char :=
  if text.contains '\'' && !text.contains '"' then '"' else '\''

def hexEscape (code : Nat) : List Char :=
  if code ≤ 0xFF then '\\' :: 'x' :: hexChars 2 code
  else if code ≤ 0xFFFF then '\\' :: 'u' :: hexChars 4 code
  else '\\' :: 'U' :: hexChars 8 code

def escape (quote character : Char) : List Char :=
  if character = quote || character = '\\' then ['\\', character]
  else if character = '\t' then ['\\', 't']
  else if character = '\n' then ['\\', 'n']
  else if character = '\r' then ['\\', 'r']
  else if isPrintable character then [character]
  else hexEscape character.toNat

def render (text : String) : String :=
  let characters := text.toList
  let quote := quoteFor characters
  String.ofList (quote :: characters.flatMap (escape quote) ++ [quote])

end Chip8.Text.Quoted
