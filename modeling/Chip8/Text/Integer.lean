import Chip8.Text.Digits

/-!
Integers as they are written on a command line.

Blanks around the number do not count. Behind an optional sign come digits, of any
script, with single low lines between them where they help the reader. Where the
radix is left to the text, a mark in front of the digits sets it, and a decimal
number has no leading zero unless it is zero. A decimal number may have 4300 digits,
and no longer one is written either.
-/

namespace Chip8.Text.Integer

inductive Radix
  | decimal
  | marked
deriving DecidableEq, Repr

def maxDecimalDigits : Nat := 4300

def isWritable (number : Int) : Bool :=
  (toString number.natAbs).length ≤ maxDecimalDigits

/-- A character as the ASCII character that stands for it in a number: digits of all
scripts are digits, wide blanks are blanks. -/
def plain (character : Char) : Char :=
  if character.toNat < 128 then character
  else if wideBlanks.contains character.toNat then ' '
  else match decimalDigit? character with
    | some value => Nat.digitChar value
    | none => '?'

def isBlank (character : Char) : Bool :=
  character = ' ' || (0x09 ≤ character.toNat && character.toNat ≤ 0x0D)

def trim (text : List Char) : List Char :=
  ((text.dropWhile isBlank).reverse.dropWhile isBlank).reverse

def digit? (radix : Nat) (character : Char) : Option Nat :=
  let value :=
    if character.isDigit then some (character.toNat - '0'.toNat)
    else if 'a' ≤ character && character ≤ 'f' then some (character.toNat - 'a'.toNat + 10)
    else if 'A' ≤ character && character ≤ 'F' then some (character.toNat - 'A'.toNat + 10)
    else none
  value.filter (· < radix)

def digits? (radix : Nat) : List Char → Option (List Nat)
  | [] => none
  | [last] => (digit? radix last).map ([·])
  | first :: '_' :: rest => do
      let value ← digit? radix first
      let values ← digits? radix rest
      return value :: values
  | first :: rest => do
      let value ← digit? radix first
      let values ← digits? radix rest
      return value :: values

def ofDigits (radix : Nat) (digits : List Nat) : Nat :=
  digits.foldl (fun number digit => number * radix + digit) 0

def decimal? (text : List Char) : Option Nat := do
  let digits ← digits? 10 text
  if digits.length > maxDecimalDigits then none else return ofDigits 10 digits

/-- A number behind its mark; one low line may follow the mark. -/
def afterMark? (radix : Nat) : List Char → Option Nat
  | '_' :: rest => (digits? radix rest).map (ofDigits radix)
  | text => (digits? radix text).map (ofDigits radix)

def marked? : List Char → Option Nat
  | '0' :: 'x' :: rest | '0' :: 'X' :: rest => afterMark? 16 rest
  | '0' :: 'o' :: rest | '0' :: 'O' :: rest => afterMark? 8 rest
  | '0' :: 'b' :: rest | '0' :: 'B' :: rest => afterMark? 2 rest
  | '0' :: rest => (decimal? ('0' :: rest)).filter (· = 0)
  | text => decimal? text

def unsigned? (radix : Radix) (text : List Char) : Option Nat :=
  match radix with
  | .decimal => decimal? text
  | .marked => marked? text

def read? (radix : Radix) (text : String) : Option Int :=
  match trim (text.toList.map plain) with
  | '-' :: rest => (unsigned? radix rest).map fun magnitude => -(magnitude : Int)
  | '+' :: rest => (unsigned? radix rest).map Int.ofNat
  | rest => (unsigned? radix rest).map Int.ofNat

end Chip8.Text.Integer
