import Chip8.Instruction.Mnemonic
import Chip8.Layout

/-!
The listing of a program image: one line for each word, in order of address.
-/

namespace Chip8.Listing

def wordOf (high low : UInt8) : Nat :=
  high.toNat * 256 + low.toNat

/-- The words of an image; an odd last byte is followed by a zero. -/
def words : List UInt8 → List Nat
  | [] => []
  | [high] => [wordOf high 0]
  | high :: low :: rest => wordOf high low :: words rest

structure Line where
  address : Int
  word : Nat
  text : String
deriving DecidableEq, Repr

def linesFrom (origin : Int) : List Nat → List Line
  | [] => []
  | word :: rest => ⟨origin, word, disassemble word⟩ :: linesFrom (origin + 2) rest

def ofProgram (program : List UInt8) (origin : Int) : List Line :=
  linesFrom origin (words program)

def Line.render (line : Line) : String :=
  Text.hex 4 line.address ++ " | " ++ Text.hex 4 line.word ++ " - " ++ line.text

end Chip8.Listing
