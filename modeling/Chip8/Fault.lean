import Chip8.Text.Hex

/-!
What can stop an operation.

The first group are the faults of the machine itself: nothing inside it can
recover from them, so they travel to the command line, which reports them. They
and the two refused arguments have a text of their own. The remaining causes are
failures of arithmetic, of an index or of an unfinished collaborator, and say no
more than what they are.
-/

namespace Chip8

inductive Fault
  | invalidOpcode (word counter : Int)
  | invalidRegister (index : Int)
  | stackOverflow (depth : Int)
  | stackUnderflow
  | memoryOutOfBounds (address : Int)
  | unusableProgram (path reason : String)
  | described (text : String)
  | noSuchGlyph (digit : Int)
  | noSuchKey (key : Int)
  | divisionByZero
  | tooLarge
  | tooManyDigits
  | notANumber
  | embeddedNul
  | negativeCount
  | outOfMemory
  | indexOutOfRange
  | missingNumber
  | unanswered
deriving DecidableEq, Repr

namespace Fault

def isMachineFault : Fault → Bool
  | invalidOpcode .. | invalidRegister _ | stackOverflow _ | stackUnderflow
  | memoryOutOfBounds _ | unusableProgram .. | described _ => true
  | _ => false

def message? : Fault → Option String
  | invalidOpcode word counter =>
      some ("Invalid instruction 0x" ++ Text.hex 4 word ++ " at 0x" ++ Text.hex 4 counter)
  | invalidRegister index => some ("No such register V" ++ toString index)
  | stackOverflow depth =>
      some ("Stack overflow, " ++ toString depth ++ " return addresses already stored")
  | stackUnderflow => some "Stack underflow, return with an empty stack"
  | memoryOutOfBounds address => some ("Memory access error at 0x" ++ Text.hex 4 address)
  | unusableProgram path reason => some ("Could not load " ++ path ++ ": " ++ reason)
  | described text => some text
  | noSuchGlyph digit => some ("No glyph for digit " ++ toString digit)
  | noSuchKey key => some ("No such key " ++ Text.prefixedHex key)
  | _ => none

/-- The text of a fault; empty for those that have none. -/
def message (fault : Fault) : String :=
  fault.message?.getD ""

end Fault

end Chip8
