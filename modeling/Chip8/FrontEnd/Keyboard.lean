import Chip8.Event
import Chip8.FrontEnd.Command

/-!
The keyboard: a grid of letters and digits in the place of the keypad.

The four by four keys from `1` to `V` stand for the keypad as it is laid out, Escape
and the closing of the window ask the machine to stop, the blank runs a single
instruction and `P` ends a pause.
-/

namespace Chip8.FrontEnd

/-- What happens at the keyboard and to the window. Keys are given by their codes. -/
inductive InputEvent
  | down (code : Int)
  | up (code : Int)
  | closed
  | other
deriving DecidableEq, Repr

namespace Keyboard

def layout : List Char :=
  ['x', '1', '2', '3', 'q', 'w', 'e', 'a', 's', 'd', 'z', 'c', '4', 'r', 'f', 'v']

def codeOf (character : Char) : Int :=
  character.toNat

def escapeCode : Int := 27

def keyOf? (code : Int) : Option Nat :=
  layout.findIdx? fun character => codeOf character = code

def controlOf (code : Int) : List Event :=
  if code = escapeCode then [.quit]
  else if code = codeOf ' ' then [.step]
  else if code = codeOf 'p' then [.resume]
  else []

def translate : InputEvent → List Event
  | .closed => [.quit]
  | .down code =>
      match keyOf? code with
      | some key => [.key key true]
      | none => controlOf code
  | .up code =>
      match keyOf? code with
      | some key => [.key key false]
      | none => []
  | .other => []

def translateAll (batch : List InputEvent) : List Event :=
  batch.flatMap translate

def openCommands : List Command :=
  [.openDisplay]

/-- The display belongs to the window, so the keyboard leaves it open. -/
def closeCommands : List Command :=
  []

end Keyboard

end Chip8.FrontEnd
