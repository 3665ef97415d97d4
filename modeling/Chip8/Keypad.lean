import Chip8.Digit
import Chip8.Fault

/-!
The keypad: which of the sixteen keys are down, and the last change.

Beside the state of every key the keypad remembers the key that changed last and
whether anybody has taken notice of that change. The instruction that waits for a
key uses the pair.
-/

namespace Chip8

abbrev Key : Type := Digit

structure Keypad where
  down : Vector Bool 16
  last : Key
  fresh : Bool
deriving DecidableEq, Repr

namespace Keypad

def released : Keypad :=
  ⟨Vector.replicate 16 false, Digit.zero, false⟩

def key? (number : Int) : Except Fault Key :=
  match Digit.ofInt? number with
  | some key => .ok key
  | none => .error (.noSuchKey number)

def change (keypad : Keypad) (key : Key) (pressed : Bool) : Keypad :=
  ⟨keypad.down.set key pressed, key, true⟩

def set (keypad : Keypad) (number : Int) (pressed : Bool) : Except Fault Keypad := do
  let key ← key? number
  return keypad.change key pressed

def isPressed (keypad : Keypad) (number : Int) : Except Fault Bool := do
  let key ← key? number
  return keypad.down[key]

def isDown (keypad : Keypad) (byte : UInt8) : Bool :=
  keypad.down.get (Digit.lowest byte.toNat)

/-- Forget the changes seen so far: only later ones count. -/
def beginWait (keypad : Keypad) : Keypad :=
  { keypad with fresh := false }

/-- The key of the last change, if nobody has taken notice of it yet. -/
def takeChange (keypad : Keypad) : Option Key × Keypad :=
  if keypad.fresh then (some keypad.last, keypad.beginWait) else (none, keypad)

end Keypad

end Chip8
