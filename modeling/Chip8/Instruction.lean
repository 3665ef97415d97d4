import Chip8.Digit

/-!
Instruction words.

An instruction is one word of sixteen bits. Its top four bits choose the family;
the rest is cut into overlapping fields. The fields are defined for every
integer, since a word may be handed over that no memory could hold. The engine
reads a word into an `Instruction` or refuses it. Mnemonics are written after the
fields alone, so that words can be listed that the engine would refuse.
-/

namespace Chip8

abbrev RegisterIndex : Type := Digit

/-- The fields of a word. The family is what lies above the low twelve bits, so
it is below sixteen exactly when the word has sixteen bits. -/
structure Fields where
  family : Int
  x : RegisterIndex
  y : RegisterIndex
  nibble : Digit
  byte : UInt8
  address : Fin 4096
deriving DecidableEq, Repr

def Fields.ofWord (word : Int) : Fields where
  family := word / 4096
  x := Digit.lowest (word / 256)
  y := Digit.lowest (word / 16)
  nibble := Digit.lowest word
  byte := UInt8.ofNat (word % 256).toNat
  address := ⟨(word % 4096).toNat, by omega⟩

/-- What two registers can be combined with; the result goes to the first. -/
inductive Operation
  | copy
  | or
  | and
  | xor
  | add
  | subtract
  | shiftRight
  | subtractFrom
  | shiftLeft
deriving DecidableEq, Repr

def Operation.ofNibble? (nibble : Digit) : Option Operation :=
  match nibble with
  | 0x0 => some copy
  | 0x1 => some or
  | 0x2 => some and
  | 0x3 => some xor
  | 0x4 => some add
  | 0x5 => some subtract
  | 0x6 => some shiftRight
  | 0x7 => some subtractFrom
  | 0xE => some shiftLeft
  | _ => none

inductive Instruction
  | clearScreen
  | returnToCaller
  | jump (target : Fin 4096)
  | call (target : Fin 4096)
  | skipIfByte (x : RegisterIndex) (value : UInt8)
  | skipUnlessByte (x : RegisterIndex) (value : UInt8)
  | skipIfSame (x y : RegisterIndex)
  | skipUnlessSame (x y : RegisterIndex)
  | loadByte (x : RegisterIndex) (value : UInt8)
  | addByte (x : RegisterIndex) (value : UInt8)
  | combine (operation : Operation) (x y : RegisterIndex)
  | loadIndex (address : Fin 4096)
  | jumpOffset (base : Fin 4096)
  | random (x : RegisterIndex) (mask : UInt8)
  | draw (x y : RegisterIndex) (rows : Digit)
  | skipIfPressed (x : RegisterIndex)
  | skipUnlessPressed (x : RegisterIndex)
  | readDelay (x : RegisterIndex)
  | awaitKey (x : RegisterIndex)
  | setDelay (x : RegisterIndex)
  | setSound (x : RegisterIndex)
  | addToIndex (x : RegisterIndex)
  | selectGlyph (x : RegisterIndex)
  | storeDecimal (x : RegisterIndex)
  | storeRegisters (x : RegisterIndex)
  | loadRegisters (x : RegisterIndex)
deriving DecidableEq, Repr

namespace Instruction

def ofKeyFields? (fields : Fields) : Option Instruction :=
  match fields.byte with
  | 0x9E => some (skipIfPressed fields.x)
  | 0xA1 => some (skipUnlessPressed fields.x)
  | _ => none

def ofMiscellaneousFields? (fields : Fields) : Option Instruction :=
  match fields.byte with
  | 0x07 => some (readDelay fields.x)
  | 0x0A => some (awaitKey fields.x)
  | 0x15 => some (setDelay fields.x)
  | 0x18 => some (setSound fields.x)
  | 0x1E => some (addToIndex fields.x)
  | 0x29 => some (selectGlyph fields.x)
  | 0x33 => some (storeDecimal fields.x)
  | 0x55 => some (storeRegisters fields.x)
  | 0x65 => some (loadRegisters fields.x)
  | _ => none

def ofFields? (fields : Fields) : Option Instruction :=
  match fields.family with
  | 0x1 => some (jump fields.address)
  | 0x2 => some (call fields.address)
  | 0x3 => some (skipIfByte fields.x fields.byte)
  | 0x4 => some (skipUnlessByte fields.x fields.byte)
  | 0x5 => if fields.nibble = Digit.zero then some (skipIfSame fields.x fields.y) else none
  | 0x6 => some (loadByte fields.x fields.byte)
  | 0x7 => some (addByte fields.x fields.byte)
  | 0x8 => (Operation.ofNibble? fields.nibble).map (combine · fields.x fields.y)
  | 0x9 => if fields.nibble = Digit.zero then some (skipUnlessSame fields.x fields.y) else none
  | 0xA => some (loadIndex fields.address)
  | 0xB => some (jumpOffset fields.address)
  | 0xC => some (random fields.x fields.byte)
  | 0xD => some (draw fields.x fields.y fields.nibble)
  | 0xE => ofKeyFields? fields
  | 0xF => ofMiscellaneousFields? fields
  | _ => none

/-- The instruction that a word stands for. Family 0 holds two words only. -/
def ofWord? (word : Int) : Option Instruction :=
  if word = 0x00E0 then some clearScreen
  else if word = 0x00EE then some returnToCaller
  else ofFields? (Fields.ofWord word)

/-- The word the engine carries out in the place of `word`: words of sixteen bits
stand for themselves, every other one for the family 15 word with the same low
twelve bits. -/
def engineWord (word : Int) : Int :=
  if 0 ≤ word ∧ word.toNat < 0x10000 then word else 0xF000 + word % 4096

def carriedOut? (word : Int) : Option Instruction :=
  ofWord? (engineWord word)

end Instruction

end Chip8
