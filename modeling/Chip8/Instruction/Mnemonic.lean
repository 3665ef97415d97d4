import Chip8.Instruction
import Chip8.Text.Hex

/-!
Mnemonics: the written form of instruction words.

Register numbers are one upper-case digit, numbers are lower-case hexadecimal
with all the digits of their field. The families that hold many instructions are
written after tables of names and forms. A word that no table and no family has a
form for is written as three question marks and its value, so that a program with
data in it can still be listed.
-/

namespace Chip8

def RegisterIndex.name (index : RegisterIndex) : String :=
  "V" ++ String.singleton (Text.upperDigit index)

namespace Mnemonic

/-- The written form of a word that names one register, cut where the name goes. -/
structure Form where
  before : String
  behind : String
deriving DecidableEq, Repr

def Form.fill (form : Form) (x : RegisterIndex) : String :=
  form.before ++ x.name ++ form.behind

/-- The names in family 8, by the lowest digit. -/
def operationNames : List (Nat × String) :=
  [(0x0, "LD"), (0x1, "OR"), (0x2, "AND"), (0x3, "XOR"), (0x4, "ADD"), (0x5, "SUB"),
   (0x6, "SHR"), (0x7, "SUBN"), (0xE, "SHL")]

/-- The forms in family 15, by the low byte. -/
def miscellaneousForms : List (UInt8 × Form) :=
  [(0x07, ⟨"LD ", ", DT"⟩),
   (0x0A, ⟨"LD ", ", K"⟩),
   (0x15, ⟨"LD DT, ", ""⟩),
   (0x18, ⟨"LD ST, ", ""⟩),
   (0x1E, ⟨"ADD I, ", ""⟩),
   (0x29, ⟨"LD F, ", ""⟩),
   (0x33, ⟨"LD B, ", ""⟩),
   (0x55, ⟨"LD [I], ", ""⟩),
   (0x65, ⟨"LD ", ", [I]"⟩)]

/-- The forms in family 14, by the low byte. -/
def keyForms : List (UInt8 × Form) :=
  [(0x9E, ⟨"SKP ", ""⟩), (0xA1, ⟨"SKNP ", ""⟩)]

def addressText (address : Fin 4096) : String :=
  Text.hex 3 address.val

def ofByte (name : String) (fields : Fields) : String :=
  name ++ " " ++ fields.x.name ++ ", " ++ Text.byteHex fields.byte

def ofPair (name : String) (fields : Fields) : String :=
  name ++ " " ++ fields.x.name ++ ", " ++ fields.y.name

def ofFields? (fields : Fields) : Option String :=
  match fields.family with
  | 0x1 => some ("JP " ++ addressText fields.address)
  | 0x2 => some ("CALL " ++ addressText fields.address)
  | 0x3 => some (ofByte "SE" fields)
  | 0x4 => some (ofByte "SNE" fields)
  | 0x5 => if fields.nibble = Digit.zero then some (ofPair "SE" fields) else none
  | 0x6 => some (ofByte "LD" fields)
  | 0x7 => some (ofByte "ADD" fields)
  | 0x8 => (operationNames.lookup fields.nibble.val).map (ofPair · fields)
  | 0x9 => if fields.nibble = Digit.zero then some (ofPair "SNE" fields) else none
  | 0xA => some ("LD I, " ++ addressText fields.address)
  | 0xB => some ("JP V0, " ++ addressText fields.address)
  | 0xC => some (ofByte "RND" fields)
  | 0xD => some (ofPair "DRW" fields ++ ", " ++ Text.hex 1 fields.nibble.val)
  | 0xE => (keyForms.lookup fields.byte).map (·.fill fields.x)
  | 0xF => (miscellaneousForms.lookup fields.byte).map (·.fill fields.x)
  | _ => none

/-- The written form of a word, if it has one. In family 0 two words have. -/
def ofWord? (word : Int) : Option String :=
  if word = 0x00E0 then some "CLS"
  else if word = 0x00EE then some "RET"
  else ofFields? (Fields.ofWord word)

end Mnemonic

def disassemble (word : Int) : String :=
  (Mnemonic.ofWord? word).getD ("??? 0x" ++ Text.hex 4 word)

/-- The line of a trace or a state report: an address, the word there, its written form. -/
def traceLine (address word : Int) : String :=
  Text.hex 4 address ++ " | OP 0x" ++ Text.hex 4 word ++ " - " ++ disassemble word

end Chip8
