import Chip8.Instruction.Mnemonic

/-!
Mnemonics of instructions.

The tables that words are written after and the reading of the engine are made
independently of one another. They agree on every integer: a word has a written form
exactly if it is read as an instruction, and then the form is the mnemonic of that
instruction. No mnemonic begins with a question mark, so the words that are written with
three of them are the words that stand for no instruction.
-/

namespace Chip8

def Operation.name : Operation → String
  | copy => "LD"
  | or => "OR"
  | and => "AND"
  | xor => "XOR"
  | add => "ADD"
  | subtract => "SUB"
  | shiftRight => "SHR"
  | subtractFrom => "SUBN"
  | shiftLeft => "SHL"

open Mnemonic in
def Instruction.mnemonic : Instruction → String
  | clearScreen => "CLS"
  | returnToCaller => "RET"
  | jump target => "JP " ++ addressText target
  | call target => "CALL " ++ addressText target
  | skipIfByte x value => "SE " ++ x.name ++ ", " ++ Text.byteHex value
  | skipUnlessByte x value => "SNE " ++ x.name ++ ", " ++ Text.byteHex value
  | skipIfSame x y => "SE " ++ x.name ++ ", " ++ y.name
  | skipUnlessSame x y => "SNE " ++ x.name ++ ", " ++ y.name
  | loadByte x value => "LD " ++ x.name ++ ", " ++ Text.byteHex value
  | addByte x value => "ADD " ++ x.name ++ ", " ++ Text.byteHex value
  | combine operation x y => operation.name ++ " " ++ x.name ++ ", " ++ y.name
  | loadIndex address => "LD I, " ++ addressText address
  | jumpOffset base => "JP V0, " ++ addressText base
  | random x mask => "RND " ++ x.name ++ ", " ++ Text.byteHex mask
  | draw x y rows => "DRW " ++ x.name ++ ", " ++ y.name ++ ", " ++ Text.hex 1 rows.val
  | skipIfPressed x => "SKP " ++ x.name
  | skipUnlessPressed x => "SKNP " ++ x.name
  | readDelay x => "LD " ++ x.name ++ ", DT"
  | awaitKey x => "LD " ++ x.name ++ ", K"
  | setDelay x => "LD DT, " ++ x.name
  | setSound x => "LD ST, " ++ x.name
  | addToIndex x => "ADD I, " ++ x.name
  | selectGlyph x => "LD F, " ++ x.name
  | storeDecimal x => "LD B, " ++ x.name
  | storeRegisters x => "LD [I], " ++ x.name
  | loadRegisters x => "LD " ++ x.name ++ ", [I]"

namespace Mnemonic

theorem operationNames_lookup (nibble : Digit) :
    operationNames.lookup nibble.val = (Operation.ofNibble? nibble).map Operation.name := by
  revert nibble
  decide

theorem keyForms_lookup (fields : Fields) :
    (keyForms.lookup fields.byte).map (·.fill fields.x) =
      (Instruction.ofKeyFields? fields).map Instruction.mnemonic := by
  unfold Instruction.ofKeyFields?
  generalize fields.byte = byte
  split
  case h_3 =>
      have missing : keyForms.lookup byte = none := by
        rw [List.lookup_eq_none_iff]
        simp_all [keyForms]
      rw [missing]
      rfl
  all_goals exact congrArg some String.append_empty

theorem miscellaneousForms_lookup (fields : Fields) :
    (miscellaneousForms.lookup fields.byte).map (·.fill fields.x) =
      (Instruction.ofMiscellaneousFields? fields).map Instruction.mnemonic := by
  unfold Instruction.ofMiscellaneousFields?
  generalize fields.byte = byte
  split
  case h_10 =>
      have missing : miscellaneousForms.lookup byte = none := by
        rw [List.lookup_eq_none_iff]
        simp_all [miscellaneousForms]
      rw [missing]
      rfl
  case h_1 | h_2 | h_9 => rfl
  all_goals exact congrArg some String.append_empty

theorem ofFields?_eq (fields : Fields) :
    ofFields? fields = (Instruction.ofFields? fields).map Instruction.mnemonic := by
  unfold ofFields? Instruction.ofFields?
  generalize fields.family = family
  split
  case h_5 | h_9 => split <;> rfl
  case h_8 =>
      rw [operationNames_lookup, Option.map_map]
      cases Operation.ofNibble? fields.nibble <;> rfl
  case h_14 => exact keyForms_lookup fields
  case h_15 => exact miscellaneousForms_lookup fields
  case h_16 => simp [*]
  all_goals rfl

/-- A word is written as the mnemonic of the instruction that it is read as. -/
theorem ofWord?_eq (word : Int) :
    ofWord? word = (Instruction.ofWord? word).map Instruction.mnemonic := by
  unfold ofWord? Instruction.ofWord?
  split
  · rfl
  · split
    · rfl
    · exact ofFields?_eq _

end Mnemonic

theorem Instruction.not_startsWith_mnemonic (instruction : Instruction) :
    instruction.mnemonic.startsWith "???" = false := by
  rw [String.startsWith_string_eq_false_iff]
  cases instruction with
  | combine operation x y => cases operation <;> simp [mnemonic, Operation.name]
  | _ => simp [mnemonic]

/-- The words that are written with question marks are those that stand for no instruction. -/
theorem disassemble_startsWith_iff (word : Int) :
    (disassemble word).startsWith "???" = true ↔ Instruction.ofWord? word = none := by
  unfold disassemble
  rw [Mnemonic.ofWord?_eq]
  cases Instruction.ofWord? word with
  | none => simp [String.startsWith_string_iff]
  | some instruction => simp [instruction.not_startsWith_mnemonic]

end Chip8
