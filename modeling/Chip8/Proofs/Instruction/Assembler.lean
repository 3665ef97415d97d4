import Chip8.Proofs.Instruction.Encoding
import Chip8.Proofs.Instruction.Mnemonic
import Chip8.Proofs.Text.Hex

/-!
An assembler: reading written forms back.

A mnemonic is a name with operands behind it. Many instructions share a name, so it is the
operands that tell them apart, by nothing but their spelling: a register or a special operand
has an upper-case letter or a bracket in it, a number is lower-case digits alone, and the
count of these tells an address from a byte and a byte from a single digit. Words that are
no instructions are written with their value. Hence every integer can be read from its
written form, and no two have the same.
-/

namespace Chip8

inductive Operand
  | register (x : RegisterIndex)
  | address (target : Fin 4096)
  | byte (value : UInt8)
  | nibble (value : Digit)
  | index
  | cells
  | delay
  | sound
  | key
  | glyph
  | decimal
deriving DecidableEq, Repr

namespace Operand

def chars : Operand → List Char
  | register x => ['V', Text.upperDigit x]
  | address target => Text.hexChars 3 target.val
  | byte value => Text.hexChars 2 value.toNat
  | nibble value => Text.hexChars 1 value.val
  | index => ['I']
  | cells => ['[', 'I', ']']
  | delay => ['D', 'T']
  | sound => ['S', 'T']
  | key => ['K']
  | glyph => ['F']
  | decimal => ['B']

/-- The operands that are not numbers. -/
def names : List Operand :=
  [index, cells, delay, sound, key, glyph, decimal] ++ (List.finRange 16).map register

/-- The number that some digits stand for; their count says of which kind it is. -/
def ofDigits? (digits : List Char) : Option Operand :=
  match digits.length with
  | 1 => some (nibble (Digit.lowest (Text.valueOf digits)))
  | 2 => some (byte (UInt8.ofNat (Text.valueOf digits)))
  | 3 => some (address (Fin.ofNat 4096 (Text.valueOf digits)))
  | _ => none

def ofChars? (chars : List Char) : Option Operand :=
  if chars.all (· ∈ Text.alphabet) then ofDigits? chars
  else names.find? (·.chars = chars)

theorem ofChars?_hexChars (width value : Nat) :
    ofChars? (Text.hexChars width value) = ofDigits? (Text.hexChars width value) := by
  unfold ofChars?
  rw [if_pos (Text.all_mem_alphabet_hexChars width value)]

/-- A name is none of the other names and no number. -/
theorem ofChars?_chars_of_mem_names :
    ∀ operand ∈ names, ofChars? operand.chars = some operand := by
  decide

/-- Every operand is read from its written form. -/
theorem ofChars?_chars (operand : Operand) : ofChars? operand.chars = some operand := by
  cases operand with
  | register x =>
      apply ofChars?_chars_of_mem_names
      exact List.mem_append_right _ (List.mem_map_of_mem (List.mem_finRange x))
  | address target =>
      have length := Text.length_hexChars 3 (by decide) target.isLt
      rw [chars, ofChars?_hexChars, ofDigits?, length, Text.valueOf_hexChars]
      exact congrArg (some ∘ address) (Fin.ofNat_val_eq_self target)
  | byte value =>
      have length := Text.length_hexChars 2 (by decide) value.toNat_lt
      rw [chars, ofChars?_hexChars, ofDigits?, length, Text.valueOf_hexChars]
      exact congrArg (some ∘ byte) UInt8.ofNat_toNat
  | nibble value =>
      have length := Text.length_hexChars 1 (by decide) value.isLt
      have small := value.isLt
      rw [chars, ofChars?_hexChars, ofDigits?, length, Text.valueOf_hexChars]
      apply congrArg (some ∘ nibble)
      apply Fin.ext
      have lowest := Digit.val_lowest value.val
      omega
  | index | cells | delay | sound | key | glyph | decimal =>
      exact ofChars?_chars_of_mem_names _ (by decide)

end Operand

/-! ### Names and operands -/

namespace Instruction

def name : Instruction → String
  | clearScreen => "CLS"
  | returnToCaller => "RET"
  | jump _ | jumpOffset _ => "JP"
  | call _ => "CALL"
  | skipIfByte .. | skipIfSame .. => "SE"
  | skipUnlessByte .. | skipUnlessSame .. => "SNE"
  | loadByte .. | loadIndex _ | readDelay _ | awaitKey _ | setDelay _ | setSound _
  | selectGlyph _ | storeDecimal _ | storeRegisters _ | loadRegisters _ => "LD"
  | addByte .. | addToIndex _ => "ADD"
  | combine operation _ _ => operation.name
  | random .. => "RND"
  | draw .. => "DRW"
  | skipIfPressed _ => "SKP"
  | skipUnlessPressed _ => "SKNP"

def operands : Instruction → List Operand
  | clearScreen | returnToCaller => []
  | jump target | call target => [.address target]
  | skipIfByte x value | skipUnlessByte x value | loadByte x value | addByte x value
  | random x value => [.register x, .byte value]
  | skipIfSame x y | skipUnlessSame x y | combine _ x y => [.register x, .register y]
  | loadIndex address => [.index, .address address]
  | jumpOffset base => [.register Digit.zero, .address base]
  | draw x y rows => [.register x, .register y, .nibble rows]
  | skipIfPressed x | skipUnlessPressed x => [.register x]
  | readDelay x => [.register x, .delay]
  | awaitKey x => [.register x, .key]
  | setDelay x => [.delay, .register x]
  | setSound x => [.sound, .register x]
  | addToIndex x => [.index, .register x]
  | selectGlyph x => [.glyph, .register x]
  | storeDecimal x => [.decimal, .register x]
  | storeRegisters x => [.cells, .register x]
  | loadRegisters x => [.register x, .cells]

/-- The instruction with a name and some operands. -/
def ofParts? (name : String) (operands : List Operand) : Option Instruction :=
  match name, operands with
  | "CLS", [] => some clearScreen
  | "RET", [] => some returnToCaller
  | "JP", [.address target] => some (jump target)
  | "JP", [.register _, .address base] => some (jumpOffset base)
  | "CALL", [.address target] => some (call target)
  | "SE", [.register x, .byte value] => some (skipIfByte x value)
  | "SE", [.register x, .register y] => some (skipIfSame x y)
  | "SNE", [.register x, .byte value] => some (skipUnlessByte x value)
  | "SNE", [.register x, .register y] => some (skipUnlessSame x y)
  | "LD", [.register x, .byte value] => some (loadByte x value)
  | "LD", [.register x, .register y] => some (combine .copy x y)
  | "LD", [.register x, .delay] => some (readDelay x)
  | "LD", [.register x, .key] => some (awaitKey x)
  | "LD", [.register x, .cells] => some (loadRegisters x)
  | "LD", [.index, .address address] => some (loadIndex address)
  | "LD", [.delay, .register x] => some (setDelay x)
  | "LD", [.sound, .register x] => some (setSound x)
  | "LD", [.glyph, .register x] => some (selectGlyph x)
  | "LD", [.decimal, .register x] => some (storeDecimal x)
  | "LD", [.cells, .register x] => some (storeRegisters x)
  | "ADD", [.register x, .byte value] => some (addByte x value)
  | "ADD", [.register x, .register y] => some (combine .add x y)
  | "ADD", [.index, .register x] => some (addToIndex x)
  | "OR", [.register x, .register y] => some (combine .or x y)
  | "AND", [.register x, .register y] => some (combine .and x y)
  | "XOR", [.register x, .register y] => some (combine .xor x y)
  | "SUB", [.register x, .register y] => some (combine .subtract x y)
  | "SHR", [.register x, .register y] => some (combine .shiftRight x y)
  | "SUBN", [.register x, .register y] => some (combine .subtractFrom x y)
  | "SHL", [.register x, .register y] => some (combine .shiftLeft x y)
  | "RND", [.register x, .byte mask] => some (random x mask)
  | "DRW", [.register x, .register y, .nibble rows] => some (draw x y rows)
  | "SKP", [.register x] => some (skipIfPressed x)
  | "SKNP", [.register x] => some (skipUnlessPressed x)
  | _, _ => none

/-- The name and the operands leave no doubt about the instruction. -/
theorem ofParts?_parts (instruction : Instruction) :
    ofParts? instruction.name instruction.operands = some instruction := by
  cases instruction with
  | combine operation x y => cases operation <;> rfl
  | _ => rfl

end Instruction

/-! ### Sentences -/

namespace Mnemonic

/-- A name with operands behind it, set off by a blank and by commas. -/
def sentence (name : List Char) : List (List Char) → List Char
  | [] => name
  | operands => name ++ ' ' :: [',', ' '].intercalate operands

/-- The words of a sentence; a comma is no part of any. -/
def words (text : List Char) : List (List Char) :=
  (text.filter (· ≠ ',')).splitOn ' '

/-- A text that could be a word. -/
def Plain (text : List Char) : Prop :=
  ∀ letter ∈ text, letter ≠ ',' ∧ letter ≠ ' '

-- Named, because all characters could be gone through as well as the letters of the text.
instance (text : List Char) : Decidable (Plain text) :=
  List.decidableBAll _ text

variable {name text : List Char} {operands : List (List Char)}

theorem Plain.filter (plain : Plain text) : text.filter (· ≠ ',') = text := by
  rw [List.filter_eq_self]
  intro letter member
  exact decide_eq_true (plain letter member).1

theorem filter_intercalate (plain : ∀ text ∈ operands, Plain text) :
    ([',', ' '].intercalate operands).filter (· ≠ ',') = [' '].intercalate operands := by
  induction operands with
  | nil => rfl
  | cons first rest ih =>
      have plainFirst := (plain first List.mem_cons_self).filter
      cases rest with
      | nil =>
          rw [List.intercalate_singleton, List.intercalate_singleton]
          exact plainFirst
      | cons second others =>
          have plainRest : ∀ text ∈ second :: others, Plain text := fun text member =>
            plain text (List.mem_cons_of_mem first member)
          rw [List.intercalate_cons_cons, List.intercalate_cons_cons, List.filter_append,
            List.filter_append, plainFirst, ih plainRest]
          rfl

/-- The words of a sentence are its name and its operands. -/
theorem words_sentence (plainName : Plain name) (plain : ∀ text ∈ operands, Plain text) :
    words (sentence name operands) = name :: operands := by
  have spaced : (sentence name operands).filter (· ≠ ',') =
      [' '].intercalate (name :: operands) := by
    cases operands with
    | nil =>
        rw [List.intercalate_singleton]
        exact plainName.filter
    | cons first rest =>
        have blank : ∀ letters : List Char,
            (' ' :: letters).filter (· ≠ ',') = ' ' :: letters.filter (· ≠ ',') :=
          fun _ => rfl
        rw [sentence, List.filter_append, plainName.filter, blank, filter_intercalate plain,
          List.intercalate_cons_cons, List.append_assoc]
        · rfl
        · simp
  unfold words
  rw [spaced]
  apply List.splitOn_intercalate
  · intro text member blank
    rcases List.mem_cons.mp member with rfl | inOperands
    · exact (plainName ' ' blank).2 rfl
    · exact (plain text inOperands ' ' blank).2 rfl
  · exact List.cons_ne_nil name operands

theorem plain_hexChars (width : Nat) (value : Int) : Plain (Text.hexChars width value) := by
  have plainDigits : Plain Text.alphabet := by decide
  intro letter member
  rcases Text.mem_hexChars width value letter member with rfl | digit
  · decide
  · exact plainDigits letter digit

end Mnemonic

theorem Operand.plain_chars (operand : Operand) : Mnemonic.Plain operand.chars := by
  cases operand with
  | address target => exact Mnemonic.plain_hexChars 3 target.val
  | byte value => exact Mnemonic.plain_hexChars 2 value.toNat
  | nibble value => exact Mnemonic.plain_hexChars 1 value.val
  | register x =>
      revert x
      decide
  | _ => decide

namespace Instruction

theorem plain_name (instruction : Instruction) : Mnemonic.Plain instruction.name.toList := by
  cases instruction with
  | combine operation x y => cases operation <;> simp [name, Operation.name, Mnemonic.Plain]
  | _ => simp [name, Mnemonic.Plain]

/-- A mnemonic is the sentence made of the name and the operands of its instruction. -/
theorem mnemonic_chars (instruction : Instruction) :
    instruction.mnemonic.toList =
      Mnemonic.sentence instruction.name.toList (instruction.operands.map Operand.chars) := by
  cases instruction with
  | jumpOffset base =>
      simp [mnemonic, name, operands, Operand.chars, Mnemonic.sentence, Mnemonic.addressText,
        Text.hex]
      rfl
  | combine operation x y =>
      cases operation <;>
        simp [mnemonic, name, operands, Operand.chars, Mnemonic.sentence, Operation.name,
          RegisterIndex.name]
  | _ =>
      simp [mnemonic, name, operands, Operand.chars, Mnemonic.sentence, Mnemonic.addressText,
        RegisterIndex.name, Text.byteHex, Text.hex]

theorem words_mnemonic (instruction : Instruction) :
    Mnemonic.words instruction.mnemonic.toList =
      instruction.name.toList :: instruction.operands.map Operand.chars := by
  rw [mnemonic_chars]
  apply Mnemonic.words_sentence instruction.plain_name
  intro text member
  obtain ⟨operand, _, rfl⟩ := List.mem_map.mp member
  exact operand.plain_chars

end Instruction

/-! ### Reading -/

namespace Mnemonic

/-- The name that stands in front of the value of a word that is no instruction. -/
def unknown : String := "???"

/-- The word that a written form stands for. The value of a word that is no instruction is
marked with two letters. -/
def wordOf? (text : String) : Option Int :=
  match words text.toList with
  | [] => none
  | name :: operands =>
      if String.ofList name = unknown then
        operands.head?.map fun value => Text.integerOf (value.drop 2)
      else do
        let operands ← operands.mapM Operand.ofChars?
        let instruction ← Instruction.ofParts? (String.ofList name) operands
        return (instruction.assemble : Int)

theorem mapM_ofChars? (operands : List Operand) :
    (operands.map Operand.chars).mapM Operand.ofChars? = some operands := by
  rw [Text.mapM_map fun operand _ => operand.ofChars?_chars, List.map_id']

theorem wordOf?_mnemonic (instruction : Instruction) :
    wordOf? instruction.mnemonic = some (instruction.assemble : Int) := by
  have known : instruction.name ≠ unknown := by
    cases instruction with
    | combine operation x y =>
        cases operation <;> simp [Instruction.name, Operation.name, unknown]
    | _ => simp [Instruction.name, unknown]
  unfold wordOf?
  rw [instruction.words_mnemonic]
  dsimp only
  rw [String.ofList_toList, if_neg known, mapM_ofChars?]
  change (Instruction.ofParts? instruction.name instruction.operands).bind _ = _
  rw [instruction.ofParts?_parts]
  rfl

theorem wordOf?_unknown (word : Int) : wordOf? ("??? 0x" ++ Text.hex 4 word) = some word := by
  have written : ("??? 0x" ++ Text.hex 4 word).toList =
      sentence unknown.toList [['0', 'x'] ++ Text.hexChars 4 word] := by
    simp [unknown, sentence, Text.hex]
  have plain : Plain (['0', 'x'] ++ Text.hexChars 4 word) := by
    have marked : Plain ['0', 'x'] := by decide
    intro letter member
    rcases List.mem_append.mp member with mark | digit
    · exact marked letter mark
    · exact plain_hexChars 4 word letter digit
  have plainName : Plain unknown.toList := by simp [unknown, Plain]
  unfold wordOf?
  rw [written, words_sentence plainName (List.forall_mem_singleton.mpr plain)]
  dsimp only
  rw [String.ofList_toList, if_pos rfl]
  exact congrArg some (Text.integerOf_hexChars 4 word)

/-- Every integer is read from the form it is written in. -/
theorem wordOf?_disassemble (word : Int) : wordOf? (disassemble word) = some word := by
  unfold disassemble
  rw [ofWord?_eq]
  cases found : Instruction.ofWord? word with
  | none => exact wordOf?_unknown word
  | some instruction =>
      rw [← Instruction.assemble_of_ofWord? found]
      exact wordOf?_mnemonic instruction

example : wordOf? "LD V3, [I]" = some 0xF365 := by rfl
example : wordOf? "LD V3, f3" = some 0x63F3 := by rfl

end Mnemonic

/-- No two integers have the same written form, whatever their size and sign, and an assembler
reads each of them back. -/
theorem disassemble_lossless :
    (∀ a b : Int, disassemble a = disassemble b ↔ a = b) ∧
      ∀ word : Int, Mnemonic.wordOf? (disassemble word) = some word := by
  refine ⟨?_, Mnemonic.wordOf?_disassemble⟩
  intro a b
  constructor
  · intro same
    have read := Mnemonic.wordOf?_disassemble a
    rw [same, Mnemonic.wordOf?_disassemble, Option.some.injEq] at read
    exact read.symm
  · intro same
    rw [same]

end Chip8
