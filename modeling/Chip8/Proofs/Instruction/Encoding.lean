import Chip8.Instruction

/-!
Assembling: the word that an instruction is written as.

Reading a word is the exact inverse of assembling. A word stands for an instruction
exactly when it is the word of that instruction, so the words that stand for none are
those that no instruction assembles to. The engine agrees for every word that memory
can hold.
-/

namespace Chip8

def Operation.nibble : Operation → Digit
  | copy => Digit.zero
  | or => ⟨0x1, by decide⟩
  | and => ⟨0x2, by decide⟩
  | xor => ⟨0x3, by decide⟩
  | add => ⟨0x4, by decide⟩
  | subtract => ⟨0x5, by decide⟩
  | shiftRight => ⟨0x6, by decide⟩
  | subtractFrom => ⟨0x7, by decide⟩
  | shiftLeft => ⟨0xE, by decide⟩

theorem Operation.ofNibble?_nibble (operation : Operation) :
    ofNibble? operation.nibble = some operation := by
  cases operation <;> rfl

theorem Operation.nibble_of_ofNibble? {nibble : Digit} {operation : Operation}
    (found : ofNibble? nibble = some operation) : operation.nibble = nibble := by
  unfold ofNibble? at found
  split at found
  all_goals cases found
  all_goals rfl

/-! ### Words in parts -/

def addressWord (family : Nat) (address : Fin 4096) : Nat :=
  family * 4096 + address.val

def byteWord (family : Nat) (x : RegisterIndex) (value : UInt8) : Nat :=
  family * 4096 + x.val * 256 + value.toNat

def nibbleWord (family : Nat) (x y : RegisterIndex) (nibble : Digit) : Nat :=
  family * 4096 + x.val * 256 + y.val * 16 + nibble.val

/-- The word that an instruction is written as. -/
def Instruction.assemble : Instruction → Nat
  | clearScreen => 0x00E0
  | returnToCaller => 0x00EE
  | jump target => addressWord 0x1 target
  | call target => addressWord 0x2 target
  | skipIfByte x value => byteWord 0x3 x value
  | skipUnlessByte x value => byteWord 0x4 x value
  | skipIfSame x y => nibbleWord 0x5 x y Digit.zero
  | loadByte x value => byteWord 0x6 x value
  | addByte x value => byteWord 0x7 x value
  | combine operation x y => nibbleWord 0x8 x y operation.nibble
  | skipUnlessSame x y => nibbleWord 0x9 x y Digit.zero
  | loadIndex address => addressWord 0xA address
  | jumpOffset base => addressWord 0xB base
  | random x mask => byteWord 0xC x mask
  | draw x y rows => nibbleWord 0xD x y rows
  | skipIfPressed x => byteWord 0xE x 0x9E
  | skipUnlessPressed x => byteWord 0xE x 0xA1
  | readDelay x => byteWord 0xF x 0x07
  | awaitKey x => byteWord 0xF x 0x0A
  | setDelay x => byteWord 0xF x 0x15
  | setSound x => byteWord 0xF x 0x18
  | addToIndex x => byteWord 0xF x 0x1E
  | selectGlyph x => byteWord 0xF x 0x29
  | storeDecimal x => byteWord 0xF x 0x33
  | storeRegisters x => byteWord 0xF x 0x55
  | loadRegisters x => byteWord 0xF x 0x65

/-! ### The fields of a word in parts -/

namespace Fields

theorem family_addressWord (family : Nat) (address : Fin 4096) :
    (ofWord (addressWord family address)).family = family := by
  have below := address.isLt
  change ((family * 4096 + address.val : Nat) : Int) / 4096 = family
  omega

theorem address_addressWord (family : Nat) (address : Fin 4096) :
    (ofWord (addressWord family address)).address = address := by
  have below := address.isLt
  apply Fin.ext
  change (((family * 4096 + address.val : Nat) : Int) % 4096).toNat = address.val
  omega

theorem family_byteWord (family : Nat) (x : RegisterIndex) (value : UInt8) :
    (ofWord (byteWord family x value)).family = family := by
  have digit := x.isLt
  have byte := value.toNat_lt
  change ((family * 4096 + x.val * 256 + value.toNat : Nat) : Int) / 4096 = family
  omega

theorem x_byteWord (family : Nat) (x : RegisterIndex) (value : UInt8) :
    (ofWord (byteWord family x value)).x = x := by
  have digit := x.isLt
  have byte := value.toNat_lt
  apply Fin.ext
  change (((family * 4096 + x.val * 256 + value.toNat : Nat) : Int) / 256 % 16).toNat = x.val
  omega

theorem byte_byteWord (family : Nat) (x : RegisterIndex) (value : UInt8) :
    (ofWord (byteWord family x value)).byte = value := by
  have byte := value.toNat_lt
  have low : (((family * 4096 + x.val * 256 + value.toNat : Nat) : Int) % 256).toNat
      = value.toNat := by omega
  change UInt8.ofNat (((family * 4096 + x.val * 256 + value.toNat : Nat) : Int) % 256).toNat = value
  rw [low]
  exact UInt8.ofNat_toNat

theorem family_nibbleWord (family : Nat) (x y : RegisterIndex) (nibble : Digit) :
    (ofWord (nibbleWord family x y nibble)).family = family := by
  have first := x.isLt
  have second := y.isLt
  have third := nibble.isLt
  change ((family * 4096 + x.val * 256 + y.val * 16 + nibble.val : Nat) : Int) / 4096 = family
  omega

theorem x_nibbleWord (family : Nat) (x y : RegisterIndex) (nibble : Digit) :
    (ofWord (nibbleWord family x y nibble)).x = x := by
  have first := x.isLt
  have second := y.isLt
  have third := nibble.isLt
  apply Fin.ext
  change (((family * 4096 + x.val * 256 + y.val * 16 + nibble.val : Nat) : Int) / 256 % 16).toNat
    = x.val
  omega

theorem y_nibbleWord (family : Nat) (x y : RegisterIndex) (nibble : Digit) :
    (ofWord (nibbleWord family x y nibble)).y = y := by
  have second := y.isLt
  have third := nibble.isLt
  apply Fin.ext
  change (((family * 4096 + x.val * 256 + y.val * 16 + nibble.val : Nat) : Int) / 16 % 16).toNat
    = y.val
  omega

theorem nibble_nibbleWord (family : Nat) (x y : RegisterIndex) (nibble : Digit) :
    (ofWord (nibbleWord family x y nibble)).nibble = nibble := by
  have third := nibble.isLt
  apply Fin.ext
  change (((family * 4096 + x.val * 256 + y.val * 16 + nibble.val : Nat) : Int) % 16).toNat
    = nibble.val
  omega

end Fields

namespace Instruction

/-! ### Reading undoes assembling -/

/-- Above family 0 a word is read by its fields alone. -/
theorem ofWord?_of_le {word : Int} (above : 0x1000 ≤ word) :
    ofWord? word = ofFields? (Fields.ofWord word) := by
  unfold ofWord?
  rw [if_neg (by omega), if_neg (by omega)]

private theorem addressWord_above {family : Nat} (positive : 0 < family) (address : Fin 4096) :
    (0x1000 : Int) ≤ addressWord family address := by
  unfold addressWord
  omega

private theorem byteWord_above {family : Nat} (positive : 0 < family) (x : RegisterIndex)
    (value : UInt8) : (0x1000 : Int) ≤ byteWord family x value := by
  unfold byteWord
  omega

private theorem nibbleWord_above {family : Nat} (positive : 0 < family) (x y : RegisterIndex)
    (nibble : Digit) : (0x1000 : Int) ≤ nibbleWord family x y nibble := by
  unfold nibbleWord
  omega

theorem ofWord?_assemble (instruction : Instruction) :
    ofWord? instruction.assemble = some instruction := by
  cases instruction with
  | clearScreen => rfl
  | returnToCaller => rfl
  | jump target | call target | loadIndex target | jumpOffset target =>
      rw [assemble, ofWord?_of_le (addressWord_above (by decide) target), ofFields?,
        Fields.family_addressWord, Fields.address_addressWord]
      rfl
  | skipIfByte x value | skipUnlessByte x value | loadByte x value | addByte x value
  | random x value =>
      rw [assemble, ofWord?_of_le (byteWord_above (by decide) x value), ofFields?,
        Fields.family_byteWord, Fields.x_byteWord, Fields.byte_byteWord]
      rfl
  | skipIfSame x y | skipUnlessSame x y | draw x y rows =>
      rw [assemble, ofWord?_of_le (nibbleWord_above (by decide) x y _), ofFields?,
        Fields.family_nibbleWord, Fields.x_nibbleWord, Fields.y_nibbleWord,
        Fields.nibble_nibbleWord]
      rfl
  | combine operation x y =>
      rw [assemble, ofWord?_of_le (nibbleWord_above (by decide) x y _), ofFields?,
        Fields.family_nibbleWord, Fields.x_nibbleWord, Fields.y_nibbleWord,
        Fields.nibble_nibbleWord]
      change (Operation.ofNibble? operation.nibble).map (combine · x y) = _
      rw [Operation.ofNibble?_nibble]
      rfl
  | skipIfPressed x | skipUnlessPressed x =>
      rw [assemble, ofWord?_of_le (byteWord_above (by decide) x _), ofFields?,
        Fields.family_byteWord]
      change ofKeyFields? _ = _
      rw [ofKeyFields?, Fields.x_byteWord, Fields.byte_byteWord]
      rfl
  | readDelay x | awaitKey x | setDelay x | setSound x | addToIndex x | selectGlyph x
  | storeDecimal x | storeRegisters x | loadRegisters x =>
      rw [assemble, ofWord?_of_le (byteWord_above (by decide) x _), ofFields?,
        Fields.family_byteWord]
      change ofMiscellaneousFields? _ = _
      rw [ofMiscellaneousFields?, Fields.x_byteWord, Fields.byte_byteWord]
      rfl

/-! ### Assembling undoes reading -/

private theorem addressWord_fields {word : Int} {family : Nat}
    (isFamily : (Fields.ofWord word).family = family) :
    (addressWord family (Fields.ofWord word).address : Int) = word := by
  change word / 4096 = family at isFamily
  change ((family * 4096 + (word % 4096).toNat : Nat) : Int) = word
  omega

private theorem byteWord_fields {word : Int} {family : Nat} {value : UInt8}
    (isFamily : (Fields.ofWord word).family = family)
    (isByte : (Fields.ofWord word).byte = value) :
    (byteWord family (Fields.ofWord word).x value : Int) = word := by
  have low : value.toNat = (word % 256).toNat := by
    rw [← isByte]
    change (UInt8.ofNat (word % 256).toNat).toNat = (word % 256).toNat
    rw [UInt8.toNat_ofNat']
    omega
  change word / 4096 = family at isFamily
  change ((family * 4096 + (word / 256 % 16).toNat * 256 + value.toNat : Nat) : Int) = word
  omega

private theorem nibbleWord_fields {word : Int} {family : Nat} {nibble : Digit}
    (isFamily : (Fields.ofWord word).family = family)
    (isNibble : (Fields.ofWord word).nibble = nibble) :
    (nibbleWord family (Fields.ofWord word).x (Fields.ofWord word).y nibble : Int) = word := by
  have low : (nibble.val : Int) = word % 16 := by
    rw [← isNibble]
    exact Digit.val_lowest word
  change word / 4096 = family at isFamily
  change ((family * 4096 + (word / 256 % 16).toNat * 256 + (word / 16 % 16).toNat * 16
    + nibble.val : Nat) : Int) = word
  omega

private theorem assemble_of_ofKeyFields? {word : Int} {instruction : Instruction}
    (isFamily : (Fields.ofWord word).family = 0xE)
    (found : ofKeyFields? (Fields.ofWord word) = some instruction) :
    (instruction.assemble : Int) = word := by
  unfold ofKeyFields? at found
  split at found
  all_goals cases found
  all_goals exact byteWord_fields isFamily ‹_›

private theorem assemble_of_ofMiscellaneousFields? {word : Int} {instruction : Instruction}
    (isFamily : (Fields.ofWord word).family = 0xF)
    (found : ofMiscellaneousFields? (Fields.ofWord word) = some instruction) :
    (instruction.assemble : Int) = word := by
  unfold ofMiscellaneousFields? at found
  split at found
  all_goals cases found
  all_goals exact byteWord_fields isFamily ‹_›

private theorem assemble_of_ofFields? {word : Int} {instruction : Instruction}
    (found : ofFields? (Fields.ofWord word) = some instruction) :
    (instruction.assemble : Int) = word := by
  unfold ofFields? at found
  split at found
  case h_5 isFamily =>
      split at found
      · next isNibble => cases found; exact nibbleWord_fields isFamily isNibble
      · cases found
  case h_9 isFamily =>
      split at found
      · next isNibble => cases found; exact nibbleWord_fields isFamily isNibble
      · cases found
  case h_8 isFamily =>
      obtain ⟨operation, isOperation, rfl⟩ := Option.map_eq_some_iff.mp found
      exact nibbleWord_fields isFamily (Operation.nibble_of_ofNibble? isOperation).symm
  case h_14 isFamily => exact assemble_of_ofKeyFields? isFamily found
  case h_15 isFamily => exact assemble_of_ofMiscellaneousFields? isFamily found
  case h_16 => cases found
  case h_1 isFamily | h_2 isFamily | h_10 isFamily | h_11 isFamily =>
      cases found
      exact addressWord_fields isFamily
  case h_3 isFamily | h_4 isFamily | h_6 isFamily | h_7 isFamily | h_12 isFamily =>
      cases found
      exact byteWord_fields isFamily rfl
  case h_13 isFamily =>
      cases found
      exact nibbleWord_fields isFamily rfl

theorem assemble_of_ofWord? {word : Int} {instruction : Instruction}
    (found : ofWord? word = some instruction) : (instruction.assemble : Int) = word := by
  unfold ofWord? at found
  split at found
  · next isClear =>
      cases found
      exact isClear.symm
  · split at found
    · next isReturn =>
        cases found
        exact isReturn.symm
    · exact assemble_of_ofFields? found

/-- A word stands for the instruction that it is the word of, and for no other. -/
theorem ofWord?_eq_some_iff {word : Int} {instruction : Instruction} :
    ofWord? word = some instruction ↔ (instruction.assemble : Int) = word := by
  constructor
  · exact assemble_of_ofWord?
  · intro written
    rw [← written]
    exact ofWord?_assemble instruction

theorem ofWord?_eq_none_iff {word : Int} :
    ofWord? word = none ↔ ∀ instruction : Instruction, (instruction.assemble : Int) ≠ word := by
  rw [Option.eq_none_iff_forall_ne_some]
  exact forall_congr' fun instruction => not_congr ofWord?_eq_some_iff

/-- The engine reads the words that memory can hold as they are. -/
theorem carriedOut?_of_lt {word : Nat} (small : word < 0x10000) :
    carriedOut? word = ofWord? word := by
  unfold carriedOut? engineWord
  rw [if_pos (by omega)]

private theorem addressWord_lt {family : Nat} (digit : family < 16) (address : Fin 4096) :
    addressWord family address < 0x10000 := by
  unfold addressWord
  omega

private theorem byteWord_lt {family : Nat} (digit : family < 16) (x : RegisterIndex)
    (value : UInt8) : byteWord family x value < 0x10000 := by
  have byte := value.toNat_lt
  unfold byteWord
  omega

private theorem nibbleWord_lt {family : Nat} (digit : family < 16) (x y : RegisterIndex)
    (nibble : Digit) : nibbleWord family x y nibble < 0x10000 := by
  unfold nibbleWord
  omega

/-- Memory can hold the word of every instruction. -/
theorem assemble_lt (instruction : Instruction) : instruction.assemble < 0x10000 := by
  cases instruction with
  | clearScreen | returnToCaller => decide
  | jump target | call target | loadIndex target | jumpOffset target =>
      exact addressWord_lt (by decide) target
  | skipIfByte x value | skipUnlessByte x value | loadByte x value | addByte x value
  | random x value => exact byteWord_lt (by decide) x value
  | skipIfSame x y | skipUnlessSame x y | combine _ x y | draw x y rows =>
      exact nibbleWord_lt (by decide) x y _
  | skipIfPressed x | skipUnlessPressed x | readDelay x | awaitKey x | setDelay x | setSound x
  | addToIndex x | selectGlyph x | storeDecimal x | storeRegisters x | loadRegisters x =>
      exact byteWord_lt (by decide) x _

theorem carriedOut?_assemble (instruction : Instruction) :
    carriedOut? instruction.assemble = some instruction := by
  rw [carriedOut?_of_lt instruction.assemble_lt, ofWord?_assemble]

theorem assemble_awaitKey (x : RegisterIndex) :
    (awaitKey x).assemble = 0xF00A + 256 * x.val := by
  change 0xF * 4096 + x.val * 256 + 0x0A = 0xF00A + 256 * x.val
  omega

end Instruction

end Chip8
