/-!
Hexadecimal digits, which number the registers and the keys and fill the fields of an
instruction.
-/

namespace Chip8

abbrev Digit : Type := Fin 16

namespace Digit

def zero : Digit := 0x0

def last : Digit := 0xF

def ofInt? (number : Int) : Option Digit :=
  if inside : 0 ≤ number ∧ number < 16 then some ⟨number.toNat, by omega⟩ else none

/-- The lowest digit of a number; a negative number is taken in two's complement. -/
def lowest (number : Int) : Digit :=
  ⟨(number % 16).toNat, by omega⟩

def rows : List (List Digit) :=
  [[0x0, 0x1, 0x2, 0x3], [0x4, 0x5, 0x6, 0x7], [0x8, 0x9, 0xA, 0xB], [0xC, 0xD, 0xE, 0xF]]

theorem val_lowest (number : Int) : ((lowest number).val : Int) = number % 16 := by
  unfold lowest
  simp only
  omega

theorem ofInt?_val (digit : Digit) : ofInt? digit.val = some digit := by
  unfold ofInt?
  have below := digit.isLt
  rw [dif_pos (by omega)]
  rfl

theorem ofInt?_eq_none_iff {number : Int} :
    ofInt? number = none ↔ number < 0 ∨ 16 ≤ number := by
  unfold ofInt?
  split
  · simp only [reduceCtorEq, false_iff]
    omega
  · simp only [true_iff]
    omega

end Digit

end Chip8
