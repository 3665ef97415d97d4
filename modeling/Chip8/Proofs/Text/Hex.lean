import Chip8.Text.Hex

/-!
Reading hexadecimal text.

A text of hexadecimal digits stands for one number, with or without zeros in front. So the
digits of a number, filled up to any width and with a minus sign if it is negative, are read
back as that number. A number that fits the width fills it exactly.
-/

namespace Chip8.Text

def alphabet : List Char :=
  ['0', '1', '2', '3', '4', '5', '6', '7', '8', '9', 'a', 'b', 'c', 'd', 'e', 'f']

def digitValue (digit : Char) : Nat :=
  alphabet.idxOf digit

/-- The number that digits stand for, the most significant first. -/
def valueOf (digits : List Char) : Nat :=
  digits.foldl (fun value digit => 16 * value + digitValue digit) 0

/-- The integer that a text stands for: digits, behind a minus sign or not. -/
def integerOf : List Char → Int
  | '-' :: digits => -valueOf digits
  | digits => valueOf digits

/-! ### Digits -/

theorem digitValue_digitChar {value : Nat} (small : value < 16) :
    digitValue (Nat.digitChar value) = value := by
  have each : ∀ digit : Fin 16, digitValue (Nat.digitChar digit.val) = digit.val := by decide
  exact each ⟨value, small⟩

theorem digitChar_mem_alphabet {value : Nat} (small : value < 16) :
    Nat.digitChar value ∈ alphabet := by
  have each : ∀ digit : Fin 16, Nat.digitChar digit.val ∈ alphabet := by decide
  exact each ⟨value, small⟩

theorem valueOf_concat (digits : List Char) (last : Char) :
    valueOf (digits ++ [last]) = 16 * valueOf digits + digitValue last := by
  unfold valueOf
  rw [List.foldl_append]
  rfl

/-- Zeros in front add nothing. -/
theorem valueOf_zeros (count : Nat) (digits : List Char) :
    valueOf (List.replicate count '0' ++ digits) = valueOf digits := by
  induction count with
  | zero => rfl
  | succ count ih =>
      rw [List.replicate_succ, List.cons_append, ← ih]
      rfl

/-- The digits of a number, one more or one less. -/
theorem hexDigits_cases (value : Nat) :
    (value < 16 ∧ hexDigits value = [Nat.digitChar value]) ∨
      (16 ≤ value ∧ hexDigits value = hexDigits (value / 16) ++ [Nat.digitChar (value % 16)]) := by
  rcases Nat.lt_or_ge value 16 with small | large
  · exact Or.inl ⟨small, Nat.toDigits_of_lt_base small⟩
  · exact Or.inr ⟨large, Nat.toDigits_of_base_le (by decide) large⟩

theorem valueOf_hexDigits (value : Nat) : valueOf (hexDigits value) = value := by
  induction value using Nat.strongRecOn with
  | ind value ih =>
      rcases hexDigits_cases value with ⟨small, digits⟩ | ⟨large, digits⟩
      · rw [digits]
        exact (valueOf_concat [] _).trans (by rw [digitValue_digitChar small]; exact Nat.zero_add _)
      · have last : value % 16 < 16 := Nat.mod_lt _ (by decide)
        rw [digits, valueOf_concat, ih (value / 16) (by omega), digitValue_digitChar last]
        omega

theorem mem_alphabet_of_mem_hexDigits (value : Nat) :
    ∀ digit ∈ hexDigits value, digit ∈ alphabet := by
  induction value using Nat.strongRecOn with
  | ind value ih =>
      rcases hexDigits_cases value with ⟨small, digits⟩ | ⟨large, digits⟩
      · rw [digits]
        exact List.forall_mem_singleton.mpr (digitChar_mem_alphabet small)
      · have last : value % 16 < 16 := Nat.mod_lt _ (by decide)
        rw [digits]
        intro digit member
        rcases List.mem_append.mp member with earlier | isLast
        · exact ih (value / 16) (by omega) digit earlier
        · rw [List.mem_singleton.mp isLast]
          exact digitChar_mem_alphabet last

/-! ### Filled up -/

theorem hexChars_natCast (width value : Nat) :
    hexChars width value =
      List.replicate (width - (hexDigits value).length) '0' ++ hexDigits value := by
  have nonneg : ¬ (value : Int) < 0 := Int.not_lt.mpr (Int.natCast_nonneg value)
  unfold hexChars
  rw [if_neg nonneg]
  rfl

theorem hexChars_natCast_ne_nil (width value : Nat) : hexChars width value ≠ [] := by
  rw [hexChars_natCast]
  exact List.append_ne_nil_of_right_ne_nil _ Nat.toDigits_ne_nil

theorem mem_alphabet_of_mem_hexChars (width value : Nat) :
    ∀ digit ∈ hexChars width value, digit ∈ alphabet := by
  intro digit member
  rw [hexChars_natCast] at member
  rcases List.mem_append.mp member with zero | inDigits
  · rw [(List.mem_replicate.mp zero).2]
    decide
  · exact mem_alphabet_of_mem_hexDigits value digit inDigits

/-- Digits alone are written, as a reader tests it. -/
theorem all_mem_alphabet_hexChars (width value : Nat) :
    (hexChars width value).all (· ∈ alphabet) = true := by
  rw [List.all_eq_true]
  intro digit member
  exact decide_eq_true (mem_alphabet_of_mem_hexChars width value digit member)

theorem mem_hexChars (width : Nat) (value : Int) :
    ∀ digit ∈ hexChars width value, digit = '-' ∨ digit ∈ alphabet := by
  intro digit member
  unfold hexChars at member
  rcases List.mem_append.mp member with front | inDigits
  · rcases List.mem_append.mp front with sign | zero
    · left
      split at sign
      · exact List.mem_singleton.mp sign
      · cases sign
    · right
      rw [(List.mem_replicate.mp zero).2]
      decide
  · exact Or.inr (mem_alphabet_of_mem_hexDigits _ digit inDigits)

theorem valueOf_hexChars (width value : Nat) : valueOf (hexChars width value) = value := by
  rw [hexChars_natCast, valueOf_zeros, valueOf_hexDigits]

/-- A number that fits fills the width exactly. -/
theorem length_hexChars (width : Nat) {value : Nat} (positive : 0 < width)
    (fits : value < Nat.pow 16 width) : (hexChars width value).length = width := by
  have short : (hexDigits value).length ≤ width :=
    (Nat.length_toDigits_le_iff (by decide) positive).mpr fits
  rw [hexChars_natCast, List.length_append, List.length_replicate]
  omega

/-- Digits alone are read as the number that they stand for. -/
theorem integerOf_of_alphabet {digits : List Char} (all : ∀ digit ∈ digits, digit ∈ alphabet) :
    integerOf digits = valueOf digits := by
  unfold integerOf
  split
  · exact absurd (all '-' List.mem_cons_self) (by decide)
  · rfl

/-- Whatever its sign and whatever the width, an integer is read back from its text. -/
theorem integerOf_hexChars (width : Nat) (value : Int) :
    integerOf (hexChars width value) = value := by
  rcases Int.lt_or_le value 0 with negative | nonneg
  · unfold hexChars
    rw [if_pos negative]
    change (-valueOf (List.replicate _ '0' ++ hexDigits value.natAbs) : Int) = value
    rw [valueOf_zeros, valueOf_hexDigits]
    omega
  · obtain ⟨natural, rfl⟩ := Int.eq_ofNat_of_zero_le nonneg
    rw [integerOf_of_alphabet (mem_alphabet_of_mem_hexChars width natural), valueOf_hexChars]

/-! ### One after the other -/

/-- Texts of which each is read back as what it was written for are so read together. -/
theorem mapM_map {Item Written Value : Type} {read : Written → Option Value}
    {write : Item → Written} {value : Item → Value} {items : List Item}
    (back : ∀ item ∈ items, read (write item) = some (value item)) :
    (items.map write).mapM read = some (items.map value) := by
  induction items with
  | nil => rfl
  | cons item rest ih =>
      rw [List.map_cons, List.mapM_cons, back item List.mem_cons_self,
        ih fun other member => back other (List.mem_cons_of_mem item member)]
      rfl

/-- A letter of texts with a separator between them is a letter of one of them, or of the
separator. -/
theorem mem_intercalate {separator : List Char} {texts : List (List Char)} {letter : Char}
    (member : letter ∈ separator.intercalate texts) :
    letter ∈ separator ∨ ∃ text ∈ texts, letter ∈ text := by
  induction texts with
  | nil => cases member
  | cons first rest ih =>
      cases rest with
      | nil =>
          rw [List.intercalate_singleton] at member
          exact Or.inr ⟨first, List.mem_cons_self, member⟩
      | cons second others =>
          rw [List.intercalate_cons_cons, List.append_assoc] at member
          rcases List.mem_append.mp member with inFirst | behind
          · exact Or.inr ⟨first, List.mem_cons_self, inFirst⟩
          · rcases List.mem_append.mp behind with inSeparator | inRest
            · exact Or.inl inSeparator
            · rcases ih inRest with inSeparator | ⟨text, isText, inText⟩
              · exact Or.inl inSeparator
              · exact Or.inr ⟨text, List.mem_cons_of_mem first isText, inText⟩

end Chip8.Text
