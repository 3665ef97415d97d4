import Chip8.Listing
import Chip8.Proofs.Text.Hex

/-!
Reading the lines of a trace and of a listing.

Both kinds of line have a dash between blanks, and the written form of a word behind it. Numbers
are written without blanks, so there is no such dash in front of the form, even where an address
has a sign: what stands behind the first one is the whole written form and nothing else.
-/

namespace Chip8

/-- What a line of letters has behind its first dash that stands between blanks. -/
def behindDash : List Char → List Char
  | [] => []
  | letter :: rest =>
      if [' ', '-', ' '].isPrefixOf (letter :: rest) then rest.drop 2 else behindDash rest

/-- The written form that a line of a trace or of a listing shows. -/
def shownForm (line : String) : String :=
  String.ofList (behindDash line.toList)

/-- A line shows a word with question marks in place of an instruction. -/
def ShowsUnknown (line : String) : Prop :=
  (shownForm line).startsWith "???" = true

theorem behindDash_append {front : List Char} (solid : ' ' ∉ front) (rest : List Char) :
    behindDash (front ++ rest) = behindDash rest := by
  induction front with
  | nil => rfl
  | cons letter others ih =>
      rw [List.mem_cons, not_or] at solid
      obtain ⟨apart, solid⟩ := solid
      have starts : ¬ [' ', '-', ' '].isPrefixOf (letter :: (others ++ rest)) = true := by
        rw [List.isPrefixOf, beq_false_of_ne apart, Bool.false_and]
        exact Bool.false_ne_true
      rw [List.cons_append, behindDash, if_neg starts, ih solid]

/-- A blank in front of anything but a dash begins no dash. -/
theorem behindDash_blank {first : Char} (apart : first ≠ '-') (rest : List Char) :
    behindDash (' ' :: first :: rest) = behindDash (first :: rest) := by
  have starts : ¬ [' ', '-', ' '].isPrefixOf (' ' :: first :: rest) = true := by
    simp only [List.isPrefixOf, beq_false_of_ne apart.symm, Bool.false_and, Bool.and_false,
      Bool.false_eq_true, not_false_eq_true]
  rw [behindDash, if_neg starts]

theorem behindDash_dash (form : List Char) : behindDash (" - ".toList ++ form) = form := by
  have starts : [' ', '-', ' '].isPrefixOf (' ' :: '-' :: ' ' :: form) = true := by
    simp only [List.isPrefixOf, beq_self_eq_true, Bool.and_self]
  change behindDash (' ' :: '-' :: ' ' :: form) = form
  rw [behindDash, if_pos starts]
  rfl

theorem not_mem_hexChars_blank (width : Nat) (value : Int) : ' ' ∉ Text.hexChars width value := by
  intro member
  rcases Text.mem_hexChars width value ' ' member with sign | digit
  · revert sign
    decide
  · revert digit
    decide

/-- A line of a trace shows the written form of its word. -/
theorem shownForm_traceLine (address word : Int) :
    shownForm (traceLine address word) = disassemble word := by
  have letters : (traceLine address word).toList = Text.hexChars 4 address ++
      (" | OP 0x".toList ++ (Text.hexChars 4 word ++
        (" - ".toList ++ (disassemble word).toList))) := by
    unfold traceLine Text.hex
    simp only [String.toList_append, String.toList_ofList, List.append_assoc]
  have opened : ∀ rest : List Char, behindDash (" | OP 0x".toList ++ rest) = behindDash rest := by
    intro rest
    rfl
  unfold shownForm
  rw [letters, behindDash_append (not_mem_hexChars_blank 4 address), opened,
    behindDash_append (not_mem_hexChars_blank 4 word), behindDash_dash, String.ofList_toList]

/-- A line of a listing shows its text. -/
theorem shownForm_render (line : Listing.Line) : shownForm line.render = line.text := by
  have letters : line.render.toList = Text.hexChars 4 line.address ++
      (" | ".toList ++ (Text.hexChars 4 line.word ++ (" - ".toList ++ line.text.toList))) := by
    unfold Listing.Line.render Text.hex
    simp only [String.toList_append, String.toList_ofList, List.append_assoc]
  have opened : ∀ rest : List Char,
      behindDash (" | ".toList ++ (Text.hexChars 4 line.word ++ rest)) = behindDash rest := by
    intro rest
    obtain ⟨first, others, written⟩ :=
      List.exists_cons_of_ne_nil (Text.hexChars_natCast_ne_nil 4 line.word)
    have digit : first ≠ '-' := by
      rintro rfl
      have inAlphabet := Text.mem_alphabet_of_mem_hexChars 4 line.word '-'
      rw [written] at inAlphabet
      exact absurd (inAlphabet List.mem_cons_self) (by decide)
    rw [← behindDash_append (not_mem_hexChars_blank 4 line.word) rest, written]
    exact behindDash_blank digit (others ++ rest)
  unfold shownForm
  rw [letters, behindDash_append (not_mem_hexChars_blank 4 line.address), opened,
    behindDash_dash, String.ofList_toList]

end Chip8
