import Chip8.Listing
import Chip8.Proofs.Machine.Binary64

/-!
Loaded programs.

A listing cuts the image of a program into words, and a machine that was started with the
image fetches words from its memory. Both see the same words at the same addresses. Only the
last byte of an odd image needs a second byte that the image does not have: the listing puts a
zero behind it, and in memory a zero lies there already, for the image ends on an even address
and so before the last cell.
-/

namespace Chip8

/-! ### The rows of a listing -/

namespace Listing

theorem length_words (image : List UInt8) : (words image).length = (image.length + 1) / 2 := by
  induction image using words.induct with
  | case1 => rfl
  | case2 high => rw [words, List.length_singleton, List.length_singleton]
  | case3 high low rest ih =>
      rw [words, List.length_cons, ih, List.length_cons, List.length_cons]
      omega

/-- A word is a byte at an even place with the one behind it, or with a zero. -/
theorem words_getElem? {image : List UInt8} {row : Nat} {high : UInt8}
    (first : image[2 * row]? = some high) :
    (words image)[row]? = some (wordOf high (image[2 * row + 1]?.getD 0)) := by
  induction image using words.induct generalizing row with
  | case1 => cases first
  | case2 only =>
      obtain ⟨inside, rfl⟩ := List.getElem?_eq_some_iff.mp first
      obtain rfl : row = 0 := by
        rw [List.length_singleton] at inside
        omega
      rfl
  | case3 even odd rest ih =>
      cases row with
      | zero =>
          cases first
          rfl
      | succ row =>
          rw [Nat.mul_succ] at first ⊢
          exact ih first

theorem linesFrom_getElem? (origin : Int) (words : List Nat) (row : Nat) :
    (linesFrom origin words)[row]? =
      words[row]?.map fun word => ⟨origin + 2 * row, word, disassemble word⟩ := by
  induction words generalizing origin row with
  | nil => rfl
  | cons word rest ih =>
      cases row with
      | zero =>
          rw [linesFrom, List.getElem?_cons_zero, List.getElem?_cons_zero, Option.map_some,
            Int.natCast_zero, Int.mul_zero, Int.add_zero]
      | succ row =>
          rw [linesFrom, List.getElem?_cons_succ, List.getElem?_cons_succ, ih,
            show origin + 2 + 2 * (row : Int) = origin + 2 * (row + 1 : Nat) by omega]

theorem length_linesFrom (origin : Int) (words : List Nat) :
    (linesFrom origin words).length = words.length := by
  induction words generalizing origin with
  | nil => rfl
  | cons word rest ih => rw [linesFrom, List.length_cons, List.length_cons, ih]

theorem length_ofProgram (image : List UInt8) (origin : Int) :
    (ofProgram image origin).length = (image.length + 1) / 2 := by
  unfold ofProgram
  rw [length_linesFrom, length_words]

/-- What a row of a listing says. -/
theorem ofProgram_row {image : List UInt8} {origin : Int} {row : Nat} {line : Line}
    (there : (ofProgram image origin)[row]? = some line) :
    ∃ high, image[2 * row]? = some high ∧
      line.address = origin + 2 * row ∧
        line.word = wordOf high (image[2 * row + 1]?.getD 0) := by
  obtain ⟨inside, _⟩ := List.getElem?_eq_some_iff.mp there
  rw [length_ofProgram] at inside
  have first : image[2 * row]? = some image[2 * row] := List.getElem?_eq_getElem (by omega)
  unfold ofProgram at there
  rw [linesFrom_getElem?, words_getElem? first, Option.map_some, Option.some.injEq] at there
  subst there
  exact ⟨_, first, rfl, rfl⟩

end Listing

/-! ### The memory of a new machine -/

namespace Machine

variable {Time : Type} [Scalar Time] {settings : Settings} {program : List UInt8}
  {machine : Machine Time}

/-- Around its program, a new machine holds what new memory does. -/
theorem boot_getElem?_outside (started : boot settings program = .ok machine) {place : Nat}
    (inside : place < 4096) (outside : place < 0x200 ∨ 0x200 + program.length ≤ place) :
    machine.core.memory.bytes[place]? = some (Memory.initialByte place) := by
  obtain ⟨timers, interval, memory, _, _, loaded, rfl⟩ := boot_eq_ok_iff.mp started
  have start : (Layout.programStart : Int) = 0x200 := rfl
  rw [← Memory.ofSize_getElem? inside]
  exact Memory.ofSize_sized.load_getElem?_outside (by decide) loaded (by omega)

/-- From the program start on, a new machine holds its program and then zeros. -/
theorem boot_byteAt_getD (started : boot settings program = .ok machine) {place : Nat}
    (inside : place < 3584) :
    machine.core.memory.byteAt (0x200 + place) = program[place]?.getD 0 := by
  cases there : program[place]? with
  | some byte => exact boot_byteAt started place there
  | none =>
      have behind := List.getElem?_eq_none_iff.mp there
      have address : (0x200 + (place : Int)).toNat = 0x200 + place := by omega
      have zero : Memory.initialByte (0x200 + place) = 0 := if_neg (by omega)
      unfold Memory.byteAt
      rw [Array.getD_eq_getD_getElem?, address,
        boot_getElem?_outside started (by omega) (by omega), zero]
      rfl

/-- A new machine reads the words that a listing of its program shows. -/
theorem boot_readWord_row (started : boot settings program = .ok machine) {row : Nat}
    {high : UInt8} (first : program[2 * row]? = some high) :
    machine.core.memory.readWord (0x200 + 2 * row) =
      .ok (Listing.wordOf high (program[2 * row + 1]?.getD 0)) := by
  have fits := (boots_iff.mp ⟨machine, started⟩).1
  obtain ⟨inside, _⟩ := List.getElem?_eq_some_iff.mp first
  have here : (0x200 + 2 * row : Int) = 0x200 + (2 * row : Nat) := by omega
  have next : (0x200 + (2 * row : Nat) + 1 : Int) = 0x200 + (2 * row + 1 : Nat) := by omega
  -- The room for a program is even, so a word that begins in it ends in it.
  rw [here, (boot_wellFormed started).memory.readWord_inside (by omega) (by omega), next,
    boot_byteAt_getD started (by omega), boot_byteAt_getD started (by omega), first]
  rfl

/-- A listing has a row for every word of a program, and its rows are what a machine that was
started with the program fetches. The machine starts exactly when the program is no longer than
what lies behind the program start. Its memory is the program, and around it the font and zeros. -/
theorem listing_shows_what_is_fetched {settings : Settings} (small : settings.speed < 2 ^ 1000)
    (program : List UInt8) :
    let lines := Listing.ofProgram program Layout.programStart
    lines.length = (program.length + 1) / 2 ∧
      (∀ (row : Nat) (line : Listing.Line), lines[row]? = some line →
        line.address = 0x200 + 2 * row) ∧
      (program.length ≤ 3584 → ∃ machine : Machine Float,
        boot settings program = .ok machine ∧
          (∀ (row : Nat) (line : Listing.Line), lines[row]? = some line →
            machine.core.memory.readWord (0x200 + 2 * row) = .ok line.word) ∧
          machine.core.memory.bytes.size = 4096 ∧
          (∀ (place : Nat) (byte : UInt8), program[place]? = some byte →
            machine.core.memory.byteAt (0x200 + place) = byte) ∧
          ∀ place < 4096, place < 0x200 ∨ 0x200 + program.length ≤ place →
            machine.core.memory.bytes[place]? = some (Memory.initialByte place)) ∧
      (3584 < program.length →
        (boot settings program : Except Fault (Machine Float)) =
          .error (.unusableProgram settings.name
            ("program is " ++ toString program.length ++ " bytes, only 3584 available"))) := by
  intro lines
  refine ⟨Listing.length_ofProgram program _, ?_, ?_, ?_⟩
  · intro row line there
    obtain ⟨_, _, address, _⟩ := Listing.ofProgram_row there
    exact address
  · intro fits
    rcases boot_cases small program with ⟨_, machine, started, _⟩ | ⟨long, _⟩
    · refine ⟨machine, started, ?_, (boot_wellFormed started).memory.cells, ?_, ?_⟩
      · intro row line there
        obtain ⟨high, first, _, word⟩ := Listing.ofProgram_row there
        rw [word]
        exact boot_readWord_row started first
      · intro place byte there
        exact boot_byteAt started place there
      · intro place inside outside
        exact boot_getElem?_outside started inside outside
    · omega
  · intro long
    rcases boot_cases small program with ⟨fits, _⟩ | ⟨_, refused⟩
    · omega
    · exact refused

/-- A program of three bytes: the last of them is fetched with a zero behind it. -/
theorem listing_shows_what_is_fetched_when_odd :
    Listing.ofProgram [0x12, 0x00, 0x60] Layout.programStart =
        [⟨0x200, 0x1200, "JP 200"⟩, ⟨0x202, 0x6000, "LD V0, 00"⟩] ∧
      ∃ machine : Machine Float,
        boot ⟨500, false, 0, [], false, "odd"⟩ [0x12, 0x00, 0x60] = .ok machine ∧
          machine.core.memory.readWord 0x202 = .ok 0x6000 := by
  have cut : Listing.words [0x12, 0x00, 0x60] = [0x1200, 0x6000] := by rfl
  have jump : disassemble 0x1200 = "JP 200" := by rfl
  have copy : disassemble 0x6000 = "LD V0, 00" := by rfl
  have listed : Listing.ofProgram [0x12, 0x00, 0x60] Layout.programStart =
      [⟨0x200, 0x1200, "JP 200"⟩, ⟨0x202, 0x6000, "LD V0, 00"⟩] := by
    unfold Listing.ofProgram
    rw [cut, Listing.linesFrom, Listing.linesFrom, Listing.linesFrom]
    simp only [Nat.cast_ofNat, jump, copy]
    rfl
  have small : (⟨500, false, 0, [], false, "odd"⟩ : Settings).speed < 2 ^ 1000 :=
    defaultSpeed_small
  obtain ⟨_, _, starts, _⟩ := listing_shows_what_is_fetched small [0x12, 0x00, 0x60]
  obtain ⟨machine, started, fetched, _⟩ := starts (by decide)
  refine ⟨listed, machine, started, ?_⟩
  rw [listed] at fetched
  exact fetched 1 ⟨0x202, 0x6000, "LD V0, 00"⟩ rfl

end Machine

end Chip8
