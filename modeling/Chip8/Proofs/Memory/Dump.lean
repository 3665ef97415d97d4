import Chip8.Proofs.Memory.Sized
import Chip8.Proofs.Text.Hex
import Mathlib.Data.List.Basic

/-!
Reading a dump.

A dump is read as it is printed. The lines of the text are its rows, and the words of a line are
an address in front of a colon and then bytes, in two digits each. What is read is the stretch
that was asked for, cut off at the end of memory: every address once, in order, with the byte
that stands there. All rows but the last are full, and a stretch without addresses has no text.
-/

namespace Chip8.Memory

/-- A row of a dump: an address, and the bytes from there on. -/
structure DumpRow where
  address : Int
  bytes : List UInt8
deriving DecidableEq, Repr

namespace DumpRow

def entries (row : DumpRow) : List (Int × UInt8) :=
  row.bytes.mapIdx fun offset byte => (row.address + offset, byte)

def addressOf? (word : List Char) : Option Int :=
  let digits := word.dropLast
  if word.getLast? = some ':' ∧ digits ≠ [] ∧ digits.all (· ∈ Text.alphabet) then
    some (Text.valueOf digits)
  else none

def byteOf? (word : List Char) : Option UInt8 :=
  if word.length = 2 ∧ word.all (· ∈ Text.alphabet) then
    some (UInt8.ofNat (Text.valueOf word))
  else none

def ofChars? (line : List Char) : Option DumpRow :=
  match line.splitOn ' ' with
  | [] => none
  | first :: others => do
      let address ← addressOf? first
      let bytes ← others.mapM byteOf?
      return ⟨address, bytes⟩

end DumpRow

/-- The rows of a text. A text of no letters has none, not one that is empty. -/
def rowsOf? (text : String) : Option (List DumpRow) :=
  if text = "" then some [] else (text.toList.splitOn '\n').mapM DumpRow.ofChars?

/-- Rows that list a stretch of memory: each of its addresses once, in order, with the byte that
memory has there. -/
structure Lists (memory : Memory) (start stop : Int) (rows : List DumpRow) : Prop where
  addresses : (rows.flatMap DumpRow.entries).map Prod.fst =
    (List.range (stop - start).toNat).map fun (offset : Nat) => start + offset
  current : ∀ entry ∈ rows.flatMap DumpRow.entries, memory.read entry.1 = .ok entry.2
  filled : ∀ row ∈ rows, 0 < row.bytes.length ∧ row.bytes.length ≤ 16
  full : ∀ row ∈ rows.dropLast, row.bytes.length = 16

/-! ### Words -/

namespace DumpRow

theorem addressOf?_hexChars (width address : Nat) :
    addressOf? (Text.hexChars width address ++ [':']) = some (address : Int) := by
  have digits := Text.hexChars_natCast_ne_nil width address
  unfold addressOf?
  dsimp only
  rw [List.dropLast_concat, Text.valueOf_hexChars,
    if_pos ⟨List.getLast?_concat, digits, Text.all_mem_alphabet_hexChars width address⟩]

theorem byteOf?_hexChars (byte : UInt8) :
    byteOf? (Text.hexChars 2 byte.toNat) = some byte := by
  have two : (Text.hexChars 2 byte.toNat).length = 2 :=
    Text.length_hexChars 2 (by decide) byte.toNat_lt
  unfold byteOf?
  rw [if_pos ⟨two, Text.all_mem_alphabet_hexChars 2 byte.toNat⟩, Text.valueOf_hexChars,
    UInt8.ofNat_toNat]

/-! ### Lines -/

/-- The words of a row, as they are printed. -/
def words (row : DumpRow) : List (List Char) :=
  (Text.hexChars 4 row.address ++ [':']) :: row.bytes.map fun byte => Text.hexChars 2 byte.toNat

def chars (row : DumpRow) : List Char :=
  [' '].intercalate row.words

variable {row : DumpRow}

theorem not_mem_word {word : List Char} (nonneg : 0 ≤ row.address) (isWord : word ∈ row.words)
    {separator : Char} (apart : separator ∉ ':' :: Text.alphabet) : separator ∉ word := by
  intro inWord
  obtain ⟨address, isAddress⟩ := Int.eq_ofNat_of_zero_le nonneg
  rw [List.mem_cons, not_or] at apart
  obtain ⟨noColon, noDigit⟩ := apart
  rcases List.mem_cons.mp isWord with rfl | isCell
  · rw [isAddress] at inWord
    rcases List.mem_append.mp inWord with digit | colon
    · exact noDigit (Text.mem_alphabet_of_mem_hexChars 4 address separator digit)
    · exact noColon (List.mem_singleton.mp colon)
  · obtain ⟨byte, _, rfl⟩ := List.mem_map.mp isCell
    exact noDigit (Text.mem_alphabet_of_mem_hexChars 2 byte.toNat separator inWord)

theorem ofChars?_chars (nonneg : 0 ≤ row.address) : ofChars? row.chars = some row := by
  have split : row.chars.splitOn ' ' = row.words :=
    List.splitOn_intercalate ' ' (fun word isWord => not_mem_word nonneg isWord (by decide))
      (List.cons_ne_nil _ _)
  have bytes : (row.bytes.map fun byte => Text.hexChars 2 byte.toNat).mapM byteOf? =
      some row.bytes := by
    rw [Text.mapM_map fun byte _ => byteOf?_hexChars byte, List.map_id']
  obtain ⟨address, isAddress⟩ := Int.eq_ofNat_of_zero_le nonneg
  unfold ofChars?
  rw [split]
  unfold words
  dsimp only
  rw [isAddress, addressOf?_hexChars, bytes]
  change some (DumpRow.mk address row.bytes) = some row
  rw [← isAddress]

theorem not_mem_chars (nonneg : 0 ≤ row.address) : '\n' ∉ row.chars := by
  intro inLine
  rcases Text.mem_intercalate inLine with blank | ⟨word, isWord, inWord⟩
  · revert blank
    decide
  · exact not_mem_word nonneg isWord (by decide) inWord

end DumpRow

/-! ### Texts -/

/-- Rows are read back from a text that has each of them on a line of its own. -/
theorem rowsOf?_of_lines {text : String} {rows : List DumpRow}
    (written : text.toList = ['\n'].intercalate (rows.map DumpRow.chars))
    (nonneg : ∀ row ∈ rows, 0 ≤ row.address) : rowsOf? text = some rows := by
  cases rows with
  | nil =>
      have empty : text = "" := String.toList_eq_nil_iff.mp written
      unfold rowsOf?
      rw [if_pos empty]
  | cons first rest =>
      have lines : text.toList.splitOn '\n' = (first :: rest).map DumpRow.chars := by
        rw [written]
        apply List.splitOn_intercalate
        · intro line isLine
          obtain ⟨row, isRow, rfl⟩ := List.mem_map.mp isLine
          exact DumpRow.not_mem_chars (nonneg row isRow)
        · exact List.cons_ne_nil _ _
      have back : ∀ row ∈ first :: rest, DumpRow.ofChars? row.chars = some row :=
        fun row isRow => DumpRow.ofChars?_chars (nonneg row isRow)
      -- An empty text would be one line on which there is no row.
      have filled : text ≠ "" := by
        rintro rfl
        have blank : [] = first.chars := (List.cons.inj lines).1
        have read := back first List.mem_cons_self
        have unread : DumpRow.ofChars? [] = none := by decide
        rw [← blank, unread] at read
        cases read
      unfold rowsOf?
      rw [if_neg filled, lines, Text.mapM_map back, List.map_id']

/-! ### Stretches -/

/-- Rows of sixteen, the last cut off, make up a stretch. -/
theorem flatMap_rows (total count : Nat) :
    ((List.range count).flatMap fun index =>
      (List.range (min 16 (total - 16 * index))).map (16 * index + ·)) =
      List.range (min total (16 * count)) := by
  induction count with
  | zero => rw [Nat.mul_zero, Nat.min_zero, List.range_zero, List.flatMap_nil]
  | succ count ih =>
      rw [List.range_succ, List.flatMap_append, ih, List.flatMap_singleton]
      -- One row more adds what is left of the stretch, which may be nothing.
      rcases Nat.le_total total (16 * count) with past | inside
      · have none : min 16 (total - 16 * count) = 0 := by omega
        have same : min total (16 * (count + 1)) = min total (16 * count) := by omega
        rw [none, same, List.range_zero, List.map_nil, List.append_nil]
      · have reached : min total (16 * count) = 16 * count := by omega
        have next : min total (16 * (count + 1)) = 16 * count + min 16 (total - 16 * count) := by
          omega
        rw [reached, next, List.range_add]

/-- The row that a dump has for a stretch. -/
def rowBetween (memory : Memory) (first stop : Int) : DumpRow where
  address := first
  bytes := (Span.read memory.bytes first stop).toList

/-- An address with the byte there. -/
def entryAt (memory : Memory) (address : Int) : Int × UInt8 :=
  (address, memory.byteAt address)

variable {memory : Memory} {first start stop : Int}

theorem dumpRow_chars (filled : (memory.rowBetween first stop).bytes ≠ []) :
    (memory.dumpRow first stop).toList = (memory.rowBetween first stop).chars := by
  have cells : (Span.read memory.bytes first stop).toList.map (String.toList ∘ Text.byteHex) =
      (memory.rowBetween first stop).bytes.map fun byte => Text.hexChars 2 byte.toNat :=
    List.map_congr_left fun byte _ => String.toList_ofList
  -- Without a byte there would be a blank behind the colon and nothing after it.
  have set : (memory.rowBetween first stop).bytes.map
      (fun byte => Text.hexChars 2 byte.toNat) ≠ [] := mt List.map_eq_nil_iff.mp filled
  obtain ⟨second, others, isCells⟩ := List.exists_cons_of_ne_nil set
  unfold dumpRow DumpRow.chars DumpRow.words
  rw [String.toList_append, String.toList_append, String.toList_intercalate, List.map_map, cells,
    isCells, List.intercalate_cons_cons, Text.hex, String.toList_ofList, List.append_assoc,
    List.append_assoc, List.append_assoc]
  rfl

/-- The bytes between two positions are those at the addresses from the one up to the other. -/
theorem bytes_rowBetween (sized : memory.bytes.size = memory.size) (nonneg : 0 ≤ first)
    (ordered : first ≤ stop) (inside : stop ≤ memory.size) :
    (memory.rowBetween first stop).bytes =
      (List.range (stop - first).toNat).map fun (offset : Nat) =>
        memory.byteAt (first + offset) := by
  have lower : Span.bound memory.bytes.size first = first.toNat :=
    Span.bound_of_le nonneg (by omega)
  have upper : Span.bound memory.bytes.size stop = stop.toNat :=
    Span.bound_of_le (by omega) (by omega)
  unfold rowBetween Span.read byteAt
  dsimp only
  rw [lower, upper]
  apply List.ext_getElem
  · rw [Array.length_toList, Array.size_extract, List.length_map, List.length_range]
    omega
  · intro offset inRow inRange
    rw [Array.length_toList, Array.size_extract] at inRow
    have place : (first + (offset : Int)).toNat = first.toNat + offset := by omega
    rw [Array.getElem_toList, Array.getElem_extract, List.getElem_map, List.getElem_range, place,
      Array.getD_eq_getD_getElem?, Array.getElem?_eq_getElem (by omega), Option.getD_some]

theorem entries_rowBetween (sized : memory.bytes.size = memory.size) (nonneg : 0 ≤ first)
    (ordered : first ≤ stop) (inside : stop ≤ memory.size) :
    (memory.rowBetween first stop).entries =
      (List.range (stop - first).toNat).map fun (offset : Nat) =>
        memory.entryAt (first + offset) := by
  unfold DumpRow.entries
  rw [bytes_rowBetween sized nonneg ordered inside]
  apply List.ext_getElem
  · rw [List.length_mapIdx, List.length_map, List.length_map]
  · intro offset _ _
    rw [List.getElem_mapIdx, List.getElem_map, List.getElem_map, List.getElem_range]
    rfl

/-- A row of a dump that goes up to `stop`: sixteen bytes, or what is left. -/
def rowAt (memory : Memory) (start stop : Int) (index : Nat) : DumpRow :=
  memory.rowBetween (start + 16 * index) (min (start + 16 * index + 16) stop)

def rowsBetween (memory : Memory) (start stop : Int) : List DumpRow :=
  (List.range ((stop - start + 15) / 16).toNat).map (memory.rowAt start stop)

theorem mem_rowsBetween {row : DumpRow} (member : row ∈ memory.rowsBetween start stop) :
    ∃ index : Nat, start + 16 * index < stop ∧ row = memory.rowAt start stop index := by
  obtain ⟨index, inRange, rfl⟩ := List.mem_map.mp member
  have below := List.mem_range.mp inRange
  exact ⟨index, by omega, rfl⟩

/-- There is one row more behind a row that is not the last. -/
theorem mem_dropLast_rowsBetween {row : DumpRow}
    (member : row ∈ (memory.rowsBetween start stop).dropLast) :
    ∃ index : Nat, start + 16 * (index + 1) < stop ∧ row = memory.rowAt start stop index := by
  unfold rowsBetween at member
  rw [← List.map_dropLast, List.dropLast_eq_take, List.take_range, List.length_range] at member
  obtain ⟨index, inRange, rfl⟩ := List.mem_map.mp member
  have below := List.mem_range.mp inRange
  exact ⟨index, by omega, rfl⟩

section Rows

variable (sized : memory.bytes.size = memory.size) (nonneg : 0 ≤ start)
  (inside : stop ≤ memory.size)

include sized nonneg inside

theorem length_rowAt {index : Nat} (below : start + 16 * index < stop) :
    (memory.rowAt start stop index).bytes.length =
      min 16 ((stop - start).toNat - 16 * index) := by
  unfold rowAt
  rw [bytes_rowBetween sized (by omega) (by omega) (by omega), List.length_map, List.length_range]
  omega

theorem entries_rowAt {index : Nat} (below : start + 16 * index < stop) :
    (memory.rowAt start stop index).entries =
      ((List.range (min 16 ((stop - start).toNat - 16 * index))).map (16 * index + ·)).map
        fun (offset : Nat) => memory.entryAt (start + offset) := by
  have width : (min (start + 16 * index + 16) stop - (start + 16 * index)).toNat =
      min 16 ((stop - start).toNat - 16 * index) := by omega
  unfold rowAt
  rw [entries_rowBetween sized (by omega) (by omega) (by omega), width, List.map_map]
  apply List.map_congr_left
  intro offset _
  dsimp only [Function.comp_apply]
  rw [Int.natCast_add, Int.natCast_mul, ← Int.add_assoc]
  rfl

theorem entries_rowsBetween :
    (memory.rowsBetween start stop).flatMap DumpRow.entries =
      (List.range (stop - start).toNat).map fun (offset : Nat) =>
        memory.entryAt (start + offset) := by
  have complete : min (stop - start).toNat (16 * ((stop - start + 15) / 16).toNat) =
      (stop - start).toNat := by omega
  unfold rowsBetween
  rw [List.flatMap_map, ← complete, ← flatMap_rows, List.map_flatMap]
  apply List.flatMap_congr
  intro index member
  have below := List.mem_range.mp member
  exact entries_rowAt sized nonneg inside (by omega)

theorem rowsBetween_lists : memory.Lists start stop (memory.rowsBetween start stop) where
  addresses := by
    rw [entries_rowsBetween sized nonneg inside, List.map_map]
    rfl
  current := by
    intro entry member
    rw [entries_rowsBetween sized nonneg inside] at member
    obtain ⟨offset, inRange, rfl⟩ := List.mem_map.mp member
    have below := List.mem_range.mp inRange
    have holds : memory.Holds (start + (offset : Int)) := ⟨by omega, by omega⟩
    exact read_eq_ok_iff.mpr ⟨holds, rfl⟩
  filled := by
    intro row member
    obtain ⟨index, below, rfl⟩ := mem_rowsBetween member
    rw [length_rowAt sized nonneg inside below]
    omega
  full := by
    intro row member
    obtain ⟨index, below, rfl⟩ := mem_dropLast_rowsBetween member
    rw [length_rowAt sized nonneg inside (by omega)]
    omega

end Rows

/-- The lines of a dump are its rows. -/
theorem dump_chars (sized : memory.bytes.size = memory.size) (nonneg : 0 ≤ start) (length : Int) :
    (memory.dump start length).toList =
      ['\n'].intercalate
        ((memory.rowsBetween start (min (start + length) memory.size)).map DumpRow.chars) := by
  have lines : (memory.dumpRows start length).map String.toList =
      (memory.rowsBetween start (min (start + length) memory.size)).map DumpRow.chars := by
    unfold dumpRows rowsBetween
    rw [List.map_map, List.map_map]
    apply List.map_congr_left
    intro index member
    have below := List.mem_range.mp member
    apply dumpRow_chars
    rw [← List.length_pos_iff]
    exact ((rowsBetween_lists sized nonneg (by omega)).filled _ (List.mem_map_of_mem member)).1
  unfold dump
  rw [String.toList_intercalate, lines]
  rfl

/-- A dump is read back as the rows that list what was asked for, up to the end of memory. -/
theorem dump_read_back {memory : Memory} {start : Int} (length : Int)
    (sized : memory.bytes.size = memory.size) (nonneg : 0 ≤ start) :
    let stop := min (start + length) memory.size
    (∃ rows, rowsOf? (memory.dump start length) = some rows ∧ memory.Lists start stop rows) ∧
      (memory.dump start length = "" ↔ stop ≤ start) := by
  intro stop
  have lists : memory.Lists start stop (memory.rowsBetween start stop) :=
    rowsBetween_lists sized nonneg (by omega)
  have written := dump_chars sized nonneg length
  have read : rowsOf? (memory.dump start length) = some (memory.rowsBetween start stop) := by
    apply rowsOf?_of_lines written
    intro row member
    obtain ⟨index, _, rfl⟩ := mem_rowsBetween member
    exact Int.add_nonneg nonneg (Int.natCast_nonneg (16 * index))
  refine ⟨⟨_, read, lists⟩, ?_, ?_⟩
  · intro blank
    have none : memory.rowsBetween start stop = [] := by
      rw [blank] at read
      exact (Option.some.inj read).symm
    have addresses := lists.addresses
    rw [none] at addresses
    have empty := List.range_eq_nil.mp (List.map_eq_nil_iff.mp addresses.symm)
    omega
  · intro past
    have none : memory.rowsBetween start stop = [] := by
      have count : ((stop - start + 15) / 16).toNat = 0 := by omega
      unfold rowsBetween
      rw [count, List.range_zero, List.map_nil]
    rw [none] at written
    exact String.toList_eq_nil_iff.mp written

theorem dump_read_back_over_the_end :
    (∃ rows, rowsOf? ((ofSize 160).dump 143 100) = some rows ∧
        (ofSize 160).Lists 143 160 rows) ∧
      ((ofSize 160).dump 143 100 = "" ↔ (160 : Int) ≤ 143) :=
  dump_read_back 100 (ofSize_length (by decide)) (by decide)

example : (Memory.mk 18 (Array.replicate 18 7)).dump 1 20 =
    "0001: 07 07 07 07 07 07 07 07 07 07 07 07 07 07 07 07\n0011: 07" := by
  decide +kernel

end Chip8.Memory
