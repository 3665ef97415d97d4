import Chip8.Memory

/-!
Memory of full size.

Memory that has a cell for each of its 4096 addresses, and none besides, answers every
reduced address. So a block can always be read and always be stored, wherever it lies,
and neither storing nor loading a program changes how many cells there are. What a program
does not take the place of is the font, and zeros.
-/

namespace Chip8

/-- A span that is replaced by as many cells as it had leaves the array as long as it was. -/
theorem Span.size_replace {Cell : Type} {cells content : Array Cell} {start stop : Int}
    (lower : 0 ≤ start) (fits : stop = start + content.size) (upper : stop ≤ cells.size) :
    (replace cells start stop content).size = cells.size := by
  have first : bound cells.size start = start.toNat := bound_of_le lower (by omega)
  have last : bound cells.size stop = stop.toNat := bound_of_le (by omega) upper
  unfold replace
  simp only [first, last, Array.size_append, Array.size_extract]
  omega

/-- What a span was replaced by can be found where the span begins. -/
theorem Span.getElem?_replace {Cell : Type} {cells content : Array Cell} {start stop : Int}
    (lower : 0 ≤ start) (upper : start ≤ cells.size) {place : Nat} (inside : place < content.size) :
    (replace cells start stop content)[start.toNat + place]? = content[place]? := by
  have first : bound cells.size start = start.toNat := bound_of_le lower upper
  have before : (cells.extract 0 start.toNat).size = start.toNat := by
    rw [Array.size_extract]
    omega
  unfold replace
  simp only [first]
  rw [Array.append_assoc, Array.getElem?_append_right (by omega), before, Nat.add_sub_cancel_left,
    Array.getElem?_append_left inside]

/-- What lies in front of a span and behind it stays where it was. -/
theorem Span.getElem?_replace_outside {Cell : Type} {cells content : Array Cell} {start stop : Int}
    (lower : 0 ≤ start) (fits : stop = start + content.size) (upper : stop ≤ cells.size)
    {place : Nat} (outside : (place : Int) < start ∨ stop ≤ place) :
    (replace cells start stop content)[place]? = cells[place]? := by
  have first : bound cells.size start = start.toNat := bound_of_le lower (by omega)
  have last : bound cells.size stop = stop.toNat := bound_of_le (by omega) upper
  have ordered : max start.toNat stop.toNat = stop.toNat := by omega
  have before : (cells.extract 0 start.toNat).size = start.toNat := by
    rw [Array.size_extract]
    omega
  unfold replace
  simp only [first, last, ordered]
  rcases outside with inFront | behind
  · rw [Array.append_assoc, Array.getElem?_append_left (by omega), Array.getElem?_extract,
      if_pos (by omega), Nat.zero_add]
  · have filled : (cells.extract 0 start.toNat ++ content).size = stop.toNat := by
      rw [Array.size_append, before]
      omega
    have same : stop.toNat + (place - stop.toNat) = place := by omega
    rw [Array.getElem?_append_right (by omega), filled, Array.getElem?_extract, same]
    by_cases inside : place < cells.size
    · rw [if_pos (by omega)]
    · rw [if_neg (by omega), Array.getElem?_eq_none (by omega)]

namespace Memory

/-- A cell for each of the addresses that a program can form. -/
structure Sized (memory : Memory) : Prop where
  size : memory.size = Layout.memorySize
  cells : memory.bytes.size = Layout.memorySize

/-- Memory with room for the font has a cell for each of its addresses. -/
theorem ofSize_length {length : Nat} (room : 160 ≤ length) :
    (ofSize length).bytes.size = length := by
  have blank : (Array.replicate length (0 : UInt8)).size = length := Array.size_replicate
  have glyphs : Layout.font.toArray.size = 0x50 := rfl
  have fits : (Layout.fontStart + Layout.font.length : Int) ≤
      (Array.replicate length (0 : UInt8)).size := by
    rw [blank]
    exact Int.ofNat_le.mpr room
  unfold ofSize
  rw [Span.size_replace (Int.natCast_nonneg _) (by rw [glyphs]; rfl) fits, blank]

theorem ofSize_sized : (ofSize Layout.memorySize).Sized where
  size := rfl
  cells := ofSize_length (by decide)

/-- What memory holds before a program is copied in: the font, and zeros around it. -/
def initialByte (place : Nat) : UInt8 :=
  if 0x50 ≤ place ∧ place < 0xA0 then Layout.font.getD (place - 0x50) 0 else 0

theorem ofSize_getElem? {place : Nat} (inside : place < 4096) :
    (ofSize Layout.memorySize).bytes[place]? = some (initialByte place) := by
  have blank : (ofSize Layout.memorySize).bytes =
      Span.replace (Array.replicate 4096 0) 0x50 0xA0 Layout.font.toArray := rfl
  have room : (Array.replicate 4096 (0 : UInt8)).size = 4096 := Array.size_replicate
  have glyphs : Layout.font.length = 0x50 := rfl
  rw [blank]
  unfold initialByte
  split
  · next within =>
      obtain ⟨offset, rfl⟩ : ∃ offset, place = 0x50 + offset := ⟨place - 0x50, by omega⟩
      have found : (Span.replace (Array.replicate 4096 0) 0x50 0xA0
          Layout.font.toArray)[0x50 + offset]? = Layout.font.toArray[offset]? :=
        Span.getElem?_replace (by decide) (by omega) (by rw [List.size_toArray]; omega)
      rw [found, List.getElem?_toArray, Nat.add_sub_cancel_left, List.getD_eq_getElem?_getD,
        List.getElem?_eq_getElem (by omega), Option.getD_some]
  · next around =>
      rw [Span.getElem?_replace_outside (by decide) (by rw [List.size_toArray, glyphs]; rfl)
        (by omega) (by omega), Array.getElem?_replicate, if_pos inside]

/-- A program is taken exactly when it fits between its first address and the end. -/
theorem load_eq_ok_iff {memory loaded : Memory} {program : List UInt8} {position : Int}
    {name : String} :
    memory.load program position name = .ok loaded ↔
      program.length ≤ memory.size - position ∧
        loaded = { memory with
          bytes := Span.replace memory.bytes position (position + program.length)
            program.toArray } := by
  unfold load
  by_cases long : (program.length : Int) > memory.size - position
  · rw [if_pos long]
    simp only [reduceCtorEq, false_iff, not_and]
    intro fits
    omega
  · rw [if_neg long, Except.ok.injEq]
    constructor
    · intro same
      exact ⟨by omega, same.symm⟩
    · intro both
      exact both.2.symm

/-- A program that is too long for new memory is refused with its length and the room there is. -/
theorem ofSize_load_of_long {program : List UInt8} (long : 3584 < program.length) (name : String) :
    (ofSize Layout.memorySize).load program Layout.programStart name =
      .error (.unusableProgram name
        ("program is " ++ toString program.length ++ " bytes, only 3584 available")) := by
  have available : ((ofSize Layout.memorySize).size - Layout.programStart : Int) = 3584 := rfl
  have room : toString (3584 : Int) = "3584" := rfl
  have reason : " bytes, only 3584 available" = " bytes, only " ++ "3584" ++ " available" := rfl
  unfold load
  dsimp only
  rw [available, if_pos (by omega), room, reason]
  simp only [String.append_assoc]

namespace Sized

variable {memory : Memory}

theorem load {loaded : Memory} {program : List UInt8} {position : Int} {name : String}
    (sized : memory.Sized) (nonneg : 0 ≤ position)
    (taken : memory.load program position name = .ok loaded) : loaded.Sized := by
  obtain ⟨fits, rfl⟩ := load_eq_ok_iff.mp taken
  have size := sized.size
  have cells := sized.cells
  constructor
  · exact size
  · change (Span.replace memory.bytes position (position + program.length) program.toArray).size = _
    rw [Span.size_replace nonneg, cells]
    · rw [List.size_toArray]
    · omega

theorem room (sized : memory.Sized) : memory.size ≤ memory.bytes.size :=
  Nat.le_of_eq (sized.size.trans sized.cells.symm)

theorem byteAt_load {loaded : Memory} {program : List UInt8} {position : Int} {name : String}
    (sized : memory.Sized) (nonneg : 0 ≤ position)
    (taken : memory.load program position name = .ok loaded) (place : Nat) {byte : UInt8}
    (there : program[place]? = some byte) : loaded.byteAt (position + place) = byte := by
  obtain ⟨fits, rfl⟩ := load_eq_ok_iff.mp taken
  have size := sized.size
  have cells := sized.cells
  obtain ⟨inside, _⟩ := List.getElem?_eq_some_iff.mp there
  have found : (Span.replace memory.bytes position (position + program.length)
      program.toArray)[position.toNat + place]? = program.toArray[place]? :=
    Span.getElem?_replace nonneg (by omega) (by rw [List.size_toArray]; exact inside)
  have address : (position + (place : Int)).toNat = position.toNat + place := by omega
  unfold byteAt
  rw [Array.getD_eq_getD_getElem?, address, found, List.getElem?_toArray, there, Option.getD_some]

/-- A program that is loaded changes no byte but those it takes the place of. -/
theorem load_getElem?_outside {loaded : Memory} {program : List UInt8} {position : Int}
    {name : String} (sized : memory.Sized) (nonneg : 0 ≤ position)
    (taken : memory.load program position name = .ok loaded) {place : Nat}
    (outside : (place : Int) < position ∨ position + program.length ≤ place) :
    loaded.bytes[place]? = memory.bytes[place]? := by
  obtain ⟨fits, rfl⟩ := load_eq_ok_iff.mp taken
  have size := sized.size
  have cells := sized.cells
  exact Span.getElem?_replace_outside nonneg (by rw [List.size_toArray]) (by omega) outside

theorem holds_iff (sized : memory.Sized) {address : Int} :
    memory.Holds address ↔ 0 ≤ address ∧ address < 4096 := by
  unfold Holds
  rw [sized.size]
  rfl

theorem holds_wrap (sized : memory.Sized) (address : Int) : memory.Holds (wrap address) :=
  sized.holds_iff.mpr ⟨wrap_nonneg address, wrap_lt address⟩

theorem read_wrap (sized : memory.Sized) (address : Int) :
    memory.read (wrap address) = .ok (memory.byteAt (wrap address)) :=
  read_eq_ok_iff.mpr ⟨sized.holds_wrap address, rfl⟩

/-! ### Words -/

theorem readWord_inside (sized : memory.Sized) {address : Int} (nonneg : 0 ≤ address)
    (inside : address < 0xFFF) :
    memory.readWord address =
      .ok ((memory.byteAt address).toNat * 256 + (memory.byteAt (address + 1)).toNat) := by
  have high : memory.read address = .ok (memory.byteAt address) :=
    read_eq_ok_iff.mpr ⟨sized.holds_iff.mpr (by omega), rfl⟩
  have low : memory.read (address + 1) = .ok (memory.byteAt (address + 1)) :=
    read_eq_ok_iff.mpr ⟨sized.holds_iff.mpr (by omega), rfl⟩
  unfold readWord
  rw [high, low]
  rfl

theorem readWord_outside (sized : memory.Sized) {address : Int} (outside : 0xFFF ≤ address) :
    memory.readWord address = .error (.memoryOutOfBounds (max address 0x1000)) := by
  unfold readWord
  by_cases last : address = 0xFFF
  · subst last
    have high : memory.read 0xFFF = .ok (memory.byteAt 0xFFF) :=
      read_eq_ok_iff.mpr ⟨sized.holds_iff.mpr (by decide), rfl⟩
    have low : memory.read (0xFFF + 1) = .error (.memoryOutOfBounds 0x1000) :=
      read_eq_error_iff.mpr ⟨fun holds => by have := sized.holds_iff.mp holds; omega, rfl⟩
    rw [high]
    simp only [bind, Except.bind, low]
    rfl
  · have refused : memory.read address = .error (.memoryOutOfBounds address) :=
      read_eq_error_iff.mpr ⟨fun holds => by have := sized.holds_iff.mp holds; omega, rfl⟩
    rw [refused, show max address 0x1000 = address by omega]
    rfl

/-! ### Blocks -/

/-- Every block can be read: the addresses behind the last one go on at the first. -/
theorem readBlock_eq (sized : memory.Sized) (address : Int) (count : Nat) :
    memory.readBlock address count =
      .ok ((List.range count).map fun (offset : Nat) =>
        memory.byteAt (wrap (address + offset))) := by
  induction count generalizing address with
  | zero => rfl
  | succ count ih =>
      rw [readBlock_succ, sized.read_wrap, ih, List.range_succ_eq_map, List.map_cons, List.map_map]
      simp only [bind, Except.bind, pure, Except.pure, Except.ok.injEq, List.cons.injEq]
      refine ⟨by rw [Int.natCast_zero, Int.add_zero], List.map_congr_left fun offset _ => ?_⟩
      simp only [Function.comp_apply, Nat.succ_eq_add_one, Int.natCast_add, Int.natCast_one]
      rw [show address + 1 + (offset : Int) = address + (offset + 1) by omega]

theorem write {written : Memory} {address value : Int} (sized : memory.Sized)
    (stored : memory.write address value = .ok written) : written.Sized := by
  unfold Memory.write at stored
  split at stored
  · cases stored
    exact ⟨sized.size, by rw [Array.size_setIfInBounds]; exact sized.cells⟩
  · cases stored

theorem writeBlock (sized : memory.Sized) (address : Int) (values : List UInt8) :
    ∃ written, memory.writeBlock address values = .ok written ∧ written.Sized := by
  induction values generalizing memory address with
  | nil => exact ⟨memory, rfl, sized⟩
  | cons value rest ih =>
      have stored : ∃ next, memory.write (wrap address) value.toNat = .ok next := by
        unfold Memory.write
        rw [if_pos (sized.holds_wrap address)]
        exact ⟨_, rfl⟩
      obtain ⟨next, isNext⟩ := stored
      obtain ⟨written, isWritten, writtenSized⟩ := ih (sized.write isNext) (address + 1)
      refine ⟨written, ?_, writtenSized⟩
      rw [Memory.writeBlock, isNext]
      exact isWritten

theorem writeBlock_sized {written : Memory} {address : Int} {values : List UInt8}
    (sized : memory.Sized) (stored : memory.writeBlock address values = .ok written) :
    written.Sized := by
  obtain ⟨found, isFound, foundSized⟩ := sized.writeBlock address values
  rw [isFound, Except.ok.injEq] at stored
  rw [← stored]
  exact foundSized

/-- A block is stored nowhere but at its own addresses. -/
theorem byteAt_writeBlock {written : Memory} {address other : Int} {values : List UInt8}
    (sized : memory.Sized) (stored : memory.writeBlock address values = .ok written)
    (nonneg : 0 ≤ other)
    (apart : ∀ offset < values.length, other ≠ wrap (address + (offset : Nat))) :
    written.byteAt other = memory.byteAt other := by
  induction values generalizing memory address with
  | nil =>
      cases stored
      rfl
  | cons value rest ih =>
      rw [Memory.writeBlock] at stored
      cases first : memory.write (wrap address) value.toNat with
      | error fault =>
          rw [first] at stored
          cases stored
      | ok next =>
          rw [first] at stored
          have here : other ≠ wrap address := by
            have zeroth := apart 0 (Nat.zero_lt_succ _)
            rwa [Int.natCast_zero, Int.add_zero] at zeroth
          have kept := byteAt_write sized.room first nonneg
          rw [if_neg here] at kept
          rw [← kept]
          apply ih (sized.write first) stored
          intro offset inside
          have behind := apart (offset + 1) (Nat.succ_lt_succ inside)
          rwa [Int.natCast_add, Int.natCast_one, Int.add_comm (offset : Int),
            ← Int.add_assoc] at behind

end Sized

end Memory

end Chip8
