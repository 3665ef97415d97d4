import Chip8.Proofs.Memory.Sized

/-!
Windows of memory.

A window is a stretch of cells from some address on; behind the last cell of memory it goes
on at the first. A window that is no longer than memory meets no cell twice. So what was
stored in it can be read from it again, and storing what it holds already changes nothing.
-/

namespace Chip8.Memory

/-- The cell that a window begins with is not met again. -/
theorem wrap_ne_of_pos (address : Int) {offset : Nat} (positive : 0 < offset)
    (inside : offset < 4096) : wrap address ≠ wrap (address + offset) := by
  unfold wrap
  omega

namespace Sized

variable {memory written : Memory} {address : Int} {values : List UInt8}

/-- Memory of full size is the same as soon as its bytes are. -/
theorem ext {other : Memory} (sized : memory.Sized) (otherSized : other.Sized)
    (same : ∀ place : Int, 0 ≤ place → other.byteAt place = memory.byteAt place) :
    other = memory := by
  have cells : other.bytes = memory.bytes := by
    apply Array.ext
    · rw [otherSized.cells, sized.cells]
    · intro place inOther inside
      have bytes := same place (Int.natCast_nonneg place)
      unfold byteAt at bytes
      rwa [Int.toNat_natCast, Array.getD_eq_getD_getElem?, Array.getD_eq_getD_getElem?,
        Array.getElem?_eq_getElem inOther, Array.getElem?_eq_getElem inside, Option.getD_some,
        Option.getD_some] at bytes
  have size : other.size = memory.size := otherSized.size.trans sized.size.symm
  cases other
  cases memory
  rw [mk.injEq]
  exact ⟨size, cells⟩

/-- A byte of a block that was stored stands where the block put it. -/
theorem byteAt_writeBlock_of_getElem? (sized : memory.Sized)
    (stored : memory.writeBlock address values = .ok written) (short : values.length ≤ 4096)
    {offset : Nat} {value : UInt8} (there : values[offset]? = some value) :
    written.byteAt (wrap (address + offset)) = value := by
  induction values generalizing memory address offset with
  | nil => cases there
  | cons first rest ih =>
      obtain ⟨next, isNext, storedRest⟩ := of_bind_ok stored
      rw [List.length_cons] at short
      cases offset with
      | zero =>
          rw [List.getElem?_cons_zero, Option.some.injEq] at there
          rw [Int.natCast_zero, Int.add_zero]
          -- None of the later bytes lands on the first cell.
          rw [(sized.write isNext).byteAt_writeBlock storedRest (wrap_nonneg address)]
          · rw [byteAt_write sized.room isNext (wrap_nonneg address), if_pos rfl, Byte.ofInt_toNat,
              there]
          · intro behind inside
            rw [Int.add_assoc, Int.add_comm 1, ← Int.natCast_add_one]
            exact wrap_ne_of_pos address (Nat.succ_pos behind) (by omega)
      | succ offset =>
          rw [List.getElem?_cons_succ] at there
          rw [Int.natCast_add_one, Int.add_comm (offset : Int), ← Int.add_assoc]
          exact ih (sized.write isNext) storedRest (by omega) there

/-- A window gives back what was stored in it. -/
theorem readBlock_of_writeBlock (sized : memory.Sized)
    (stored : memory.writeBlock address values = .ok written) (short : values.length ≤ 4096) :
    written.readBlock address values.length = .ok values := by
  rw [(sized.writeBlock_sized stored).readBlock_eq, Except.ok.injEq]
  apply List.ext_getElem
  · rw [List.length_map, List.length_range]
  · intro offset _ inside
    rw [List.getElem_map, List.getElem_range]
    exact sized.byteAt_writeBlock_of_getElem? stored short (List.getElem?_eq_getElem inside)

/-- What a window holds can be stored in it without a change. -/
theorem writeBlock_of_readBlock (sized : memory.Sized) {count : Nat}
    (read : memory.readBlock address count = .ok values) (short : count ≤ 4096) :
    memory.writeBlock address values = .ok memory := by
  obtain ⟨written, stored, writtenSized⟩ := sized.writeBlock address values
  rw [sized.readBlock_eq, Except.ok.injEq] at read
  have length : values.length = count := by rw [← read, List.length_map, List.length_range]
  have same : written = memory := by
    apply sized.ext writtenSized
    intro place nonneg
    by_cases met : ∃ offset < values.length, place = wrap (address + (offset : Nat))
    · obtain ⟨offset, inside, rfl⟩ := met
      apply sized.byteAt_writeBlock_of_getElem? stored (by omega)
      rw [← read, List.getElem?_map, List.getElem?_range (by omega), Option.map_some]
    · exact sized.byteAt_writeBlock stored nonneg fun offset inside here =>
        met ⟨offset, inside, here⟩
  rw [stored, same]

end Sized

end Chip8.Memory
