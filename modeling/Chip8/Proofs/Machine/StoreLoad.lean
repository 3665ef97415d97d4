import Chip8.Proofs.Machine.Reachable
import Chip8.Proofs.Memory.Window

/-!
Storing registers and loading them.

The registers up to some one are stored in a window of memory at the index register, one to
a cell, and they are loaded from such a window. Neither moves the index register, and sixteen
cells are never too many for memory. So each of the two undoes the other, also where the
window goes on at the first cell. The digits of a byte take a window of three.
-/

namespace Chip8

namespace Core

/-! ### The block that is stored -/

variable {core : Core} {x : RegisterIndex}

theorem length_registersUpTo (core : Core) (x : RegisterIndex) :
    (core.registersUpTo x).length = x.val + 1 :=
  core.stored_length (.storeRegisters x)

theorem getElem?_registersUpTo (core : Core) {y : RegisterIndex} (named : y ≤ x) :
    (core.registersUpTo x)[y.val]? = some (core.byte y) := by
  have early : y.val < x.val + 1 := Nat.lt_succ_of_le named
  unfold registersUpTo
  rw [List.getElem?_take_of_lt early, Vector.getElem?_toList, Vector.getElem?_eq_getElem y.isLt]
  rfl

/-- A block that has the registers in their order is the block that is stored. -/
theorem registersUpTo_eq {values : List UInt8} (length : values.length = x.val + 1)
    (bytes : ∀ y ≤ x, values[y.val]? = some (core.byte y)) : core.registersUpTo x = values := by
  apply List.ext_getElem?
  intro place
  by_cases named : place ≤ x.val
  · let y : RegisterIndex := ⟨place, Nat.lt_of_le_of_lt named x.isLt⟩
    change (core.registersUpTo x)[y.val]? = values[y.val]?
    rw [core.getElem?_registersUpTo named, bytes y named]
  · have further : x.val + 1 ≤ place := by omega
    rw [List.getElem?_eq_none (by rw [length_registersUpTo]; exact further),
      List.getElem?_eq_none (by rw [length]; exact further)]

/-- The digits of a byte are decimal, and they make it up. -/
theorem decimalDigits_exact (value : UInt8) :
    (value / 100).toNat ≤ 9 ∧ (value / 10 % 10).toNat ≤ 9 ∧ (value % 10).toNat ≤ 9 ∧
      100 * (value / 100).toNat + 10 * (value / 10 % 10).toNat + (value % 10).toNat =
        value.toNat := by
  have inside := value.toNat_lt
  simp only [UInt8.toNat_div, UInt8.toNat_mod, UInt8.reduceToNat]
  omega

/-! ### Carrying the two out -/

/-- A block that memory takes is stored, and nothing but the counter moves besides. -/
theorem advancing_storeBytes {values : List UInt8} {memory : Memory}
    (written : core.memory.writeBlock core.registers.index values = .ok memory) :
    core.advancing (core.storeBytes values) = .ok () { core with memory }.advance := by
  unfold storeBytes
  rw [written]
  rfl

/-- A block that memory gives is loaded into as many registers. -/
theorem perform_loadRegisters {values : List UInt8}
    (read : core.memory.readBlock core.registers.index (x.val + 1) = .ok values) :
    ∃ v : Vector UInt8 16,
      core.perform (.loadRegisters x) =
          .ok () { core with registers := { core.registers with v } }.advance ∧
        ∀ y : RegisterIndex, v.get y = values[y.val]?.getD (core.byte y) := by
  refine ⟨(core.registers.putAll values).v, ?_, fun y => Vector.getElem_ofFn y.isLt⟩
  rw [perform, loadBytes, read]
  rfl

/-- Storing registers puts each of them into the cell that its number says, and changes no other
cell. What was stored can be read from the window as one block. -/
theorem perform_storeRegisters (sized : core.memory.Sized) (x : RegisterIndex) :
    ∃ memory, core.perform (.storeRegisters x) = .ok () { core with memory }.advance ∧
      memory.readBlock core.registers.index (x.val + 1) = .ok (core.registersUpTo x) ∧
      (∀ y ≤ x, memory.byteAt ((core.registers.index + y.val) % 4096) = core.byte y) ∧
      ∀ address, 0 ≤ address → (∀ y ≤ x, address ≠ (core.registers.index + y.val) % 4096) →
        memory.byteAt address = core.memory.byteAt address := by
  obtain ⟨memory, written, _⟩ := sized.writeBlock core.registers.index (core.registersUpTo x)
  have length := core.length_registersUpTo x
  have few := x.isLt
  have short : (core.registersUpTo x).length ≤ 4096 := by omega
  refine ⟨memory, advancing_storeBytes written, ?_, ?_, ?_⟩
  · rw [← length]
    exact sized.readBlock_of_writeBlock written short
  · intro y named
    exact sized.byteAt_writeBlock_of_getElem? written short (core.getElem?_registersUpTo named)
  · intro address nonneg apart
    apply sized.byteAt_writeBlock written nonneg
    intro offset inside
    rw [length] at inside
    exact apart ⟨offset, by omega⟩ (Nat.le_of_lt_succ inside)

/-- A load of what another core has stored brings back the registers of that core. -/
theorem load_stored {between : Core}
    (read : between.memory.readBlock between.registers.index (x.val + 1) =
      .ok (core.registersUpTo x))
    (above : ∀ y, x < y → between.byte y = core.byte y) :
    ∃ loaded, between.perform (.loadRegisters x) = .ok () loaded ∧
      (∀ y, loaded.byte y = core.byte y) ∧
      loaded.registers.index = between.registers.index := by
  obtain ⟨v, performed, bytes⟩ := perform_loadRegisters read
  refine ⟨_, performed, ?_, rfl⟩
  intro y
  refine (bytes y).trans ?_
  by_cases named : y ≤ x
  · rw [core.getElem?_registersUpTo named, Option.getD_some]
  · have further : x < y := Fin.not_le.mp named
    rw [List.getElem?_eq_none (by rw [length_registersUpTo]; exact further), Option.getD_none]
    exact above y further

/-- What a load brought can be stored again without a change to memory. -/
theorem store_loaded (sized : core.memory.Sized) (x : RegisterIndex) :
    ∃ loaded stored, core.perform (.loadRegisters x) = .ok () loaded ∧
      loaded.perform (.storeRegisters x) = .ok () stored ∧ stored.memory = core.memory := by
  have few := x.isLt
  have read := sized.readBlock_eq core.registers.index (x.val + 1)
  generalize isBlock : (List.range (x.val + 1)).map _ = values at read
  have length : values.length = x.val + 1 := by
    rw [← isBlock, List.length_map, List.length_range]
  obtain ⟨v, performed, bytes⟩ := perform_loadRegisters read
  let loaded := { core with registers := { core.registers with v } }.advance
  have block : loaded.registersUpTo x = values := by
    apply registersUpTo_eq length
    intro y named
    have inside : y.val < values.length := by
      rw [length]
      exact Nat.lt_succ_of_le named
    have byte : loaded.byte y = _ := bytes y
    rw [byte, List.getElem?_eq_getElem inside, Option.getD_some]
  have written : loaded.memory.writeBlock loaded.registers.index (loaded.registersUpTo x) =
      .ok core.memory := by
    rw [block]
    exact sized.writeBlock_of_readBlock read (by omega)
  exact ⟨loaded, _, performed, advancing_storeBytes written, rfl⟩

theorem perform_storeDecimal (sized : core.memory.Sized) (x : RegisterIndex) :
    ∃ memory, core.perform (.storeDecimal x) = .ok () { core with memory }.advance ∧
      memory.readBlock core.registers.index 3 = .ok (decimalDigits (core.byte x)) := by
  obtain ⟨memory, written, _⟩ :=
    sized.writeBlock core.registers.index (decimalDigits (core.byte x))
  have short : (decimalDigits (core.byte x)).length ≤ 4096 := show 3 ≤ 4096 by decide
  exact ⟨memory, advancing_storeBytes written, sized.readBlock_of_writeBlock written short⟩

/-- Three digits that are loaded come into the first three registers. -/
theorem load_digits {value : UInt8}
    (read : core.memory.readBlock core.registers.index 3 = .ok (decimalDigits value)) :
    ∃ loaded, core.perform (.loadRegisters 2) = .ok () loaded ∧
      loaded.byte 0 = value / 100 ∧ loaded.byte 1 = value / 10 % 10 ∧
      loaded.byte 2 = value % 10 := by
  obtain ⟨v, performed, bytes⟩ := perform_loadRegisters (x := 2) read
  exact ⟨_, performed, bytes 0, bytes 1, bytes 2⟩

end Core

variable {Time : Type} [Scalar Time]

/-- Whatever state a machine is in, storing registers puts each of them into the cell that its
number says and changes no other cell, and a load that finds the same memory and the same index
brings them back, whatever has become of them. What a load brought can be stored again without a
change to memory. And the digits of a byte, stored and loaded, are decimal and make it up. -/
theorem Reachable.store_and_load_invert {settings : Settings} {program : List UInt8}
    {machine : Machine Time} (reachable : Reachable settings program machine)
    (x : RegisterIndex) :
    let before := machine.core
    let index := before.registers.index
    (∃ stored, (machine.execute (byteWord 0xF x 0x55)).attempt = .ok () stored ∧
      (∀ y, stored.core.byte y = before.byte y) ∧ stored.core.registers.index = index ∧
      (∀ y ≤ x, stored.core.memory.byteAt ((index + y.val) % 4096) = before.byte y) ∧
      (∀ address, 0 ≤ address → (∀ y ≤ x, address ≠ (index + y.val) % 4096) →
        stored.core.memory.byteAt address = before.memory.byteAt address) ∧
      ∀ between : Machine Time, between.core.memory = stored.core.memory →
        between.core.registers.index = index →
        (∀ y, x < y → between.core.byte y = before.byte y) →
        ∃ loaded, (between.execute (byteWord 0xF x 0x65)).attempt = .ok () loaded ∧
          (∀ y, loaded.core.byte y = before.byte y) ∧ loaded.core.registers.index = index) ∧
    (∃ loaded stored, (machine.execute (byteWord 0xF x 0x65)).attempt = .ok () loaded ∧
      (loaded.execute (byteWord 0xF x 0x55)).attempt = .ok () stored ∧
      stored.core.memory = before.memory) ∧
    ∃ stored, (machine.execute (byteWord 0xF x 0x33)).attempt = .ok () stored ∧
      stored.core.registers.index = index ∧
      ∀ between : Machine Time, between.core.memory = stored.core.memory →
        between.core.registers.index = index →
        ∃ loaded hundreds tens ones,
          (between.execute (byteWord 0xF 2 0x65)).attempt = .ok () loaded ∧
          (loaded.core.byte 0).toNat = hundreds ∧ (loaded.core.byte 1).toNat = tens ∧
          (loaded.core.byte 2).toNat = ones ∧ hundreds ≤ 9 ∧ tens ≤ 9 ∧ ones ≤ 9 ∧
          100 * hundreds + 10 * tens + ones = (before.byte x).toNat := by
  intro before index
  have sized := reachable.core_wellFormed.toBounded.memory
  refine ⟨?_, ?_, ?_⟩
  · obtain ⟨memory, stores, back, inside, outside⟩ := Core.perform_storeRegisters sized x
    have storing := Machine.attempt_of_perform stores
    refine ⟨_, storing, fun _ => rfl, rfl, inside, outside, ?_⟩
    intro between sameMemory sameIndex above
    have read : between.core.memory.readBlock between.core.registers.index (x.val + 1) =
        .ok (before.registersUpTo x) := by
      rw [sameMemory, sameIndex]
      exact back
    obtain ⟨loaded, loads, bytes, kept⟩ := Core.load_stored read above
    have loading := Machine.attempt_of_perform loads
    exact ⟨_, loading, bytes, kept.trans sameIndex⟩
  · obtain ⟨loaded, stored, loads, stores, same⟩ := Core.store_loaded sized x
    have loading := Machine.attempt_of_perform loads
    have again : (machine.withCore loaded).core.perform (.storeRegisters x) = .ok () stored :=
      stores
    have storing := Machine.attempt_of_perform again
    exact ⟨_, _, loading, storing, same⟩
  · obtain ⟨memory, stores, back⟩ := Core.perform_storeDecimal sized x
    have storing := Machine.attempt_of_perform stores
    refine ⟨_, storing, rfl, ?_⟩
    intro between sameMemory sameIndex
    have read : between.core.memory.readBlock between.core.registers.index 3 =
        .ok (Core.decimalDigits (before.byte x)) := by
      rw [sameMemory, sameIndex]
      exact back
    obtain ⟨loaded, loads, isHundreds, isTens, isOnes⟩ := Core.load_digits read
    have loading := Machine.attempt_of_perform loads
    have digits := Core.decimalDigits_exact (before.byte x)
    rw [← isHundreds, ← isTens, ← isOnes] at digits
    exact ⟨_, _, _, _, loading, rfl, rfl, rfl, digits⟩

/-- Two registers that are stored from the last cell of memory on. The second of them comes to
stand in the first cell, and it is found there again after it was cleared. -/
theorem store_and_load_invert_around_the_end :
    ∃ machine : Machine Rat,
      Machine.boot ⟨700, false, 0, [], false, "window"⟩ [0x61, 0x2A, 0xAF, 0xFF] = .ok machine ∧
        ∃ stored,
          (machine.step.state.step.state.execute (byteWord 0xF 1 0x55)).attempt =
              .ok () stored ∧
            stored.core.memory.byteAt 0xFFF = 0 ∧ stored.core.memory.byteAt 0 = 42 ∧
            ∃ loaded,
              ((stored.withCore (stored.core.put 1 0)).execute (byteWord 0xF 1 0x65)).attempt =
                  .ok () loaded ∧
                loaded.core.byte 1 = 42 := by
  obtain ⟨machine, started⟩ : ∃ machine : Machine Rat,
      Machine.boot ⟨700, false, 0, [], false, "window"⟩ [0x61, 0x2A, 0xAF, 0xFF] =
        .ok machine := ⟨_, rfl⟩
  have start : machine.core.waiting = none ∧ machine.core.byte 0 = 0 ∧
      machine.core.registers.counter = 0x200 := by
    obtain ⟨timers, interval, memory, _, _, _, rfl⟩ := Machine.boot_eq_ok_iff.mp started
    exact ⟨rfl, rfl, rfl⟩
  have image := Machine.boot_byteAt started
  let filled := machine.withCore (machine.core.put 1 42).advance.counted
  have fills : machine.core.fetch = .ok (Instruction.loadByte 1 42).assemble :=
    (Machine.boot_fetch started).trans (congrArg Except.ok (by decide))
  have atFilled : machine.step.state = filled :=
    Machine.step_of_perform start.1 fills rfl
  have reached := Reachable.step (.boot started)
  rw [atFilled] at reached
  have aims : filled.core.fetch = .ok (Instruction.loadIndex 0xFFF).assemble :=
    (reached.core_wellFormed.toBounded.fetch_of_bytes (congrArg (· + 2) start.2.2) (by decide)
      (image 2 rfl) (image 3 rfl)).trans (congrArg Except.ok (by decide))
  let ready := machine.withCore (filled.core.setIndex 0xFFF).advance.counted
  have idle : filled.core.waiting = none := start.1
  have atReady : filled.step.state = ready :=
    Machine.step_of_perform idle aims rfl
  have zeroth : ready.core.byte 0 = 0 :=
    (Registers.byte_put_of_ne machine.core.registers 42 (by decide)).trans start.2.1
  have first : ready.core.byte 1 = 42 := Registers.byte_put_self machine.core.registers 1 42
  have reachedReady := reached.step
  rw [atReady] at reachedReady
  obtain ⟨⟨stored, stores, bytes, index, window, _, loads⟩, _⟩ :=
    reachedReady.store_and_load_invert 1
  obtain ⟨loaded, isLoaded, restored, _⟩ := loads (stored.withCore (stored.core.put 1 0)) rfl index
    (by
      intro y above
      exact (Registers.byte_put_of_ne _ _ (Fin.ne_of_lt above)).trans (bytes y))
  refine ⟨machine, started, ?_⟩
  rw [atFilled, atReady]
  exact ⟨stored, stores, (window 0 (by decide)).trans zeroth, (window 1 (by decide)).trans first,
    loaded, isLoaded, (restored 1).trans first⟩

end Chip8
