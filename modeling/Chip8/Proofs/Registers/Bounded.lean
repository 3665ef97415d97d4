import Chip8.Registers

/-!
Registers within their bounds.

The return stack keeps its sixteen slots, and each holds an address that a call can
leave behind: the fetch of the call had both bytes in memory, so the address after it
is at most 0x1000. The index register holds an address, the timers hold bytes. The
counter is left out here, since an instruction moves it last.
-/

namespace Chip8

structure ReturnStack.Bounded (stack : ReturnStack) : Prop where
  slots : stack.slots.size = Layout.stackDepth
  nonneg : 0 ≤ stack.pointer
  inside : stack.pointer ≤ 16
  addresses : ∀ address ∈ stack.slots, 0 ≤ address ∧ address ≤ 0x1000

namespace ReturnStack

theorem ofDepth_bounded : (ofDepth Layout.stackDepth).Bounded where
  slots := Array.size_replicate
  nonneg := Int.le_refl 0
  inside := by decide
  addresses := by
    intro address member
    obtain ⟨_, rfl⟩ := Array.mem_replicate.mp member
    decide

namespace Bounded

variable {stack : ReturnStack}

theorem push (bounded : stack.Bounded) {address : Int} (nonneg : 0 ≤ address)
    (upper : address ≤ 0x1000) (room : stack.pointer ≠ 16) :
    ∃ pushed, stack.push address = .ok () pushed ∧ pushed.Bounded := by
  obtain ⟨depth, lower, inside, addresses⟩ := bounded
  have slots : stack.slots.size = 16 := depth
  have place : stack.pointer.toNat < stack.slots.size := by omega
  refine ⟨_, push_of_room address lower place, ?_, ?_, ?_, ?_⟩
  · rw [Array.size_set, depth]
  · change 0 ≤ stack.pointer + 1
    omega
  · change stack.pointer + 1 ≤ 16
    omega
  · intro stored member
    change stored ∈ stack.slots.set stack.pointer.toNat address at member
    rcases Array.mem_or_eq_of_mem_set member with older | rfl
    · exact addresses stored older
    · exact ⟨nonneg, upper⟩

theorem push_full (bounded : stack.Bounded) (address : Int) (full : stack.pointer = 16) :
    stack.push address = .error (.stackOverflow 16) stack := by
  have depth : stack.slots.size = 16 := bounded.slots
  rw [ReturnStack.push_full address (by omega), full]

theorem pop (bounded : stack.Bounded) (filled : stack.pointer ≠ 0) :
    ∃ address popped, stack.pop = .ok address popped ∧ popped.Bounded ∧
      0 ≤ address ∧ address ≤ 0x1000 := by
  obtain ⟨depth, lower, inside, addresses⟩ := bounded
  have slots : stack.slots.size = 16 := depth
  have place : (stack.pointer - 1).toNat < stack.slots.size := by omega
  refine ⟨_, _, pop_of_filled (by omega) place, ⟨depth, ?_, ?_, addresses⟩,
    addresses _ (Array.getElem_mem place)⟩
  · change 0 ≤ stack.pointer - 1
    omega
  · change stack.pointer - 1 ≤ 16
    omega

theorem length_addresses (bounded : stack.Bounded) :
    (stack.addresses.length : Int) = stack.pointer := by
  have depth : stack.slots.size = 16 := bounded.slots
  have nonneg := bounded.nonneg
  have inside := bounded.inside
  rw [addresses_of_nonneg nonneg, List.length_take, Array.length_toList]
  omega

theorem addresses_of_push (bounded : stack.Bounded) {address : Int} {pushed : ReturnStack}
    (pushes : stack.push address = .ok () pushed) :
    pushed.addresses = stack.addresses ++ [address] := by
  have room : stack.pointer < stack.slots.size := by
    apply Int.not_le.mp
    intro full
    rw [ReturnStack.push, if_pos full] at pushes
    cases pushes
  obtain ⟨found, isFound, ends⟩ := addresses_push address bounded.nonneg room
  rw [isFound, EStateM.Result.ok.injEq] at pushes
  rw [← pushes.2]
  exact ends

theorem addresses_of_pop (bounded : stack.Bounded) {address : Int} {popped : ReturnStack}
    (pops : stack.pop = .ok address popped) :
    stack.addresses = popped.addresses ++ [address] := by
  have nonneg := bounded.nonneg
  have filled : stack.pointer ≠ 0 := by
    intro empty
    rw [ReturnStack.pop, if_pos empty] at pops
    cases pops
  have inside : stack.pointer ≤ stack.slots.size := by
    rw [bounded.slots]
    exact bounded.inside
  obtain ⟨newest, left, found, ends⟩ := addresses_pop (by omega) inside
  rw [found, EStateM.Result.ok.injEq] at pops
  rw [← pops.1, ← pops.2]
  exact ends

/-- What is popped is the newest address. -/
theorem newest_of_pop (bounded : stack.Bounded) {address : Int} {popped : ReturnStack}
    (pops : stack.pop = .ok address popped) : address = stack.addresses.getLastD 0 := by
  rw [bounded.addresses_of_pop pops, List.getLastD_concat]

end Bounded

end ReturnStack

/-- What a machine keeps of its registers beside the counter and the sixteen bytes. -/
structure Registers.Bounded (registers : Registers) : Prop where
  indexNonneg : 0 ≤ registers.index
  indexInside : registers.index ≤ 0xFFF
  stack : registers.stack.Bounded
  delayNonneg : 0 ≤ registers.delay
  delayInside : registers.delay ≤ 255
  soundNonneg : 0 ≤ registers.sound
  soundInside : registers.sound ≤ 255

namespace Registers

theorem ofDepth_bounded : (ofDepth Layout.stackDepth).Bounded where
  indexNonneg := Int.le_refl 0
  indexInside := by decide
  stack := ReturnStack.ofDepth_bounded
  delayNonneg := Int.le_refl 0
  delayInside := by decide
  soundNonneg := Int.le_refl 0
  soundInside := by decide

namespace Bounded

variable {registers : Registers}

theorem withBytes (bounded : registers.Bounded) (v : Vector UInt8 16) :
    Bounded { registers with v } :=
  { bounded with }

theorem withCounter (bounded : registers.Bounded) (counter : Int) :
    Bounded { registers with counter } :=
  { bounded with }

theorem withStack (bounded : registers.Bounded) {stack : ReturnStack} (kept : stack.Bounded) :
    Bounded { registers with stack } :=
  { bounded with stack := kept }

theorem withDelay (bounded : registers.Bounded) (value : UInt8) :
    Bounded { registers with delay := value.toNat } := by
  have below := value.toNat_lt
  exact { bounded with
    delayNonneg := Int.natCast_nonneg value.toNat
    delayInside := by change (value.toNat : Int) ≤ 255; omega }

theorem withSound (bounded : registers.Bounded) (value : UInt8) :
    Bounded { registers with sound := value.toNat } := by
  have below := value.toNat_lt
  exact { bounded with
    soundNonneg := Int.natCast_nonneg value.toNat
    soundInside := by change (value.toNat : Int) ≤ 255; omega }

theorem withIndex (bounded : registers.Bounded) {index : Int} (nonneg : 0 ≤ index)
    (inside : index ≤ 0xFFF) : Bounded { registers with index } :=
  { bounded with indexNonneg := nonneg, indexInside := inside }

theorem tick (bounded : registers.Bounded) : registers.tick.Bounded := by
  obtain ⟨indexNonneg, indexInside, stack, delayNonneg, delayInside, soundNonneg, soundInside⟩ :=
    bounded
  refine ⟨indexNonneg, indexInside, stack, ?_, ?_, ?_, ?_⟩
  all_goals
    unfold Registers.tick
    dsimp only
    split
    · omega
    · assumption

end Bounded

/-- Ticks count the two timers down and leave the rest alone. -/
theorem ticks_eq (registers : Registers) (count : Nat) :
    ∃ delay sound, count.repeat Registers.tick registers = { registers with delay, sound } := by
  induction count with
  | zero => exact ⟨registers.delay, registers.sound, rfl⟩
  | succ count ih =>
      obtain ⟨delay, sound, same⟩ := ih
      refine ⟨if delay > 0 then delay - 1 else delay, if sound > 0 then sound - 1 else sound, ?_⟩
      change Registers.tick (count.repeat Registers.tick registers) = _
      rw [same]
      rfl

/-- Ticks take the two timers down together, and neither below zero. -/
theorem ticks_closed {registers : Registers} (bounded : registers.Bounded) (count : Nat) :
    count.repeat Registers.tick registers =
      { registers with
        delay := max (registers.delay - count) 0
        sound := max (registers.sound - count) 0 } := by
  have delayNonneg := bounded.delayNonneg
  have soundNonneg := bounded.soundNonneg
  induction count with
  | zero =>
      have delay : max (registers.delay - (0 : Nat)) 0 = registers.delay := by omega
      have sound : max (registers.sound - (0 : Nat)) 0 = registers.sound := by omega
      rw [delay, sound]
      rfl
  | succ count ih =>
      change Registers.tick (count.repeat Registers.tick registers) = _
      rw [ih]
      unfold Registers.tick
      congr 1
      · dsimp only
        split <;> omega
      · dsimp only
        split <;> omega

end Registers

end Chip8
