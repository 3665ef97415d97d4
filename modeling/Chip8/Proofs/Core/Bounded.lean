import Chip8.Core.Perform
import Chip8.Proofs.Memory.Sized
import Chip8.Proofs.Registers.Bounded

/-!
What an instruction can do to a bounded core.

An instruction that was fetched has both its bytes in memory, so its address is at most
0xFFE. From there it either completes and leaves the core within its bounds, or it is
one of the two that the return stack refuses and leaves the core exactly as it was.
-/

namespace Chip8.Core

/-- A core with its memory, its registers and its counter within their bounds. The counter
can get past the end of memory by a skip over the last word. -/
structure Bounded (core : Core) : Prop where
  memory : core.memory.Sized
  registers : core.registers.Bounded
  counterNonneg : 0 ≤ core.registers.counter
  counterInside : core.registers.counter ≤ 0x1002

/-- The instructions that a core refuses to carry out, and why. -/
def Refuses (core : Core) (fault : Fault) : Instruction → Prop
  | .call _ => core.registers.stack.pointer = 16 ∧ fault = .stackOverflow 16
  | .returnToCaller => core.registers.stack.pointer = 0 ∧ fault = .stackUnderflow
  | _ => False

/-! ### Changes that stay within the bounds -/

namespace Bounded

variable {core : Core}

theorem withRegisters (bounded : core.Bounded) {registers : Registers}
    (kept : registers.Bounded) (same : registers.counter = core.registers.counter) :
    Bounded { core with registers } where
  memory := bounded.memory
  registers := kept
  counterNonneg := by
    change 0 ≤ registers.counter
    rw [same]
    exact bounded.counterNonneg
  counterInside := by
    change registers.counter ≤ 0x1002
    rw [same]
    exact bounded.counterInside

theorem put (bounded : core.Bounded) (x : RegisterIndex) (value : UInt8) :
    (core.put x value).Bounded := by
  unfold Core.put modifyRegisters Registers.put
  exact bounded.withRegisters (bounded.registers.withBytes _) rfl

theorem putAll (bounded : core.Bounded) (values : List UInt8) :
    (core.modifyRegisters (·.putAll values)).Bounded := by
  unfold modifyRegisters Registers.putAll
  exact bounded.withRegisters (bounded.registers.withBytes _) rfl

theorem putFlagged (bounded : core.Bounded) (x : RegisterIndex) (value : UInt8) (flag : Bool) :
    (core.putFlagged x value flag).Bounded :=
  (bounded.put x value).put _ _

theorem withScreen (bounded : core.Bounded) (screen : Screen) : Bounded { core with screen } :=
  { bounded with }

theorem withRandom (bounded : core.Bounded) (random : Random.Twister) :
    Bounded { core with random } :=
  { bounded with }

theorem setCounter (bounded : core.Bounded) {counter : Int} (nonneg : 0 ≤ counter)
    (inside : counter ≤ 0x1002) : (core.setCounter counter).Bounded where
  memory := bounded.memory
  registers := bounded.registers.withCounter counter
  counterNonneg := nonneg
  counterInside := inside

theorem setIndex (bounded : core.Bounded) {index : Int} (nonneg : 0 ≤ index)
    (inside : index ≤ 0xFFF) : (core.setIndex index).Bounded :=
  bounded.withRegisters (bounded.registers.withIndex nonneg inside) rfl

theorem skipIf (bounded : core.Bounded) (fetched : core.registers.counter ≤ 0xFFE)
    (condition : Bool) : (core.skipIf condition).Bounded := by
  have nonneg := bounded.counterNonneg
  apply bounded.setCounter
  · cases condition
    · change 0 ≤ core.registers.counter + 2
      omega
    · change 0 ≤ core.registers.counter + 4
      omega
  · cases condition
    · change core.registers.counter + 2 ≤ 0x1002
      omega
    · change core.registers.counter + 4 ≤ 0x1002
      omega

theorem advance (bounded : core.Bounded) (fetched : core.registers.counter ≤ 0xFFE) :
    core.advance.Bounded :=
  bounded.skipIf fetched false

theorem combine (bounded : core.Bounded) (operation : Operation) (x y : RegisterIndex) :
    (core.combine operation x y).Bounded := by
  cases operation with
  | copy | or | and | xor => exact bounded.put x _
  | add | subtract | shiftRight | subtractFrom | shiftLeft => exact bounded.putFlagged x _ _

/-! ### Instructions that reach memory -/

theorem storeBytes (bounded : core.Bounded) (values : List UInt8) :
    ∃ stored, core.storeBytes values = .ok stored ∧ stored.Bounded ∧
      stored.registers = core.registers := by
  obtain ⟨memory, written, sized⟩ := bounded.memory.writeBlock core.registers.index values
  refine ⟨{ core with memory }, ?_, { bounded with memory := sized }, rfl⟩
  unfold Core.storeBytes
  rw [written]
  rfl

theorem sprite (bounded : core.Bounded) (rows : Nat) : ∃ sprite, core.sprite rows = .ok sprite :=
  ⟨_, bounded.memory.readBlock_eq core.registers.index rows⟩

theorem loadBytes (bounded : core.Bounded) (x : RegisterIndex) :
    ∃ values, core.loadBytes x = .ok (core.modifyRegisters (·.putAll values)) := by
  obtain ⟨values, found⟩ : ∃ values,
      core.memory.readBlock core.registers.index (x.val + 1) = .ok values :=
    ⟨_, bounded.memory.readBlock_eq _ _⟩
  refine ⟨values, ?_⟩
  unfold Core.loadBytes
  rw [found]
  rfl

end Bounded

/-- A random byte is one write to a register beside the new state of the generator. -/
theorem drawRandom_eq (core : Core) (x : RegisterIndex) (mask : UInt8) :
    core.drawRandom x mask =
      { core.put x (core.random.nextByte.1 &&& mask) with random := core.random.nextByte.2 } := by
  unfold drawRandom
  -- The draw itself stays closed: nothing here depends on what is drawn.
  cases core.random.nextByte
  rfl

theorem counter_putAll (core : Core) (values : List UInt8) :
    (core.modifyRegisters (·.putAll values)).registers.counter = core.registers.counter := by
  simp only [modifyRegisters, Registers.putAll]

theorem counter_combine (core : Core) (operation : Operation) (x y : RegisterIndex) :
    (core.combine operation x y).registers.counter = core.registers.counter := by
  cases operation <;> rfl

/-! ### Every instruction -/

theorem Bounded.perform_refused {core : Core} (bounded : core.Bounded) {fault : Fault}
    {instruction : Instruction} (refused : core.Refuses fault instruction) :
    core.perform instruction = .error fault core := by
  cases instruction with
  | call target =>
      obtain ⟨full, rfl⟩ := refused
      rw [Core.perform, Registers.push, bounded.registers.stack.push_full _ full]
      rfl
  | returnToCaller =>
      obtain ⟨empty, rfl⟩ := refused
      rw [Core.perform, Registers.pop, ReturnStack.pop_empty empty]
      rfl
  | _ => cases refused

/-- An instruction completes within the bounds, or the core refuses it and stays as it
was. -/
theorem Bounded.perform {core : Core} (bounded : core.Bounded)
    (fetched : core.registers.counter ≤ 0xFFE) (instruction : Instruction) :
    (∃ after, core.perform instruction = .ok () after ∧ after.Bounded) ∨
      ∃ fault, core.perform instruction = .error fault core ∧
        core.Refuses fault instruction := by
  have nonneg := bounded.counterNonneg
  cases instruction with
  | clearScreen => exact Or.inl ⟨_, rfl, (bounded.withScreen _).advance fetched⟩
  | returnToCaller =>
      by_cases empty : core.registers.stack.pointer = 0
      · exact Or.inr ⟨.stackUnderflow, bounded.perform_refused ⟨empty, rfl⟩, empty, rfl⟩
      · obtain ⟨target, stack, popped, kept, lower, upper⟩ := bounded.registers.stack.pop empty
        refine Or.inl ⟨{ core with registers := { core.registers with stack } }.setCounter target,
          ?_, ?_⟩
        · rw [Core.perform, Registers.pop, popped]
          rfl
        · exact (bounded.withRegisters (bounded.registers.withStack kept) rfl).setCounter lower
            (by omega)
  | call target =>
      have inside := target.isLt
      by_cases full : core.registers.stack.pointer = 16
      · exact Or.inr ⟨.stackOverflow 16, bounded.perform_refused ⟨full, rfl⟩, full, rfl⟩
      · -- Both bytes of the call were fetched, so the address behind it is at most 0x1000.
        have lower : 0 ≤ core.registers.counter + 2 := by omega
        have upper : core.registers.counter + 2 ≤ 0x1000 := by omega
        obtain ⟨stack, pushed, kept⟩ := bounded.registers.stack.push lower upper full
        refine Or.inl ⟨{ core with registers := { core.registers with stack } }.setCounter
          target.val, ?_, ?_⟩
        · rw [Core.perform, Registers.push, pushed]
          rfl
        · exact (bounded.withRegisters (bounded.registers.withStack kept) rfl).setCounter
            (by omega) (by omega)
  | jump target =>
      have inside := target.isLt
      exact Or.inl ⟨_, rfl, bounded.setCounter (by omega) (by omega)⟩
  | jumpOffset base =>
      have lower := Memory.wrap_nonneg (base.val + (core.byte Digit.zero).toNat)
      have upper := Memory.wrap_lt (base.val + (core.byte Digit.zero).toNat)
      exact Or.inl ⟨_, rfl, bounded.setCounter lower (by omega)⟩
  | skipIfByte x value | skipUnlessByte x value =>
      exact Or.inl ⟨_, rfl, bounded.skipIf fetched _⟩
  | skipIfSame x y | skipUnlessSame x y => exact Or.inl ⟨_, rfl, bounded.skipIf fetched _⟩
  | skipIfPressed x | skipUnlessPressed x => exact Or.inl ⟨_, rfl, bounded.skipIf fetched _⟩
  | loadByte x value | addByte x value => exact Or.inl ⟨_, rfl, (bounded.put x _).advance fetched⟩
  | readDelay x => exact Or.inl ⟨_, rfl, (bounded.put x _).advance fetched⟩
  | combine operation x y =>
      refine Or.inl ⟨_, rfl, (bounded.combine operation x y).advance ?_⟩
      rw [counter_combine]
      exact fetched
  | loadIndex address =>
      have inside := address.isLt
      exact Or.inl ⟨_, rfl, (bounded.setIndex (by omega) (by omega)).advance fetched⟩
  | addToIndex x =>
      have lower := Memory.wrap_nonneg (core.registers.index + (core.byte x).toNat)
      have upper := Memory.wrap_lt (core.registers.index + (core.byte x).toNat)
      exact Or.inl ⟨_, rfl, (bounded.setIndex lower (by omega)).advance fetched⟩
  | selectGlyph x =>
      have glyph : 0 ≤ Memory.glyphOf (core.byte x) ∧ Memory.glyphOf (core.byte x) ≤ 0xFFF := by
        unfold Memory.glyphOf Layout.fontStart Layout.glyphSize
        omega
      exact Or.inl ⟨_, rfl, (bounded.setIndex glyph.1 glyph.2).advance fetched⟩
  | random x mask =>
      refine Or.inl ⟨_, by rw [Core.perform, drawRandom_eq], ?_⟩
      exact ((bounded.put x _).withRandom _).advance fetched
  | awaitKey x => exact Or.inl ⟨_, rfl, { bounded with }⟩
  | setDelay x =>
      exact Or.inl ⟨_, rfl,
        (bounded.withRegisters (bounded.registers.withDelay (core.byte x)) rfl).advance fetched⟩
  | setSound x =>
      exact Or.inl ⟨_, rfl,
        (bounded.withRegisters (bounded.registers.withSound (core.byte x)) rfl).advance fetched⟩
  | draw x y rows =>
      obtain ⟨sprite, found⟩ := bounded.sprite rows.val
      refine Or.inl ⟨(core.paintSprite x y sprite).advance, ?_, ?_⟩
      · rw [Core.perform, found]
        rfl
      · exact ((bounded.withScreen _).put _ _).advance fetched
  | storeDecimal x | storeRegisters x =>
      obtain ⟨stored, isStored, kept, same⟩ := bounded.storeBytes _
      refine Or.inl ⟨stored.advance, ?_, kept.advance (by rw [same]; exact fetched)⟩
      rw [Core.perform, isStored]
      rfl
  | loadRegisters x =>
      obtain ⟨values, isLoaded⟩ := bounded.loadBytes x
      refine Or.inl ⟨(core.modifyRegisters (·.putAll values)).advance, ?_,
        (bounded.putAll values).advance (by rw [counter_putAll]; exact fetched)⟩
      rw [Core.perform, isLoaded]
      rfl

end Chip8.Core
