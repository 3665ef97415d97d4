import Chip8.Proofs.Core.Replay

/-!
What an instruction leaves alone, and where it goes on.

Beside the sixteen registers and the cells that it stores, an instruction changes at most
one part of the core. It goes on at its target if it jumps, two bytes further if it skips,
and at the next instruction otherwise.
-/

namespace Chip8

/-- The parts of a core that few instructions change. The wait for a key is one part with
what the keypad tells of it. -/
inductive Part
  | screen
  | stack
  | delay
  | sound
  | index
  | wait
  | generator
deriving DecidableEq, Repr

/-- Whether an operation has a carry, a borrow or a bit shifted out to tell. -/
def Operation.flags : Operation → Bool
  | copy | or | and | xor => false
  | add | subtract | shiftRight | subtractFrom | shiftLeft => true

namespace Instruction

/-- The part that an instruction changes, if any. -/
def part? : Instruction → Option Part
  | clearScreen | draw .. => some .screen
  | call _ | returnToCaller => some .stack
  | setDelay _ => some .delay
  | setSound _ => some .sound
  | loadIndex _ | addToIndex _ | selectGlyph _ => some .index
  | awaitKey _ => some .wait
  | random .. => some .generator
  | _ => none

/-- How many cells an instruction stores, from the index register on. -/
def cells : Instruction → Nat
  | storeDecimal _ => 3
  | storeRegisters x => x.val + 1
  | _ => 0

/-- Whether an instruction has a result for a register. -/
def writes (y : RegisterIndex) : Instruction → Bool
  | loadByte x _ | addByte x _ | random x _ | readDelay x => y == x
  | combine operation x _ => y == x || operation.flags && y == Layout.flagRegister
  | draw .. => y == Layout.flagRegister
  | loadRegisters x => y ≤ x
  | _ => false

end Instruction

namespace Core

/-- Whether the next instruction is skipped. -/
def skips (core : Core) : Instruction → Bool
  | .skipIfByte x value => core.byte x == value
  | .skipUnlessByte x value => core.byte x != value
  | .skipIfSame x y => core.byte x == core.byte y
  | .skipUnlessSame x y => core.byte x != core.byte y
  | .skipIfPressed x => core.keypad.isDown (core.byte x)
  | .skipUnlessPressed x => !core.keypad.isDown (core.byte x)
  | _ => false

/-- Where the core goes on behind an instruction. -/
def target (core : Core) : Instruction → Int
  | .jump target | .call target => target.val
  | .jumpOffset base => Memory.wrap (base.val + (core.byte Digit.zero).toNat)
  | .returnToCaller => core.registers.stack.addresses.getLastD 0
  | .awaitKey _ => core.registers.counter
  | instruction => core.registers.counter + if core.skips instruction then 4 else 2

/-- A core with its memory, its sixteen registers, its counter and at most one part besides
as they are in another. -/
def taking (core other : Core) (part : Option Part) : Core :=
  let base := { core with
    memory := other.memory
    registers := { core.registers with
      v := other.registers.v
      counter := other.registers.counter } }
  match part with
  | none => base
  | some .screen => { base with screen := other.screen }
  | some .stack => base.modifyRegisters ({ · with stack := other.registers.stack })
  | some .delay => base.modifyRegisters ({ · with delay := other.registers.delay })
  | some .sound => base.modifyRegisters ({ · with sound := other.registers.sound })
  | some .index => base.modifyRegisters ({ · with index := other.registers.index })
  | some .wait =>
      { base with
        waiting := other.waiting
        keypad := { core.keypad with fresh := other.keypad.fresh } }
  | some .generator => { base with random := other.random }

/-- One core comes from another by an instruction, with nothing changed beside what the
instruction is for. -/
structure Framed (before : Core) (instruction : Instruction) (after : Core) : Prop where
  memory : ∀ address, 0 ≤ address →
    (∀ offset < instruction.cells,
      address ≠ Memory.wrap (before.registers.index + (offset : Nat))) →
    after.memory.byteAt address = before.memory.byteAt address
  sized : after.memory.Sized
  bytes : ∀ x, instruction.writes x = false → after.byte x = before.byte x
  counter : after.registers.counter = before.target instruction
  rest : after = before.taking after instruction.part?

variable {core after : Core} {instruction : Instruction}

/-! ### Instructions that can be refused -/

theorem of_advancing {attempt : Except Fault Core}
    (performed : core.advancing attempt = .ok () after) :
    ∃ changed, attempt = .ok changed ∧ after = changed.advance := by
  cases attempt with
  | error fault => cases performed
  | ok changed =>
      cases performed
      exact ⟨changed, rfl, rfl⟩

theorem of_perform_draw {x y : RegisterIndex} {rows : Digit}
    (performed : core.perform (.draw x y rows) = .ok () after) :
    ∃ sprite, after = (core.paintSprite x y sprite).advance := by
  obtain ⟨painted, found, rfl⟩ := of_advancing performed
  cases read : core.sprite rows.val with
  | error fault =>
      rw [read] at found
      cases found
  | ok sprite =>
      rw [read] at found
      cases found
      exact ⟨sprite, rfl⟩

theorem of_storeBytes {values : List UInt8} {stored : Core}
    (isStored : core.storeBytes values = .ok stored) :
    ∃ memory, core.memory.writeBlock core.registers.index values = .ok memory ∧
      stored = { core with memory } := by
  obtain ⟨memory, written, same⟩ := of_bind_ok isStored
  cases same
  exact ⟨memory, written, rfl⟩

/-- A load fills the registers up to the last one that it names. -/
theorem of_loadBytes {x : RegisterIndex} {loaded : Core} (sized : core.memory.Sized)
    (isLoaded : core.loadBytes x = .ok loaded) :
    ∃ v, loaded = { core with registers := { core.registers with v } } ∧
      ∀ y : RegisterIndex, x < y → v.get y = core.registers.v.get y := by
  obtain ⟨values, read, same⟩ := of_bind_ok isLoaded
  rw [sized.readBlock_eq, Except.ok.injEq] at read
  have count : values.length = x.val + 1 := by rw [← read, List.length_map, List.length_range]
  cases same
  refine ⟨_, rfl, ?_⟩
  intro y behind
  have further : x.val < y.val := behind
  have beyond : values[y.val]? = none := List.getElem?_eq_none (by omega)
  change (Vector.ofFn _)[y.val] = _
  rw [Vector.getElem_ofFn, beyond]
  rfl

theorem of_perform_call {target : Fin 4096}
    (performed : core.perform (.call target) = .ok () after) :
    ∃ stack, core.registers.stack.push (core.registers.counter + 2) = .ok () stack ∧
      after = { core with registers := { core.registers with stack, counter := target.val } } := by
  rw [perform, Registers.push] at performed
  cases pushed : core.registers.stack.push (core.registers.counter + 2) with
  | error fault stack =>
      rw [pushed] at performed
      cases performed
  | ok answer stack =>
      rw [pushed] at performed
      cases performed
      exact ⟨stack, rfl, rfl⟩

theorem of_perform_return (performed : core.perform .returnToCaller = .ok () after) :
    ∃ counter stack, core.registers.stack.pop = .ok counter stack ∧
      after = { core with registers := { core.registers with stack, counter } } := by
  rw [perform, Registers.pop] at performed
  cases popped : core.registers.stack.pop with
  | error fault stack =>
      rw [popped] at performed
      cases performed
  | ok counter stack =>
      rw [popped] at performed
      cases performed
      exact ⟨counter, stack, rfl, rfl⟩

/-! ### What is left alone -/

/-- The bytes that an instruction stores from the index register on. -/
def stored (core : Core) : Instruction → List UInt8
  | .storeDecimal x => decimalDigits (core.byte x)
  | .storeRegisters x => core.registersUpTo x
  | _ => []

theorem stored_length (core : Core) (instruction : Instruction) :
    (core.stored instruction).length = instruction.cells := by
  cases instruction with
  | storeRegisters x =>
      have inside := x.isLt
      change (core.registers.v.toList.take (x.val + 1)).length = x.val + 1
      rw [List.length_take, Vector.length_toList]
      omega
  | _ => rfl

theorem byte_put_of_ne {x y : RegisterIndex} (value : UInt8) (other : (y == x) = false) :
    (core.put x value).byte y = core.byte y :=
  Registers.byte_put_of_ne core.registers value (beq_eq_false_iff_ne.mp other).symm

theorem byte_combine {operation : Operation} {x y z : RegisterIndex}
    (kept : (Instruction.combine operation x y).writes z = false) :
    (core.combine operation x y).byte z = core.byte z := by
  obtain ⟨first, flag⟩ := Bool.or_eq_false_iff.mp kept
  cases operation with
  | copy | or | and | xor => exact byte_put_of_ne _ first
  | add | subtract | shiftRight | subtractFrom | shiftLeft =>
      exact (byte_put_of_ne _ flag).trans (byte_put_of_ne _ first)

/-- What an instruction does, part by part. -/
theorem Bounded.of_perform (bounded : core.Bounded)
    (performed : core.perform instruction = .ok () after) :
    core.memory.writeBlock core.registers.index (core.stored instruction) = .ok after.memory ∧
      (∀ x, instruction.writes x = false → after.byte x = core.byte x) ∧
      after.registers.counter = core.target instruction ∧
      after = core.taking after instruction.part? := by
  cases instruction with
  | loadByte x value | addByte x value | readDelay x =>
      cases performed
      exact ⟨rfl, fun _ => byte_put_of_ne _, rfl, rfl⟩
  | random x mask =>
      rw [Core.perform, drawRandom_eq] at performed
      -- The draw itself stays closed: nothing here depends on what is drawn.
      generalize core.random.nextByte = drawn at performed
      cases performed
      exact ⟨rfl, fun _ => byte_put_of_ne _, rfl, rfl⟩
  | combine operation x y =>
      cases performed
      refine ⟨?_, fun _ => byte_combine, ?_, ?_⟩
      · cases operation <;> rfl
      · cases operation <;> rfl
      · cases operation <;> rfl
  | draw x y rows =>
      obtain ⟨sprite, rfl⟩ := of_perform_draw performed
      exact ⟨rfl, fun _ => byte_put_of_ne _, rfl, rfl⟩
  | storeDecimal x | storeRegisters x =>
      obtain ⟨changed, isStored, rfl⟩ := of_advancing performed
      obtain ⟨memory, written, rfl⟩ := of_storeBytes isStored
      exact ⟨written, fun _ _ => rfl, rfl, rfl⟩
  | loadRegisters x =>
      obtain ⟨changed, isLoaded, rfl⟩ := of_advancing performed
      obtain ⟨v, rfl, kept⟩ := of_loadBytes bounded.memory isLoaded
      refine ⟨rfl, ?_, rfl, rfl⟩
      intro y behind
      exact kept y (Fin.not_le.mp (of_decide_eq_false behind))
  | call target =>
      obtain ⟨stack, _, rfl⟩ := of_perform_call performed
      exact ⟨rfl, fun _ _ => rfl, rfl, rfl⟩
  | returnToCaller =>
      obtain ⟨counter, stack, popped, rfl⟩ := of_perform_return performed
      exact ⟨rfl, fun _ _ => rfl, bounded.registers.stack.newest_of_pop popped, rfl⟩
  | _ =>
      cases performed
      exact ⟨rfl, fun _ _ => rfl, rfl, rfl⟩

theorem Bounded.perform_framed (bounded : core.Bounded)
    (performed : core.perform instruction = .ok () after) : core.Framed instruction after := by
  obtain ⟨written, bytes, counter, rest⟩ := bounded.of_perform performed
  refine ⟨?_, bounded.memory.writeBlock_sized written, bytes, counter, rest⟩
  intro address nonneg apart
  rw [← core.stored_length] at apart
  exact bounded.memory.byteAt_writeBlock written nonneg apart

/-! ### What a step does to the counter -/

/-- An instruction that fails changes nothing but the return stack, if that. -/
theorem of_perform_error {instruction : Instruction} {fault : Fault} {left : Core}
    (failed : core.perform instruction = .error fault left) :
    ∃ stack, left = { core with registers := { core.registers with stack } } := by
  have advanced : ∀ attempt : Except Fault Core,
      core.advancing attempt = .error fault left → left = core := by
    intro attempt refused
    cases attempt with
    | ok after => cases refused
    | error found =>
        cases refused
        rfl
  cases instruction with
  | returnToCaller =>
      rw [perform, Registers.pop] at failed
      cases popped : core.registers.stack.pop with
      | ok target stack =>
          rw [popped] at failed
          cases failed
      | error found stack =>
          rw [popped] at failed
          cases failed
          exact ⟨stack, rfl⟩
  | call target =>
      rw [perform, Registers.push] at failed
      cases pushed : core.registers.stack.push (core.registers.counter + 2) with
      | ok answer stack =>
          rw [pushed] at failed
          cases failed
      | error found stack =>
          rw [pushed] at failed
          cases failed
          exact ⟨stack, rfl⟩
  | draw x y rows => exact ⟨_, advanced _ failed⟩
  | storeDecimal x | storeRegisters x | loadRegisters x => exact ⟨_, advanced _ failed⟩
  | _ => cases failed

theorem counter_of_perform_error {instruction : Instruction} {fault : Fault} {left : Core}
    (failed : core.perform instruction = .error fault left) :
    left.registers.counter = core.registers.counter := by
  obtain ⟨stack, rfl⟩ := of_perform_error failed
  rfl

theorem counter_of_step_error {fault : Fault} {left : Core}
    (failed : core.step = .error fault left) :
    left.registers.counter = core.registers.counter := by
  unfold step at failed
  split at failed
  · next x _ =>
      unfold deliverKey at failed
      split at failed <;> cases failed
  · split at failed
    · cases failed
      rfl
    · next word _ =>
        cases went : core.execute word with
        | ok answer after =>
            simp only [went] at failed
            cases failed
        | error found after =>
            simp only [went] at failed
            cases failed
            unfold execute at went
            split at went
            · exact counter_of_perform_error went
            · cases went
              rfl

theorem core_of_stalled {after : Core} (stalled : core.step = .ok false after) :
    after = core := by
  have same : core.step.state = core := state_of_stalled (by rw [stalled, Attempt.result_ok])
  rwa [stalled, Attempt.state_ok] at same

/-- A step that moves the counter leaves no key to wait for. -/
theorem idle_of_moved {after : Core} (stepped : core.step = .ok true after)
    (moved : after.registers.counter ≠ core.registers.counter) : after.waiting = none := by
  unfold step at stepped
  split at stepped
  · next x _ =>
      unfold deliverKey at stepped
      split at stepped
      · cases stepped
      · cases stepped
        rfl
  · next idle =>
      split at stepped
      · cases stepped
      · next word _ =>
          cases went : core.execute word with
          | error found left =>
              simp only [went] at stepped
              cases stepped
          | ok answer reached =>
              simp only [went] at stepped
              cases stepped
              unfold execute at went
              split at went
              · rcases waiting_of_perform went with same | ⟨x, _, rfl⟩
                · exact same.trans idle
                · exact absurd rfl moved
              · cases went

end Core

end Chip8
