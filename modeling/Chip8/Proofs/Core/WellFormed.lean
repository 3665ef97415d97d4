import Chip8.Proofs.Core.Bounded
import Chip8.Proofs.Instruction.Encoding

/-!
Steps of a well-formed core.

A core is well formed when it is within its bounds and, while it waits for a key, its
counter still stands at the instruction that waits. A step keeps a core well formed. It
fails for one of four reasons, each of which can be read off the core beforehand, and
then it has changed nothing.
-/

namespace Chip8

namespace Core

/-- What every core keeps that a program can reach. Cells, registers, pixels and keys are
within bounds by their types. -/
structure WellFormed (core : Core) : Prop extends core.Bounded where
  awaited : ∀ x, core.waiting = some x →
    core.registers.counter ≤ 0xFFE ∧ core.fetch = .ok (0xF00A + 256 * x.val)

/-- The faults that a core is about to fail with, unless it waits for a key. -/
def Faults (core : Core) : Fault → Prop
  | .memoryOutOfBounds address =>
      0xFFF ≤ core.registers.counter ∧ address = max core.registers.counter 0x1000
  | .invalidOpcode word counter =>
      counter = core.registers.counter ∧ ∃ fetched : Nat, core.fetch = .ok fetched ∧
        word = fetched ∧ ∀ instruction : Instruction, instruction.assemble ≠ fetched
  | .stackOverflow depth =>
      depth = 16 ∧ core.registers.stack.pointer = 16 ∧
        ∃ target : Fin 4096, core.fetch = .ok (0x2000 + target.val)
  | .stackUnderflow => core.registers.stack.pointer = 0 ∧ core.fetch = .ok 0x00EE
  | _ => False

/-! ### Fetching -/

namespace Bounded

variable {core : Core}

theorem fetch_outside (bounded : core.Bounded) (outside : 0xFFF ≤ core.registers.counter) :
    core.fetch = .error (.memoryOutOfBounds (max core.registers.counter 0x1000)) :=
  bounded.memory.readWord_outside outside

theorem fetch_inside (bounded : core.Bounded) (inside : core.registers.counter < 0xFFF) :
    ∃ word, core.fetch = .ok word ∧ word < 0x10000 := by
  have high := (core.memory.byteAt core.registers.counter).toNat_lt
  have low := (core.memory.byteAt (core.registers.counter + 1)).toNat_lt
  exact ⟨_, bounded.memory.readWord_inside bounded.counterNonneg inside, by omega⟩

/-- The word that two bytes below the counter make up. -/
theorem fetch_of_bytes (bounded : core.Bounded) {address : Int} {high low : UInt8}
    (counter : core.registers.counter = address) (inside : address < 0xFFF)
    (first : core.memory.byteAt address = high) (second : core.memory.byteAt (address + 1) = low) :
    core.fetch = .ok (high.toNat * 256 + low.toNat) := by
  have nonneg := bounded.counterNonneg
  rw [counter] at nonneg
  unfold fetch
  rw [counter, bounded.memory.readWord_inside nonneg inside, first, second]

theorem of_fetch (bounded : core.Bounded) {word : Nat} (fetched : core.fetch = .ok word) :
    core.registers.counter ≤ 0xFFE ∧ word < 0x10000 := by
  by_cases outside : 0xFFF ≤ core.registers.counter
  · rw [bounded.fetch_outside outside] at fetched
    cases fetched
  · obtain ⟨found, isFound, small⟩ := bounded.fetch_inside (by omega)
    rw [fetched] at isFound
    cases isFound
    exact ⟨by omega, small⟩

end Bounded

/-! ### Executing -/

theorem execute_assemble (core : Core) {word : Nat} {instruction : Instruction}
    (small : word < 0x10000) (written : instruction.assemble = word) :
    core.execute word = core.perform instruction := by
  have found : Instruction.carriedOut? word = some instruction := by
    rw [Instruction.carriedOut?_of_lt small, Instruction.ofWord?_eq_some_iff, written]
  unfold execute
  rw [found]

/-- The word of an instruction is carried out as that instruction. -/
theorem execute_assembled (core : Core) (instruction : Instruction) :
    core.execute instruction.assemble = core.perform instruction :=
  core.execute_assemble instruction.assemble_lt rfl

theorem of_execute {core after : Core} {word : Int}
    (executed : core.execute word = .ok () after) :
    ∃ instruction, Instruction.carriedOut? word = some instruction ∧
      core.perform instruction = .ok () after := by
  unfold execute at executed
  split at executed
  · next instruction found => exact ⟨instruction, found, executed⟩
  · cases executed

theorem execute_undefined (core : Core) {word : Nat} (small : word < 0x10000)
    (undefined : ∀ instruction : Instruction, instruction.assemble ≠ word) :
    core.execute word = .error (.invalidOpcode word core.registers.counter) core := by
  have missing : Instruction.carriedOut? word = none := by
    rw [Instruction.carriedOut?_of_lt small, Instruction.ofWord?_eq_none_iff]
    intro instruction same
    exact undefined instruction (Int.ofNat.inj same)
  unfold execute
  rw [missing]

/-! ### Stepping -/

variable {core : Core}

theorem step_of_waiting {x : RegisterIndex} (waits : core.waiting = some x) :
    core.step = core.deliverKey x := by
  unfold step
  rw [waits]

theorem step_of_fetch_error {fault : Fault} (idle : core.waiting = none)
    (failed : core.fetch = .error fault) : core.step = .error fault core := by
  unfold step
  rw [idle, failed]

theorem step_of_execute_error {word : Nat} {fault : Fault} {left : Core}
    (idle : core.waiting = none) (fetched : core.fetch = .ok word)
    (failed : core.execute word = .error fault left) : core.step = .error fault left := by
  unfold step
  rw [idle, fetched]
  simp only [failed]

theorem step_of_execute {word : Nat} {after : Core} (idle : core.waiting = none)
    (fetched : core.fetch = .ok word) (done : core.execute word = .ok () after) :
    core.step = .ok true after.counted := by
  unfold step
  rw [idle, fetched]
  simp only [done]

theorem step_of_jump {target : Fin 4096} (idle : core.waiting = none)
    (fetched : core.fetch = .ok (Instruction.jump target).assemble) :
    core.step = .ok true (core.setCounter target.val).counted :=
  step_of_execute idle fetched (core.execute_assembled (.jump target))

/-- A step without a key to wait for fetches an instruction and completes it, or the core
fails as it was about to. -/
theorem Bounded.step_cases (bounded : core.Bounded) (idle : core.waiting = none) :
    (∃ instruction after, core.fetch = .ok instruction.assemble ∧
        core.perform instruction = .ok () after ∧ after.Bounded ∧
        core.step = .ok true after.counted) ∨
      ∃ fault, core.step = .error fault core ∧ core.Faults fault := by
  by_cases outside : 0xFFF ≤ core.registers.counter
  · exact Or.inr ⟨_, step_of_fetch_error idle (bounded.fetch_outside outside), outside, rfl⟩
  obtain ⟨word, fetched, small⟩ := bounded.fetch_inside (by omega)
  cases found : Instruction.ofWord? word with
  | none =>
      have undefined : ∀ instruction : Instruction, instruction.assemble ≠ word := by
        intro instruction same
        exact Instruction.ofWord?_eq_none_iff.mp found instruction (congrArg Int.ofNat same)
      exact Or.inr ⟨_, step_of_execute_error idle fetched (core.execute_undefined small undefined),
        rfl, word, fetched, rfl, undefined⟩
  | some instruction =>
      have written : instruction.assemble = word :=
        Int.ofNat.inj (Instruction.assemble_of_ofWord? found)
      have executed := core.execute_assemble small written
      subst written
      rcases bounded.perform (by omega) instruction with
        ⟨after, done, kept⟩ | ⟨fault, failed, refused⟩
      · exact Or.inl ⟨instruction, after, fetched, done, kept,
          step_of_execute idle fetched (executed.trans done)⟩
      · refine Or.inr ⟨fault, step_of_execute_error idle fetched (executed.trans failed), ?_⟩
        -- Only the two instructions that use the return stack are ever refused.
        cases instruction with
        | call target =>
            obtain ⟨full, rfl⟩ := refused
            exact ⟨rfl, full, target, fetched⟩
        | returnToCaller =>
            obtain ⟨empty, rfl⟩ := refused
            exact ⟨empty, fetched⟩
        | _ => cases refused

/-- A step that is not one for a key fails exactly as the core is about to, and leaves
everything as it was. -/
theorem Bounded.step_error_iff (bounded : core.Bounded) (idle : core.waiting = none)
    {fault : Fault} {left : Core} :
    core.step = .error fault left ↔ left = core ∧ core.Faults fault := by
  constructor
  · intro failed
    rcases bounded.step_cases idle with ⟨_, _, _, _, _, done⟩ | ⟨found, failedFirst, faults⟩
    · rw [failed] at done
      cases done
    · rw [failed] at failedFirst
      cases failedFirst
      exact ⟨rfl, faults⟩
  · rintro ⟨rfl, faults⟩
    cases fault with
    | memoryOutOfBounds address =>
        obtain ⟨outside, rfl⟩ := faults
        exact step_of_fetch_error idle (bounded.fetch_outside outside)
    | invalidOpcode word counter =>
        obtain ⟨rfl, fetchedWord, fetched, rfl, undefined⟩ := faults
        exact step_of_execute_error idle fetched
          (left.execute_undefined (bounded.of_fetch fetched).2 undefined)
    | stackOverflow depth =>
        obtain ⟨rfl, full, target, fetched⟩ := faults
        refine step_of_execute_error idle fetched ?_
        rw [left.execute_assemble (bounded.of_fetch fetched).2
          (show (Instruction.call target).assemble = _ from rfl)]
        exact bounded.perform_refused ⟨full, rfl⟩
    | stackUnderflow =>
        obtain ⟨empty, fetched⟩ := faults
        refine step_of_execute_error idle fetched ?_
        rw [left.execute_assemble (bounded.of_fetch fetched).2
          (show Instruction.returnToCaller.assemble = _ from rfl)]
        exact bounded.perform_refused ⟨empty, rfl⟩
    | _ => cases faults

/-! ### Waiting for a key -/

theorem deliverKey_of_stale {x : RegisterIndex} (stale : core.keypad.fresh = false) :
    core.deliverKey x = .ok false core := by
  unfold deliverKey Keypad.takeChange
  rw [stale]
  rfl

theorem deliverKey_of_fresh {x : RegisterIndex} (fresh : core.keypad.fresh = true) :
    core.deliverKey x =
      .ok true ({ core with keypad := core.keypad.beginWait, waiting := none }.put x
        (UInt8.ofNat core.keypad.last.val)).advance := by
  unfold deliverKey Keypad.takeChange
  rw [fresh]
  rfl

/-- Only the instruction that waits for a key begins a wait, and it moves nothing else. -/
theorem waiting_of_perform {instruction : Instruction} {after : Core}
    (done : core.perform instruction = .ok () after) :
    after.waiting = core.waiting ∨ ∃ x, instruction = .awaitKey x ∧
      after = { core with keypad := core.keypad.beginWait, waiting := some x } := by
  cases instruction with
  | awaitKey x =>
      cases done
      exact Or.inr ⟨x, rfl, rfl⟩
  | random x mask =>
      cases done
      rw [drawRandom_eq]
      exact Or.inl rfl
  | combine operation x y =>
      cases done
      cases operation <;> exact Or.inl rfl
  | returnToCaller =>
      rw [perform] at done
      split at done
      · cases done
        exact Or.inl rfl
      · cases done
  | call target =>
      rw [perform] at done
      split at done
      · cases done
        exact Or.inl rfl
      · cases done
  | draw x y rows =>
      rw [perform] at done
      cases found : core.sprite rows.val with
      | error fault =>
          rw [found] at done
          cases done
      | ok sprite =>
          rw [found] at done
          cases done
          exact Or.inl rfl
  | loadRegisters x =>
      rw [perform, loadBytes] at done
      cases found : core.memory.readBlock core.registers.index (x.val + 1) with
      | error fault =>
          rw [found] at done
          cases done
      | ok values =>
          rw [found] at done
          cases done
          exact Or.inl (by simp only [advance, setCounter, modifyRegisters])
  | storeDecimal x | storeRegisters x =>
      rw [perform, storeBytes] at done
      cases found : core.memory.writeBlock core.registers.index _ with
      | error fault =>
          rw [found] at done
          cases done
      | ok memory =>
          rw [found] at done
          cases done
          exact Or.inl rfl
  | _ =>
      cases done
      exact Or.inl rfl

/-! ### What a step keeps -/

theorem WellFormed.of_bounded (bounded : core.Bounded) (idle : core.waiting = none) :
    core.WellFormed :=
  { bounded with awaited := fun x waits => by rw [idle] at waits; cases waits }

theorem WellFormed.step (wellFormed : core.WellFormed) : core.step.state.WellFormed := by
  cases waits : core.waiting with
  | some x =>
      obtain ⟨inside, _⟩ := wellFormed.awaited x waits
      rw [step_of_waiting waits]
      cases changed : core.keypad.fresh with
      | false =>
          rw [deliverKey_of_stale changed]
          exact wellFormed
      | true =>
          rw [deliverKey_of_fresh changed]
          have released : Bounded { core with keypad := core.keypad.beginWait, waiting := none } :=
            { wellFormed.toBounded with }
          exact WellFormed.of_bounded ((released.put x _).advance inside) rfl
  | none =>
      rcases wellFormed.toBounded.step_cases waits with
        ⟨instruction, after, fetched, done, kept, stepped⟩ | ⟨fault, failed, _⟩
      · rw [stepped]
        have counted : after.counted.Bounded := { kept with }
        rcases waiting_of_perform done with same | ⟨x, rfl, rfl⟩
        · exact WellFormed.of_bounded counted (same.trans waits)
        · -- The counter has not moved, so the word under it is the one that was fetched.
          refine { counted with awaited := ?_ }
          intro y isRegister
          cases isRegister
          refine ⟨(wellFormed.toBounded.of_fetch fetched).1, ?_⟩
          change core.fetch = .ok (0xF00A + 256 * x.val)
          rw [fetched, Instruction.assemble_awaitKey]
      · rw [failed]
        exact wellFormed

end Core

end Chip8
