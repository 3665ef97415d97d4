import Chip8.Proofs.Core.WellFormed

/-!
Acts on a core, and their replay.

A program only ever meets three things: a key that changes, a tick of the timers and a
step. Whatever else surrounds a core reaches it through these, so a list of acts says
all that happened to it, and replaying the list brings it about again.
-/

namespace Chip8

inductive Act
  | key (number : Int) (pressed : Bool)
  | tick
  | step
deriving DecidableEq, Repr

/-! ### Replaying -/

section Replaying

variable {State Whole : Type}

/-- Do one thing after another, whether or not it fails, and collect how each went. -/
def replayBy (take : State → Act → Attempt State Bool) (state : State) :
    List Act → List (Except Fault Bool) × State
  | [] => ([], state)
  | act :: rest =>
      let done := take state act
      let others := replayBy take done.state rest
      (done.result :: others.1, others.2)

variable {take : State → Act → Attempt State Bool}

theorem replayBy_append (state : State) (first second : List Act) :
    replayBy take state (first ++ second) =
      ((replayBy take state first).1 ++ (replayBy take (replayBy take state first).2 second).1,
        (replayBy take (replayBy take state first).2 second).2) := by
  induction first generalizing state with
  | nil => rfl
  | cons act rest ih =>
      simp only [List.cons_append, replayBy, ih]

/-- What every act keeps, a replay keeps. -/
theorem replayBy_induction {motive : State → Prop}
    (kept : ∀ state act, motive state → motive (take state act).state) {state : State}
    (start : motive state) (acts : List Act) : motive (replayBy take state acts).2 := by
  induction acts generalizing state with
  | nil => exact start
  | cons act rest ih => exact ih (kept state act start)

/-- Acts on a part are acts on the whole around it. -/
theorem replayBy_within {takeWhole : Whole → Act → Attempt Whole Bool} {wrap : State → Whole}
    (within : ∀ state act, takeWhole (wrap state) act = (take state act).within wrap)
    (state : State) (acts : List Act) :
    replayBy takeWhole (wrap state) acts =
      ((replayBy take state acts).1, wrap (replayBy take state acts).2) := by
  induction acts generalizing state with
  | nil => rfl
  | cons act rest ih =>
      simp only [replayBy, within, Attempt.state_within, Attempt.result_within, ih]

end Replaying

namespace Core

def act (core : Core) : Act → Attempt Core Bool
  | .key number pressed =>
      match core.keypad.set number pressed with
      | .ok keypad => .ok true { core with keypad }
      | .error fault => .error fault core
  | .tick => .ok true (core.modifyRegisters Registers.tick)
  | .step => core.step

def replay (core : Core) (acts : List Act) : List (Except Fault Bool) × Core :=
  replayBy act core acts

theorem act_key_state (core : Core) (number : Int) (pressed : Bool) :
    ∃ keypad, (core.act (.key number pressed)).state = { core with keypad } := by
  cases changed : core.keypad.set number pressed with
  | ok keypad =>
      refine ⟨keypad, ?_⟩
      rw [act, changed]
      rfl
  | error fault =>
      refine ⟨core.keypad, ?_⟩
      rw [act, changed]
      rfl

theorem replay_append (core : Core) (first second : List Act) :
    core.replay (first ++ second) =
      ((core.replay first).1 ++ ((core.replay first).2.replay second).1,
        ((core.replay first).2.replay second).2) :=
  replayBy_append core first second

theorem state_of_stalled {core : Core} (stalled : core.step.result = .ok false) :
    core.step.state = core := by
  cases waits : core.waiting with
  | some x =>
      rw [step_of_waiting waits] at stalled ⊢
      cases changed : core.keypad.fresh with
      | false => rw [deliverKey_of_stale changed, Attempt.state_ok]
      | true =>
          rw [deliverKey_of_fresh changed] at stalled
          cases stalled
  | none =>
      cases fetched : core.fetch with
      | error fault =>
          rw [step_of_fetch_error waits fetched] at stalled
          cases stalled
      | ok word =>
          cases executed : core.execute word with
          | ok answer after =>
              rw [step_of_execute waits fetched executed] at stalled
              cases stalled
          | error fault left =>
              rw [step_of_execute_error waits fetched executed] at stalled
              cases stalled

/-! ### Acts on a well-formed core -/

variable {core : Core}

theorem Bounded.tick (bounded : core.Bounded) : (core.modifyRegisters Registers.tick).Bounded :=
  bounded.withRegisters bounded.registers.tick rfl

theorem WellFormed.act (wellFormed : core.WellFormed) (act : Act) :
    (core.act act).state.WellFormed := by
  cases act with
  | step => exact wellFormed.step
  | tick => exact { wellFormed.toBounded.tick with awaited := wellFormed.awaited }
  | key number pressed =>
      obtain ⟨keypad, same⟩ := core.act_key_state number pressed
      rw [same]
      exact { wellFormed with }

theorem WellFormed.replay (wellFormed : core.WellFormed) (acts : List Act) :
    (core.replay acts).2.WellFormed :=
  replayBy_induction (fun _ act kept => kept.act act) wellFormed acts

/-! ### Faults are lasting -/

/-- Whether a core is about to fail with a fault hangs on its memory, its counter and its
return stack alone. -/
theorem Faults.of_same {other : Core} {fault : Fault} (faults : core.Faults fault)
    (memory : other.memory = core.memory)
    (counter : other.registers.counter = core.registers.counter)
    (stack : other.registers.stack = core.registers.stack) : other.Faults fault := by
  have fetch : other.fetch = core.fetch := by
    unfold Core.fetch
    rw [memory, counter]
  cases fault with
  | memoryOutOfBounds address =>
      unfold Faults at faults ⊢
      rw [counter]
      exact faults
  | invalidOpcode word address =>
      unfold Faults at faults ⊢
      rw [counter, fetch]
      exact faults
  | stackOverflow depth =>
      unfold Faults at faults ⊢
      rw [stack, fetch]
      exact faults
  | stackUnderflow =>
      unfold Faults at faults ⊢
      rw [stack, fetch]
      exact faults
  | _ => cases faults

/-- A core that is about to fail. -/
structure Failing (core : Core) (fault : Fault) : Prop where
  bounded : core.Bounded
  idle : core.waiting = none
  faults : core.Faults fault

namespace Failing

variable {fault : Fault}

theorem step (failing : core.Failing fault) : core.step = .error fault core :=
  (failing.bounded.step_error_iff failing.idle).mpr ⟨rfl, failing.faults⟩

/-- Neither keys nor ticks nor further steps avert a fault. -/
theorem act (failing : core.Failing fault) (act : Act) :
    (core.act act).state.Failing fault := by
  cases act with
  | step =>
      change core.step.state.Failing fault
      rw [failing.step]
      exact failing
  | tick => exact ⟨failing.bounded.tick, failing.idle, failing.faults.of_same rfl rfl rfl⟩
  | key number pressed =>
      obtain ⟨keypad, same⟩ := core.act_key_state number pressed
      rw [same]
      exact ⟨{ failing.bounded with }, failing.idle, failing.faults.of_same rfl rfl rfl⟩

theorem replay (failing : core.Failing fault) (acts : List Act) :
    (core.replay acts).2.Failing fault :=
  replayBy_induction (motive := fun reached : Core => reached.Failing fault)
    (fun _ act kept => kept.act act) failing acts

end Failing

end Core

end Chip8
