import Chip8.Proofs.Core.Frame
import Chip8.Proofs.Machine.Contact
import Chip8.Proofs.Machine.Replay

/-!
What a machine has rendered.

An instruction that changes the screen renders it in the same step, and nothing else changes
the screen. So behind every request the screen of a machine is the one that was rendered last,
and whatever a host does with the frames of a run, it has the latest one when the run is left.
What a host keeps of its world whatever is asked of it, a run keeps too.
-/

namespace Chip8

variable {Time World Answer : Type}

/-- The screen rendered last, given the one before an effect. -/
def Effect.shown (screen : Screen) : Effect Time → Screen
  | .render frame => frame.screen
  | _ => screen

/-- The screen rendered last, given the one before some effects. -/
def lastShown (screen : Screen) (effects : List (Effect Time)) : Screen :=
  effects.foldl Effect.shown screen

theorem lastShown_append (screen : Screen) (first second : List (Effect Time)) :
    lastShown screen (first ++ second) = lastShown (lastShown screen first) second :=
  List.foldl_append

theorem lastShown_log (screen : Screen) (records : List Record) :
    lastShown screen (records.map (.log : Record → Effect Time)) = screen := by
  induction records with
  | nil => rfl
  | cons record rest ih => exact ih

namespace Core

variable {core after : Core} {instruction : Instruction}

/-! ### Steps -/

@[simp] theorem screen_modifyRegisters (core : Core) (change : Registers → Registers) :
    (core.modifyRegisters change).screen = core.screen := rfl

@[simp] theorem screen_advance (core : Core) : core.advance.screen = core.screen := rfl

@[simp] theorem cycles_modifyRegisters (core : Core) (change : Registers → Registers) :
    (core.modifyRegisters change).cycles = core.cycles := rfl

@[simp] theorem cycles_advance (core : Core) : core.advance.cycles = core.cycles := rfl

/-- No instruction counts itself, and only the ones that redraw change the screen. -/
theorem kept_of_perform (performed : core.perform instruction = .ok () after) :
    after.cycles = core.cycles ∧ (redraws instruction = false → after.screen = core.screen) := by
  cases instruction with
  | clearScreen =>
      cases performed
      exact ⟨rfl, fun quiet => by cases quiet⟩
  | draw x y rows =>
      obtain ⟨sprite, rfl⟩ := of_perform_draw performed
      exact ⟨rfl, fun quiet => by cases quiet⟩
  | combine operation x y =>
      cases performed
      cases operation <;> exact ⟨rfl, fun _ => rfl⟩
  | random x mask =>
      rw [perform, drawRandom_eq] at performed
      generalize core.random.nextByte = drawn at performed
      cases performed
      exact ⟨rfl, fun _ => rfl⟩
  | storeDecimal x | storeRegisters x =>
      obtain ⟨changed, isStored, rfl⟩ := of_advancing performed
      obtain ⟨memory, _, rfl⟩ := of_storeBytes isStored
      exact ⟨rfl, fun _ => rfl⟩
  | loadRegisters x =>
      obtain ⟨changed, isLoaded, rfl⟩ := of_advancing performed
      obtain ⟨values, _, same⟩ := of_bind_ok isLoaded
      cases same
      rw [screen_advance, screen_modifyRegisters, cycles_advance, cycles_modifyRegisters]
      exact ⟨rfl, fun _ => rfl⟩
  | call target =>
      obtain ⟨stack, _, rfl⟩ := of_perform_call performed
      exact ⟨rfl, fun _ => rfl⟩
  | returnToCaller =>
      obtain ⟨counter, stack, _, rfl⟩ := of_perform_return performed
      exact ⟨rfl, fun _ => rfl⟩
  | _ =>
      cases performed
      exact ⟨rfl, fun _ => rfl⟩

/-- The effects of an instruction render the screen that it leaves, or it leaves the screen. -/
theorem lastShown_executionEffects {word : Nat}
    (executed : core.execute word = .ok () after) {left : Core} (same : left.screen = after.screen)
    (answer : Answer) :
    lastShown core.screen (core.executionEffects word (.ok answer left) : List (Effect Time)) =
      left.screen := by
  unfold execute at executed
  unfold executionEffects
  cases found : Instruction.carriedOut? word with
  | none =>
      rw [found] at executed
      cases executed
  | some instruction =>
      rw [found] at executed
      rw [lastShown_append, lastShown_log]
      dsimp only
      cases redrawn : redraws instruction with
      | true =>
          rw [if_pos rfl]
          rfl
      | false =>
          rw [if_neg Bool.false_ne_true, same]
          exact ((kept_of_perform executed).2 redrawn).symm

theorem screen_of_execute_error {word : Nat} {fault : Fault}
    (failed : core.execute word = .error fault after) : after.screen = core.screen := by
  unfold execute at failed
  split at failed
  · obtain ⟨stack, rfl⟩ := of_perform_error failed
    rfl
  · cases failed
    rfl

theorem lastShown_executionEffects_error (core : Core) (word : Int) (fault : Fault) (left : Core) :
    lastShown core.screen
      (core.executionEffects word (.error fault left : Attempt Core Answer) : List (Effect Time)) =
        core.screen := by
  unfold executionEffects
  rw [lastShown_append, lastShown_log]
  cases Instruction.carriedOut? word <;> exact lastShown_log _ _

/-- Behind a step, the screen is the one rendered last. -/
theorem lastShown_stepEffects (core : Core) (traced : Bool) :
    lastShown core.screen (core.stepEffects traced core.step : List (Effect Time)) =
      core.step.state.screen := by
  unfold stepEffects
  cases waits : core.waiting with
  | some x =>
      dsimp only
      rw [lastShown_log, step_of_waiting waits]
      cases changed : core.keypad.fresh with
      | false => rw [deliverKey_of_stale changed, Attempt.state_ok]
      | true =>
          rw [deliverKey_of_fresh changed]
          rfl
  | none =>
      dsimp only
      cases fetched : core.fetch with
      | error fault =>
          rw [step_of_fetch_error waits fetched]
          rfl
      | ok word =>
          dsimp only
          rw [lastShown_append, lastShown_log]
          cases executed : core.execute word with
          | ok answer after =>
              rw [step_of_execute waits fetched executed, Attempt.state_ok]
              have same : after.counted.screen = after.screen := rfl
              exact lastShown_executionEffects executed same true
          | error fault left =>
              rw [step_of_execute_error waits fetched executed, Attempt.state_error,
                screen_of_execute_error executed]
              exact lastShown_executionEffects_error core word fault left

end Core

namespace Machine

def screen (machine : Machine Time) : Screen :=
  machine.core.screen

/-! ### Requests -/

theorem lastShown_handle (machine : Machine Time) (event : Event) :
    lastShown machine.screen (machine.handle event).effects =
      (machine.handle event).state.screen := by
  obtain ⟨keypad, _, _, _, _, left⟩ := machine.handle_eq event
  rw [left]
  cases event with
  | key number pressed =>
      rw [handle]
      split <;> rfl
  | resume =>
      rw [handle]
      split <;> rfl
  | _ => rfl

theorem lastShown_receive (machine : Machine Time) (events : List Event) :
    lastShown machine.screen (machine.receive events).effects =
      (machine.receive events).state.screen := by
  induction events generalizing machine with
  | nil => rfl
  | cons event rest ih =>
      have first := machine.lastShown_handle event
      rw [receive]
      cases heard : (machine.handle event).attempt with
      | error fault left => exact machine.lastShown_handle event
      | ok answer next =>
          rw [Response.state_of_ok heard] at first
          dsimp only
          rw [lastShown_append, first]
          exact ih next

theorem lastShown_ready (machine : Machine Time) :
    lastShown machine.screen machine.ready.effects = machine.ready.state.screen := by
  obtain ⟨records, told⟩ := machine.ready_effects
  rw [told, lastShown_log]
  exact congrArg Core.screen machine.ready_core.symm

theorem lastShown_step (machine : Machine Time) :
    lastShown machine.screen machine.step.effects = machine.step.state.screen := by
  have left : machine.step.state.screen = machine.core.step.state.screen :=
    congrArg Core.screen machine.step_core
  rw [left]
  exact machine.core.lastShown_stepEffects machine.trace

theorem lastShown_slot (machine : Machine Time) :
    lastShown machine.screen machine.slot.effects = machine.slot.state.screen := by
  have checked := machine.lastShown_ready
  unfold slot
  rcases machine.ready_cases with ⟨arrived, answer⟩ | ⟨arrived, answer⟩
  · have stepped := arrived.lastShown_step
    rw [Response.state_of_ok answer] at checked
    simp only [answer]
    cases taken : arrived.step.attempt with
    | ok anything after =>
        rw [Response.state_of_ok taken] at stepped
        cases anything
        all_goals
          dsimp only
          rw [lastShown_append, checked]
          exact stepped
    | error fault after =>
        rw [Response.state_of_error taken] at stepped
        dsimp only
        rw [lastShown_append, checked]
        exact stepped
  · simp only [answer]
    exact checked

theorem catchUp_screen [Scalar Time] {machine caught : Machine Time} {now : Time}
    (caughtUp : machine.catchUp now = .ok caught) : caught.screen = machine.screen := by
  obtain ⟨_, _, same⟩ := of_bind_ok caughtUp
  cases same
  rfl

end Machine

/-! ### Hosts that are shown frames -/

/-- A host of which it can be said what screen it displays: the one that was rendered last. -/
structure Host.Displays (host : Host Time World) (displays : Screen → World → Prop) : Prop where
  poll : ∀ screen world, displays screen world → displays screen (host.poll world).2
  readClock : ∀ screen world, displays screen world → displays screen (host.readClock world).2
  perform : ∀ screen effect world, displays screen world →
    displays (Effect.shown screen effect) (host.perform effect world)

def Machine.Passed.world : Machine.Passed Time World → World
  | .again running => running.world
  | .over _ _ world => world

theorem Machine.lastShown_ending (machine : Machine Time) (ending : Ending) :
    lastShown machine.screen (.tone false :: machine.endingEffects ending) = machine.screen := by
  cases ending <;> rfl

def Machine.Passed.displays (displays : Screen → World → Prop) (passed : Passed Time World) :
    Prop :=
  displays passed.machine.screen passed.world

namespace Host.Displays

open Machine

variable {host : Host Time World} {displays : Screen → World → Prop}
  (shows : host.Displays displays)

include shows

theorem performAll (effects : List (Effect Time)) {screen : Screen} {world : World}
    (before : displays screen world) :
    displays (lastShown screen effects) (host.performAll effects world) := by
  unfold Host.performAll
  induction effects generalizing screen world with
  | nil => exact before
  | cons effect rest ih => exact ih (shows.perform screen effect world before)

theorem settle (ending : Ending) {machine : Machine Time} {world : World}
    (before : displays machine.screen world) :
    displays machine.screen (settle host ending machine world).world := by
  have settled := shows.performAll (.tone false :: machine.endingEffects ending) before
  rw [machine.lastShown_ending] at settled
  exact settled

variable [Scalar Time]

theorem spendSlot {running : Running Time World}
    (before : displays running.machine.screen running.world) :
    (spendSlot host running).displays displays := by
  have performed := shows.performAll running.machine.slot.effects before
  rw [running.machine.lastShown_slot] at performed
  unfold Machine.spendSlot
  cases left : running.machine.slot.attempt with
  | error fault machine =>
      rw [Response.state_of_error left] at performed
      simp only [left]
      exact performed
  | ok answer machine =>
      rw [Response.state_of_ok left] at performed
      simp only [left]
      cases answer with
      | true => exact performed
      | false =>
          dsimp only [Passed.displays, Passed.machine, Passed.world]
          split
          · exact shows.perform _ (.sleep idleDelay) _ performed
          · exact performed

theorem passAt {running : Running Time World}
    (before : displays running.machine.screen running.world) (now : Time) :
    (passAt host running now).displays displays := by
  unfold Machine.passAt
  cases caughtUp : running.machine.catchUp now with
  | error fault => exact before
  | ok caught =>
      rw [← catchUp_screen caughtUp] at before
      have toned := shows.perform _ (.tone caught.core.registers.toneActive) _ before
      dsimp only
      split
      · exact shows.perform _ (.sleep (running.due - now)) _ toned
      · exact shows.spendSlot toned

theorem pass (limit : Option Int) {running : Running Time World}
    (before : displays running.machine.screen running.world) :
    (pass host limit running).displays displays := by
  unfold Machine.pass
  dsimp only
  split
  · exact before
  · have heard := shows.performAll
      (running.machine.receive (host.poll running.world).1).effects (shows.poll _ _ before)
    rw [running.machine.lastShown_receive] at heard
    cases received : (running.machine.receive (host.poll running.world).1).attempt with
    | error fault after =>
        rw [Response.state_of_error received] at heard
        exact heard
    | ok answer after =>
        rw [Response.state_of_ok received] at heard
        dsimp only
        split
        · exact heard
        · have read := shows.readClock _ _ heard
          split
          · next clock =>
              rw [clock] at read
              exact read
          · next clock =>
              rw [clock] at read
              exact shows.passAt read _

theorem runFrom (limit : Option Int) (passes : Nat) {running : Running Time World}
    (before : displays running.machine.screen running.world) :
    displays (runFrom host limit passes running).machine.screen
      (runFrom host limit passes running).world := by
  induction passes generalizing running with
  | zero => exact before
  | succ passes ih =>
      have passed := shows.pass limit before
      unfold Machine.runFrom
      rcases led : Machine.pass host limit running with next | ⟨ending, machine, world⟩
      · rw [led] at passed
        exact ih passed
      · rw [led] at passed
        exact shows.settle ending passed

omit [Scalar Time] in
theorem launch (machine : Machine Time) {screen : Screen} {world : World}
    (before : displays screen world) : displays machine.screen (launch host machine world).2 := by
  have rendered := shows.performAll
    [.log (.info "Emulation starting"), .render machine.core.frame] before
  exact shows.readClock machine.screen _ rendered

/-- However a run is left, the screen displayed is that of the machine. -/
theorem run (limit : Option Int) (passes : Nat) (machine : Machine Time) (screen : Screen)
    {world : World} (before : displays screen world) :
    displays (machine.run host limit passes world).machine.screen
      (machine.run host limit passes world).world := by
  have launched := shows.launch machine before
  unfold Machine.run
  split
  · next read =>
      rw [read] at launched
      exact launched
  · next read =>
      rw [read] at launched
      exact shows.runFrom limit passes launched

omit [Scalar Time] in
theorem abort (fault : Fault) (machine : Machine Time) (screen : Screen) {world : World}
    (before : displays screen world) :
    displays (machine.abort host fault world).machine.screen
      (machine.abort host fault world).world := by
  have launched := shows.launch machine before
  unfold Machine.abort
  split
  · next read =>
      rw [read] at launched
      exact launched
  · next read =>
      rw [read] at launched
      exact shows.settle _ launched

end Host.Displays

/-! ### What a run keeps of the world -/

/-- A property of the world that a host keeps, whatever is asked of it. -/
structure Host.Keeps (host : Host Time World) (kept : World → Prop) : Prop where
  poll : ∀ world, kept world → kept (host.poll world).2
  readClock : ∀ world, kept world → kept (host.readClock world).2
  perform : ∀ effect world, kept world → kept (host.perform effect world)

namespace Host.Keeps

variable {host : Host Time World} {kept : World → Prop} (keeps : host.Keeps kept)

include keeps

/-- What does not depend on the frames is kept whatever is displayed. -/
theorem displays : host.Displays fun _ world => kept world where
  poll _ := keeps.poll
  readClock _ := keeps.readClock
  perform _ := keeps.perform

theorem run [Scalar Time] (limit : Option Int) (passes : Nat) (machine : Machine Time)
    {world : World} (inside : kept world) :
    kept (machine.run host limit passes world).world :=
  keeps.displays.run limit passes machine machine.screen inside

theorem abort (fault : Fault) (machine : Machine Time) {world : World} (inside : kept world) :
    kept (machine.abort host fault world).world :=
  keeps.displays.abort fault machine machine.screen inside

end Host.Keeps

end Chip8
