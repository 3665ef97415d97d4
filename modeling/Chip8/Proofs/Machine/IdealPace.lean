import Chip8.Proofs.Machine.Accounting
import Chip8.Proofs.Machine.Countdown
import Chip8.Proofs.Machine.Pacing
import Chip8.Proofs.Machine.Scripted

/-!
Runs at an ideal pace.

On an exact clock that only sleeping moves, a machine that nothing holds back but its speed
carries out an instruction whenever one is due, and sleeps until the next. So the passes come in
pairs, one that spends a slot and one that rests; every instruction has its time, and the ticks
that were delivered by then are those of that time.
-/

namespace Chip8

/-! ### Ticks -/

def Core.ticked (core : Core) (count : ℕ) : Core :=
  core.modifyRegisters (count.repeat Registers.tick)

theorem Core.WellFormed.ticked {core : Core} (wellFormed : core.WellFormed) (count : ℕ) :
    (core.ticked count).WellFormed := by
  induction count with
  | zero => exact wellFormed
  | succ count ih => exact ih.act .tick

/-- The ticks that an update finds due. -/
def Moment.delivered {Time : Type} [Scalar Time] (moment : Moment Time) : ℤ :=
  match moment.action with
  | .update now =>
      match moment.machine.timers.update moment.machine.core.registers now with
      | .ok (due, _) => due
      | .error _ => 0
  | _ => 0

/-! ### The cores that the instructions meet -/

namespace Core

/-- Whether the next instruction can be carried out, and is not the one that waits for a key. -/
def Proceeds (core : Core) : Prop :=
  ∃ (word : ℕ) (after : Core), core.fetch = .ok word ∧
    (∀ x : RegisterIndex, word ≠ 0xF00A + 256 * x.val) ∧ core.execute word = .ok () after

/-- The ticks that are due by the time of an instruction, counted from zero, when a given number
of them are carried out in a second. -/
def ticksAt (speed : ℚ) (k : ℕ) : ℤ :=
  ⌊60 * k / speed⌋

/-- The core that an instruction meets, counted from zero, when every one before it is followed by
the ticks of its own interval. -/
def paced (speed : ℚ) (core : Core) : ℕ → Core
  | 0 => core
  | k + 1 =>
      ((core.paced speed k).act .step).state.ticked (ticksAt speed (k + 1) - ticksAt speed k).toNat

/-- What proceeds stays idle, and counts an instruction. -/
theorem Proceeds.step {core : Core} (proceeds : core.Proceeds) (wellFormed : core.WellFormed)
    (idle : core.waiting = none) :
    core.step = .ok true (core.act .step).state ∧ (core.act .step).state.waiting = none ∧
      (core.act .step).state.cycles = core.cycles + 1 := by
  obtain ⟨word, after, fetched, other, executed⟩ := proceeds
  have stepped := step_of_execute idle fetched executed
  have state : (core.act .step).state = after.counted := by
    change core.step.state = _
    rw [stepped, Attempt.state_ok]
  rw [state]
  refine ⟨stepped, ?_, cycles_of_execute executed⟩
  rcases wellFormed.toBounded.step_cases idle with
    ⟨instruction, left, fetchedAgain, done, -, steppedAgain⟩ | ⟨fault, failed, -⟩
  · rw [stepped] at steppedAgain
    injection steppedAgain with _ same
    rw [same]
    rcases waiting_of_perform done with stays | ⟨x, rfl, -⟩
    · exact stays.trans idle
    · rw [fetched] at fetchedAgain
      exact absurd ((Except.ok.inj fetchedAgain).trans (Instruction.assemble_awaitKey x)) (other x)
  · rw [stepped] at failed
    cases failed

end Core

/-! ### Machines that only their speed holds back -/

namespace Machine

structure Unhindered (speed : ℚ) (machine : Machine ℚ) : Prop where
  interval : machine.interval = 1 / speed
  breakpoints : machine.breakpoints = []
  halted : machine.halted = false
  paused : machine.paused = false

/-- What a machine is like before its first run. -/
structure Fresh (speed : ℚ) (machine : Machine ℚ) : Prop extends machine.Unhindered speed where
  wellFormed : machine.core.WellFormed
  idle : machine.core.waiting = none
  cycles : machine.core.cycles = 0
  timers : machine.timers = ⟨1 / 60, none⟩

theorem boot_fresh {settings : Settings} {program : List UInt8} {machine : Machine ℚ}
    (started : boot settings program = .ok machine) (positive : 0 < settings.speed)
    (unmarked : settings.breakpoints = []) : machine.Fresh settings.speed := by
  have wellFormed := boot_wellFormed started
  obtain ⟨timers, interval, memory, ticking, paced, _, rfl⟩ := boot_eq_ok_iff.mp started
  rw [intervalOf_exact positive] at paced
  exact {
    interval := (Except.ok.inj paced).symm
    breakpoints := unmarked
    halted := rfl
    paused := rfl
    wellFormed := wellFormed
    idle := rfl
    cycles := rfl
    timers := (Except.ok.inj (Timers.ofRate_timerRate.symm.trans ticking)).symm }

section Slot

variable {speed : ℚ} {machine : Machine ℚ}

/-- Nothing stops an instruction that proceeds, once its slot is due. -/
theorem Unhindered.slot (free : machine.Unhindered speed) (wellFormed : machine.core.WellFormed)
    (idle : machine.core.waiting = none) (proceeds : machine.core.Proceeds) :
    machine.slotMoments = [⟨machine, .check⟩, ⟨machine, .step⟩] ∧
      ∃ after, machine.slot.attempt = .ok true after ∧ after.Unhindered speed ∧
        after.core = (machine.core.act .step).state ∧ after.timers = machine.timers := by
  have allowed := ready_of_unmarked free.breakpoints free.paused
  constructor
  · unfold slotMoments
    rw [allowed]
  · obtain ⟨stepped, _, _⟩ := proceeds.step wellFormed idle
    exact ⟨_, slot_of_step allowed stepped,
      ⟨free.interval, free.breakpoints, free.halted, free.paused⟩, rfl, rfl⟩

end Slot

/-! ### Catching up -/

section CatchUp

variable (machine : Machine ℚ) {start largest : ℚ} {total : ℤ}

/-- The ticks of an update are those of its time, less the ones before. -/
theorem catchUp_counted (wellFormed : machine.core.WellFormed)
    (counted : machine.timers.Counted 60 start largest total) {now : ℚ} (order : largest ≤ now) :
    ∃ timers : Timers ℚ,
      machine.catchUp now = .ok { machine with
        core := machine.core.ticked (⌊(now - start) * 60⌋ - total).toNat
        timers } ∧
      timers.Counted 60 start now ⌊(now - start) * 60⌋ ∧
      Moment.delivered ⟨machine, .update now⟩ = ⌊(now - start) * 60⌋ - total := by
  obtain ⟨due, timers, registers, updated, carried⟩ :=
    counted.update (by norm_num) now machine.core.registers
  rw [max_eq_right order] at carried
  have sum := carried.total
  have isDue : due = ⌊(now - start) * 60⌋ - total := by omega
  have ticked : registers = due.toNat.repeat Registers.tick machine.core.registers := by
    rw [Timers.update_registers updated, Timers.tickAll_eq wellFormed.registers]
  refine ⟨timers, ?_, ?_, ?_⟩
  · unfold catchUp
    rw [updated, ticked, isDue]
    rfl
  · rw [sum] at carried
    exact carried
  · unfold Moment.delivered
    dsimp only
    rw [updated]
    exact isDue

/-- An update at the time of the last one changes nothing but the timers. -/
theorem catchUp_unmoved (wellFormed : machine.core.WellFormed)
    (counted : machine.timers.Counted 60 start largest total) :
    ∃ timers : Timers ℚ,
      machine.catchUp largest = .ok { machine with timers } ∧
      timers.Counted 60 start largest total ∧
      Moment.delivered ⟨machine, .update largest⟩ = 0 := by
  obtain ⟨timers, caughtUp, carried, delivered⟩ :=
    machine.catchUp_counted wellFormed counted (le_refl largest)
  rw [← counted.total, sub_self] at caughtUp delivered
  rw [← counted.total] at carried
  exact ⟨timers, caughtUp, carried, delivered⟩

end CatchUp

end Machine

/-! ### Instructions and their times -/

def Effect.sleep? {Time : Type} : Effect Time → Option Time
  | .sleep duration => some duration
  | _ => none

def Contact.sleep? {Time : Type} : Contact Time → Option Time
  | .effect asked => asked.sleep?
  | _ => none

/-- A step that is taken: the time, the ticks delivered by then, and the core that it meets. -/
structure Execution (Time : Type) where
  time : Time
  ticks : ℤ
  core : Core

/-- The steps of a list of moments, from a time and a number of ticks on. The time of a step is
that of the last update before it. -/
def executions {Time : Type} [Scalar Time] (time : Time) (ticks : ℤ) :
    List (Moment Time) → List (Execution Time)
  | [] => []
  | moment :: rest =>
      match moment.action with
      | .update now => executions now (ticks + moment.delivered) rest
      | .step => ⟨time, ticks, moment.machine.core⟩ :: executions time ticks rest
      | _ => executions time ticks rest

namespace Machine

variable {speed start : ℚ} {limit : Option Int}

/-- A host that has no events. -/
abbrev quiet : Host ℚ (Outside ℚ) :=
  Host.scripted fun _ => []

variable {machine caught after : Machine ℚ} {due : ℚ}

/-- A pass without events is what it makes of its reading. -/
theorem quiet_course {outside : Outside ℚ} {moments : List (Moment ℚ)} {effects : List (Effect ℚ)}
    {passed : Passed ℚ Unit}
    (goes : (machine.halted || machine.limitReached limit) = false)
    (lap : Lap machine due outside.clock moments effects passed) :
    Course quiet limit ⟨machine, due, outside⟩ (⟨machine, .poll []⟩ :: moments)
      (.poll [] :: .reading (some outside.clock) :: effects.map .effect)
      (passed.within (quiet.performAll effects ⟨outside.polls + 1, outside.clock⟩)) :=
  .goOn goes rfl rfl (Bool.or_eq_false_iff.mp goes).1 rfl lap

/-- A pass that spends its slot on an instruction. -/
theorem spend_course (outside : Outside ℚ)
    (goes : (machine.halted || machine.limitReached limit) = false)
    (caughtUp : machine.catchUp outside.clock = .ok caught) (isDue : due ≤ outside.clock)
    (spent : caught.slot.attempt = .ok true after) :
    ∃ contacts, Course quiet limit ⟨machine, due, outside⟩
        (⟨machine, .poll []⟩ :: ⟨machine, .update outside.clock⟩ :: caught.slotMoments) contacts
        (.again ⟨after, caught.nextDue due outside.clock, ⟨outside.polls + 1, outside.clock⟩⟩) ∧
      contacts.filterMap Contact.poll? = [[]] ∧ contacts.filterMap Contact.sleep? = [] := by
  have course := quiet_course goes
    (.advance caughtUp ((Exact.less_eq_false_iff _ _).mpr isDue) spent)
  have world : quiet.performAll (.tone caught.core.registers.toneActive :: caught.slot.effects)
      ⟨outside.polls + 1, outside.clock⟩ = ⟨outside.polls + 1, outside.clock⟩ := by
    change quiet.performAll caught.slot.effects _ = _
    exact Host.scripted_tell _ caught.slot_effects_tell
  have awake : caught.slot.effects.filterMap Effect.sleep? = [] :=
    Effect.filterMap_of_tell (fun _ => rfl) (fun _ => rfl) caught.slot_effects_tell
  rw [world] at course
  refine ⟨_, course, congrArg ([] :: ·) (filterMap_poll?_effects _), ?_⟩
  exact List.filterMap_map.trans awake

/-- A pass that comes too early, and sleeps until the next slot is due. -/
theorem rest_course (outside : Outside ℚ)
    (goes : (machine.halted || machine.limitReached limit) = false)
    (caughtUp : machine.catchUp outside.clock = .ok caught) (early : outside.clock < due) :
    ∃ contacts, Course quiet limit ⟨machine, due, outside⟩
        [⟨machine, .poll []⟩, ⟨machine, .update outside.clock⟩] contacts
        (.again ⟨caught, due, ⟨outside.polls + 1, due⟩⟩) ∧
      contacts.filterMap Contact.poll? = [[]] ∧
        contacts.filterMap Contact.sleep? = [due - outside.clock] := by
  have course := quiet_course goes (.rest caughtUp ((Exact.less_iff _ _).mpr early))
  have world : quiet.performAll
      [.tone caught.core.registers.toneActive, .sleep (due - outside.clock)]
      ⟨outside.polls + 1, outside.clock⟩ = ⟨outside.polls + 1, due⟩ := by
    change (⟨outside.polls + 1, outside.clock + (due - outside.clock)⟩ : Outside ℚ) = _
    rw [add_sub_cancel]
  rw [world] at course
  exact ⟨_, course, rfl, rfl⟩

/-! ### From one instruction to the next -/

/-- A machine that is about to catch up with the time of an instruction, and to meet it as the
ideal pace has it. -/
structure Poised (speed start : ℚ) (core : Core) (k : ℕ) (ticks : ℤ) (machine : Machine ℚ) :
    Prop extends machine.Unhindered speed where
  wellFormed : (core.paced speed k).WellFormed
  idle : (core.paced speed k).waiting = none
  counted : (core.paced speed k).cycles = k
  cycles : machine.core.cycles = k
  delivered : ticks + Moment.delivered ⟨machine, .update (start + k / speed)⟩ =
    Core.ticksAt speed k
  caught : ∃ caught, machine.catchUp (start + k / speed) = .ok caught ∧
    caught.Unhindered speed ∧ caught.core = core.paced speed k ∧
    caught.timers.Counted 60 start (start + k / speed) (Core.ticksAt speed k)

theorem Fresh.poised {speed : ℚ} {machine : Machine ℚ} (fresh : machine.Fresh speed) (start : ℚ) :
    machine.Poised speed start machine.core 0 0 := by
  have first : start + ((0 : ℕ) : ℚ) / speed = start := by
    rw [Nat.cast_zero, zero_div, add_zero]
  have none : Core.ticksAt speed 0 = 0 := by
    unfold Core.ticksAt
    rw [Nat.cast_zero, mul_zero, zero_div, Int.floor_zero]
  have begun : machine.timers.update machine.core.registers start =
      .ok (0, ⟨1 / 60, some start⟩, machine.core.registers) := by
    rw [fresh.timers]
    rfl
  refine {
    fresh.toUnhindered with
    wellFormed := fresh.wellFormed
    idle := fresh.idle
    counted := fresh.cycles
    cycles := fresh.cycles
    delivered := ?_
    caught := ?_ }
  · rw [first, none]
    unfold Moment.delivered
    dsimp only
    rw [begun, add_zero]
  · rw [first, none]
    have caughtUp : machine.catchUp start =
        .ok { machine with timers := ⟨1 / 60, some start⟩ } := by
      unfold catchUp
      rw [begun]
      rfl
    exact ⟨_, caughtUp, ⟨fresh.interval, fresh.breakpoints, fresh.halted, fresh.paused⟩, rfl,
      Timers.Counted.initial 60 start⟩

/-- A machine that has carried out an instruction, at the time and the ticks of it. -/
structure Carried (speed start : ℚ) (core : Core) (k : ℕ) (machine : Machine ℚ) :
    Prop extends machine.Unhindered speed where
  core : machine.core = ((core.paced speed k).act .step).state
  wellFormed : machine.core.WellFormed
  idle : machine.core.waiting = none
  cycles : machine.core.cycles = k + 1
  timers : machine.timers.Counted 60 start (start + k / speed) (Core.ticksAt speed k)

section Passes

variable {core : Core} {k n : ℕ} {ticks : ℤ}

theorem below_limit (running : machine.halted = false) (cycles : machine.core.cycles < n) :
    (machine.halted || machine.limitReached (some n)) = false := by
  have below : machine.limitReached (some n) = false := by
    unfold limitReached
    exact decide_eq_false (by omega)
  rw [running, below]
  rfl

/-- The pass that carries out an instruction. -/
theorem Poised.spend (poised : machine.Poised speed start core k ticks) (positive : 0 < speed)
    (below : k < n) (proceeds : (core.paced speed k).Proceeds) (polls : ℕ) :
    ∃ moments contacts after,
      Course quiet (some n) ⟨machine, start + k / speed, ⟨polls, start + k / speed⟩⟩ moments
        contacts (.again ⟨after, start + (k + 1 : ℕ) / speed, ⟨polls + 1, start + k / speed⟩⟩) ∧
      contacts.filterMap Contact.poll? = [[]] ∧ contacts.filterMap Contact.sleep? = [] ∧
      (∀ time later, executions time ticks (moments ++ later) =
        ⟨start + k / speed, Core.ticksAt speed k, core.paced speed k⟩ ::
          executions (start + k / speed) (Core.ticksAt speed k) later) ∧
      after.Carried speed start core k := by
  obtain ⟨caught, caughtUp, free, sameCore, counted⟩ := poised.caught
  obtain ⟨_, still, counts⟩ := proceeds.step poised.wellFormed poised.idle
  obtain ⟨slot, after, spent, stillFree, stepped, sameTimers⟩ :=
    free.slot (sameCore ▸ poised.wellFormed) (sameCore ▸ poised.idle) (sameCore ▸ proceeds)
  have goes : (machine.halted || machine.limitReached (some n)) = false :=
    below_limit poised.halted (by rw [poised.cycles]; exact below)
  obtain ⟨contacts, course, polled, awake⟩ :=
    spend_course ⟨polls, start + k / speed⟩ goes caughtUp le_rfl spent
  -- The run is never behind, so the bound on what is made up for has no part in the next time.
  have next : caught.nextDue (start + k / speed) (start + k / speed) =
      start + (k + 1 : ℕ) / speed := by
    have interval : 0 < 1 / speed := one_div_pos.mpr positive
    rw [nextDue_exact, free.interval, max_eq_left (by linarith)]
    push_cast
    ring
  dsimp only at course
  rw [next, slot] at course
  refine ⟨_, contacts, after, course, polled, awake, ?_, ?_⟩
  · intro time later
    rw [← poised.delivered, ← sameCore]
    rfl
  · rw [sameCore] at stepped
    rw [← sameTimers] at counted
    exact {
      stillFree with
      core := stepped
      wellFormed := stepped ▸ poised.wellFormed.act .step
      idle := stepped ▸ still
      cycles := stepped ▸ counts.trans (congrArg (· + 1) poised.counted)
      timers := counted }

/-- The pass that rests until the next instruction is due. -/
theorem Carried.rest (carried : machine.Carried speed start core k) (positive : 0 < speed)
    (below : k + 1 < n) (polls : ℕ) :
    ∃ moments contacts after,
      Course quiet (some n) ⟨machine, start + (k + 1 : ℕ) / speed, ⟨polls, start + k / speed⟩⟩
        moments contacts (.again ⟨after, start + (k + 1 : ℕ) / speed,
          ⟨polls + 1, start + (k + 1 : ℕ) / speed⟩⟩) ∧
      contacts.filterMap Contact.poll? = [[]] ∧
      contacts.filterMap Contact.sleep? = [1 / speed] ∧
      (∀ time later, executions time (Core.ticksAt speed k) (moments ++ later) =
        executions (start + k / speed) (Core.ticksAt speed k) later) ∧
      after.Poised speed start core (k + 1) (Core.ticksAt speed k) := by
  have apart : start + (k + 1 : ℕ) / speed - (start + k / speed) = 1 / speed := by
    push_cast
    ring
  have early : start + k / speed < start + (k + 1 : ℕ) / speed := by
    rw [← sub_pos, apart]
    exact one_div_pos.mpr positive
  obtain ⟨timers, caughtUp, counted, none⟩ :=
    machine.catchUp_unmoved carried.wellFormed carried.timers
  have goes : (machine.halted || machine.limitReached (some n)) = false :=
    below_limit carried.halted (by rw [carried.cycles]; exact below)
  obtain ⟨contacts, course, polled, slept⟩ :=
    rest_course ⟨polls, start + k / speed⟩ goes caughtUp early
  rw [apart] at slept
  refine ⟨_, contacts, _, course, polled, slept, ?_, ?_⟩
  · intro time later
    change executions _ (Core.ticksAt speed k + Moment.delivered _) later = _
    rw [none, add_zero]
  · -- The update behind the sleep finds due what the next instruction has on top of this one.
    have passed : (start + (k + 1 : ℕ) / speed - start) * 60 = 60 * (k + 1 : ℕ) / speed := by ring
    obtain ⟨later, caughtUpLater, countedLater, delivered⟩ :=
      catchUp_counted { machine with timers } carried.wellFormed counted early.le
    rw [passed] at caughtUpLater countedLater delivered
    have ideal : machine.core.ticked (Core.ticksAt speed (k + 1) - Core.ticksAt speed k).toNat =
        core.paced speed (k + 1) := congrArg (Core.ticked · _) carried.core
    exact {
      interval := carried.interval
      breakpoints := carried.breakpoints
      halted := carried.halted
      paused := carried.paused
      wellFormed := ideal ▸ carried.wellFormed.ticked _
      idle := ideal ▸ carried.idle
      counted := ideal ▸ carried.cycles
      cycles := carried.cycles
      delivered := (congrArg _ delivered).trans (add_sub_cancel _ _)
      caught := ⟨_, caughtUpLater, ⟨carried.interval, carried.breakpoints, carried.halted,
        carried.paused⟩, ideal, countedLater⟩ }

end Passes

/-! ### Whole runs -/

/-- An instruction, counted from zero, at the time and the ticks that the pace has for it. -/
def idealExecution (speed start : ℚ) (core : Core) (k : ℕ) : Execution ℚ :=
  ⟨start + k / speed, Core.ticksAt speed k, core.paced speed k⟩

/-- What a run comes to that carries out an instruction, and then some more. -/
structure Schedule (speed start : ℚ) (core : Core) (k more polls : ℕ) (ticks : ℤ)
    (moments : List (Moment ℚ)) (contacts : List (Contact ℚ))
    (finished : Finished ℚ (Outside ℚ)) : Prop where
  ending : finished.ending = .finished
  left : finished.machine.core = ((core.paced speed (k + more)).act .step).state
  world : finished.world = ⟨polls + (2 * more + 1), start + (k + more : ℕ) / speed⟩
  polled : contacts.filterMap Contact.poll? = List.replicate (2 * more + 1) []
  slept : contacts.filterMap Contact.sleep? = List.replicate more (1 / speed)
  executed : ∀ time, executions time ticks moments =
    (List.range' k (more + 1)).map (idealExecution speed start core)

/-- A run that is about to carry out its next instruction keeps to the schedule until it has reached
its limit. -/
theorem Poised.journey {core : Core} {k n more passes : ℕ} {ticks : ℤ}
    (poised : machine.Poised speed start core k ticks) (positive : 0 < speed)
    (proceed : ∀ j < n, (core.paced speed j).Proceeds) (count : k + more + 1 = n)
    (enough : 2 * more + 2 ≤ passes) (polls : ℕ) :
    ∃ moments contacts finished,
      Journey quiet (some n) passes ⟨machine, start + k / speed, ⟨polls, start + k / speed⟩⟩
        moments contacts finished ∧
      Schedule speed start core k more polls ticks moments contacts finished := by
  -- Two passes lead from one poised machine to the next; the last instruction has only its own.
  induction more generalizing machine k polls passes ticks with
  | zero =>
      obtain ⟨further, rfl⟩ : ∃ further, passes = further + 2 := ⟨passes - 2, by omega⟩
      have below : k < n := by omega
      obtain ⟨moments, contacts, after, course, polled, slept, executed, carried⟩ :=
        poised.spend positive below (proceed k below) polls
      have reached : after.limitReached (some n) = true := by
        unfold limitReached
        rw [carried.cycles]
        exact decide_eq_true (by omega)
      have stop : Course quiet (some n)
          ⟨after, start + (k + 1 : ℕ) / speed, ⟨polls + 1, start + k / speed⟩⟩ [] []
            (.over .finished after ⟨polls + 1, start + k / speed⟩) :=
        .stop (Bool.or_eq_true_iff.mpr (Or.inr reached))
      refine ⟨_, _, _, .again course (.close further stop), ?_⟩
      constructor
      · rfl
      · exact carried.core
      · rfl
      · rw [List.filterMap_append, polled, List.nil_append, filterMap_poll?_effects]
        rfl
      · rw [List.filterMap_append, slept]
        rfl
      · intro time
        rw [executed time []]
        rfl
  | succ more ih =>
      obtain ⟨further, rfl⟩ : ∃ further, passes = further + 2 := ⟨passes - 2, by omega⟩
      have below : k + 1 < n := by omega
      have before : k < n := Nat.lt_of_succ_lt below
      obtain ⟨moments, contacts, after, course, polled, slept, executed, carried⟩ :=
        poised.spend positive before (proceed k before) polls
      obtain ⟨between, others, next, rest, polledRest, sleptRest, executedRest, poisedNext⟩ :=
        carried.rest positive below (polls + 1)
      obtain ⟨later, contactsLater, finished, journey, schedule⟩ :=
        ih poisedNext (by omega) (show 2 * more + 2 ≤ further by omega) (polls + 1 + 1)
      refine ⟨_, _, finished, .again course (.again rest journey), ?_⟩
      have same : k + 1 + more = k + (more + 1) := by omega
      constructor
      · exact schedule.ending
      · rw [schedule.left, same]
      · rw [schedule.world, same]
        congr 1
        omega
      · rw [List.filterMap_append, List.filterMap_append, polled, polledRest, schedule.polled]
        rfl
      · rw [List.filterMap_append, List.filterMap_append, slept, sleptRest, schedule.slept]
        rfl
      · intro time
        rw [executed, executedRest, schedule.executed]
        rfl

/-- Instruction time and timer time agree on an ideal clock. A machine that was started with a speed
and without breakpoints is fresh. When nothing happens outside and only sleeping moves the clock, a
fresh machine that is run up to a number of instructions, none of which fails or waits for a key,
polls twice for each but the last, and sleeps for an interval before each but the first. Each is
carried out as many intervals behind the start as there are instructions before it, and has exactly
the ticks of that time behind it. -/
theorem run_ideally_paced :
    (∀ {settings : Settings} {program : List UInt8} {machine : Machine ℚ},
        boot settings program = .ok machine → 0 < settings.speed → settings.breakpoints = [] →
          machine.Fresh settings.speed) ∧
      ∀ {speed : ℚ} {machine : Machine ℚ} {n : ℕ}, 0 < speed → machine.Fresh speed → 1 ≤ n →
        (∀ k < n, (machine.core.paced speed k).Proceeds) →
          ∀ (outside : Outside ℚ) (passes : ℕ), 2 * n ≤ passes →
            let contacts := machine.contacts quiet (some n) passes outside
            let finished := machine.run quiet (some n) passes outside
            contacts.filterMap Contact.poll? = List.replicate (2 * n - 1) [] ∧
              contacts.filterMap Contact.sleep? = List.replicate (n - 1) (1 / speed) ∧
              executions outside.clock 0 (machine.history quiet (some n) passes outside) =
                (List.range n).map (fun k => ⟨outside.clock + k / speed, ⌊60 * k / speed⌋,
                  machine.core.paced speed k⟩) ∧
              finished.ending = .finished ∧
              finished.world =
                ⟨outside.polls + (2 * n - 1), outside.clock + (n - 1 : ℕ) / speed⟩ ∧
              finished.machine.core = ((machine.core.paced speed (n - 1)).act .step).state := by
  refine ⟨boot_fresh, ?_⟩
  intro speed machine n positive fresh some proceed outside passes enough
  obtain ⟨more, rfl⟩ : ∃ more, n = more + 1 := ⟨n - 1, by omega⟩
  have begins : outside.clock + ((0 : ℕ) : ℚ) / speed = outside.clock := by
    rw [Nat.cast_zero, zero_div, add_zero]
  obtain ⟨moments, later, finished, journey, schedule⟩ :=
    (fresh.poised outside.clock).journey positive proceed (show 0 + more + 1 = _ by omega)
      (show 2 * more + 2 ≤ passes by omega) outside.polls
  rw [begins] at journey
  obtain ⟨ran, went, noted⟩ := journey.from_launch rfl
  have polls : 2 * (more + 1) - 1 = 2 * more + 1 := by omega
  dsimp only
  rw [ran, went, noted, polls, Nat.add_sub_cancel]
  refine ⟨schedule.polled, schedule.slept, ?_, schedule.ending, ?_, ?_⟩
  · rw [schedule.executed, List.range_eq_range']
    rfl
  · rw [schedule.world, Nat.zero_add]
  · rw [schedule.left, Nat.zero_add]

/-- A program that jumps to itself meets nothing but that jump. -/
theorem paced_jump_in_place (speed : ℚ) {core : Core}
    (fetched : core.fetch = .ok (Instruction.jump 0x200).assemble)
    (counter : core.registers.counter = 0x200) (idle : core.waiting = none) (k : ℕ) :
    (core.paced speed k).fetch = .ok (Instruction.jump 0x200).assemble ∧
      (core.paced speed k).registers.counter = 0x200 ∧ (core.paced speed k).waiting = none := by
  induction k with
  | zero => exact ⟨fetched, counter, idle⟩
  | succ k ih =>
      obtain ⟨same, place, waits⟩ := ih
      have state : ((core.paced speed k).act .step).state =
          ((core.paced speed k).setCounter 0x200).counted := by
        change (core.paced speed k).step.state = _
        rw [Core.step_of_jump waits same]
        rfl
      obtain ⟨delay, sound, ticked⟩ := Registers.ticks_eq
        ((core.paced speed k).setCounter 0x200).counted.registers
        (Core.ticksAt speed (k + 1) - Core.ticksAt speed k).toNat
      unfold Core.paced Core.ticked Core.modifyRegisters
      rw [state, ticked]
      unfold Core.fetch at same
      rw [place] at same
      exact ⟨same, rfl, waits⟩

/-- At ten instructions a second six ticks come between one jump and the next. -/
theorem run_ideally_paced_jumping :
    ∃ machine : Machine ℚ,
      boot ⟨10, false, 0, [], false, "jump"⟩ [0x12, 0x00] = .ok machine ∧
        machine.Fresh 10 ∧ (∀ k < 3, (machine.core.paced 10 k).Proceeds) ∧
          (machine.contacts quiet (some (3 : ℕ)) 6 ⟨0, 5⟩).filterMap Contact.sleep? =
              [1 / 10, 1 / 10] ∧
            (executions 5 0 (machine.history quiet (some (3 : ℕ)) 6 ⟨0, 5⟩)).map
                (fun execution => (execution.time, execution.ticks)) =
              [(5, 0), (51 / 10, 6), (52 / 10, 12)] ∧
            (machine.run quiet (some (3 : ℕ)) 6 ⟨0, 5⟩).world = ⟨5, 52 / 10⟩ := by
  obtain ⟨machine, booted⟩ : ∃ machine : Machine ℚ,
      boot ⟨10, false, 0, [], false, "jump"⟩ [0x12, 0x00] = .ok machine := ⟨_, rfl⟩
  have fresh : machine.Fresh 10 := run_ideally_paced.1 booted (by decide) rfl
  have counter : machine.core.registers.counter = 0x200 := by
    obtain ⟨_, _, _, _, _, _, rfl⟩ := boot_eq_ok_iff.mp booted
    rfl
  have jumps : machine.core.fetch = .ok (Instruction.jump 0x200).assemble :=
    (boot_fetch booted).trans (congrArg Except.ok (by decide))
  have proceed : ∀ k < 3, (machine.core.paced 10 k).Proceeds := by
    intro k _
    obtain ⟨fetched, _, _⟩ := paced_jump_in_place 10 jumps counter fresh.idle k
    have word : (Instruction.jump 0x200).assemble = 0x1200 := rfl
    have executed := (machine.core.paced 10 k).execute_assembled (.jump 0x200)
    rw [word] at fetched executed
    exact ⟨0x1200, _, fetched, fun x => by omega, executed⟩
  obtain ⟨_, slept, executed, _, world, _⟩ :=
    run_ideally_paced.2 (by norm_num) fresh (by decide) proceed ⟨0, 5⟩ 6 (by decide)
  refine ⟨machine, booted, fresh, proceed, slept, ?_, ?_⟩
  · rw [executed]
    norm_num [List.range, List.range.loop]
  · rw [world]
    norm_num

end Machine

end Chip8
