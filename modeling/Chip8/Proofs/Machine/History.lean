import Chip8.Machine.Run
import Chip8.Proofs.Core.Replay

/-!
The history of a run.

A run is written down beside itself, moment by moment: the machine as it stands and what
it goes through next. A trail is a list of moments that follow from one another, with a
step behind every check that allowed one and nowhere else. The history of a run is a
trail from the machine it began with to the machine it left, so whatever holds along
every trail holds of every run, however it ends and wherever it is cut off.
-/

namespace Chip8

/-- What a running machine goes through. -/
inductive Action (Time : Type)
  | poll (events : List Event)
  | hear (event : Event)
  | update (now : Time)
  /-- The machine is asked whether an instruction may run. -/
  | check
  | step
deriving DecidableEq, Repr

structure Moment (Time : Type) where
  machine : Machine Time
  action : Action Time

theorem Timers.update_interval {Time : Type} [Scalar Time] {timers next : Timers Time}
    {registers after : Registers} {now : Time} {due : Int}
    (updated : timers.update registers now = .ok (due, next, after)) :
    next.interval = timers.interval := by
  unfold update at updated
  split at updated
  · cases updated
    rfl
  · obtain ⟨elapsed, _, updated⟩ := of_bind_ok updated
    obtain ⟨count, _, updated⟩ := of_bind_ok updated
    split at updated <;> cases updated <;> rfl

namespace Machine

variable {Time World : Type} [Scalar Time]

/-- The machine after its timers caught up, or as it was when they could not. -/
def updated (machine : Machine Time) (now : Time) : Machine Time :=
  match machine.catchUp now with
  | .ok caught => caught
  | .error _ => machine

/-- The machine after a step that it was allowed. -/
def stepped (machine : Machine Time) : Machine Time :=
  match machine.step.attempt with
  | .ok true after => after.forgetResumed
  | .ok false after => after
  | .error _ after => after

/-! ### What a request can change -/

omit [Scalar Time] in
/-- What an event can change: the keypad, and whether and how the machine goes on. -/
theorem handle_eq (machine : Machine Time) (event : Event) :
    ∃ keypad halted paused stepPending resumedAt, (machine.handle event).state =
      { machine with
        core := { machine.core with keypad }
        halted, paused, stepPending, resumedAt } := by
  cases event with
  | key number pressed =>
      rw [handle]
      cases machine.core.keypad.set number pressed <;> exact ⟨_, _, _, _, _, rfl⟩
  | resume =>
      rw [handle]
      split <;> exact ⟨_, _, _, _, _, rfl⟩
  | _ => exact ⟨_, _, _, _, _, rfl⟩

omit [Scalar Time] in
theorem ready_eq (machine : Machine Time) :
    ∃ paused stepPending resumedAt,
      machine.ready.state = { machine with paused, stepPending, resumedAt } := by
  unfold ready
  dsimp only
  split
  · exact ⟨_, _, _, rfl⟩
  · split <;> exact ⟨_, _, _, rfl⟩

omit [Scalar Time] in
theorem stepped_eq (machine : Machine Time) :
    ∃ core resumedAt, machine.stepped = { machine with core, resumedAt } := by
  unfold stepped step
  cases machine.core.step with
  | ok anything core => cases anything <;> exact ⟨core, _, rfl⟩
  | error fault core => exact ⟨core, _, rfl⟩

theorem updated_eq (machine : Machine Time) (now : Time) :
    ∃ core timers, machine.updated now = { machine with core, timers } := by
  unfold updated catchUp
  cases machine.timers.update machine.core.registers now with
  | ok outcome => exact ⟨_, _, rfl⟩
  | error fault => exact ⟨machine.core, machine.timers, rfl⟩

/-- An update leaves the length of a tick as it is. -/
theorem updated_ticking (machine : Machine Time) (now : Time) :
    (machine.updated now).timers.interval = machine.timers.interval := by
  unfold updated catchUp
  cases found : machine.timers.update machine.core.registers now with
  | ok outcome => exact Timers.update_interval found
  | error fault => rfl

/-! ### Writing a run down -/

/-- The events that a machine hears of a batch: all up to the first that fails. -/
def hearings (machine : Machine Time) : List Event → List (Moment Time)
  | [] => []
  | event :: rest =>
      ⟨machine, .hear event⟩ ::
        match (machine.handle event).attempt with
        | .ok _ next => next.hearings rest
        | .error .. => []

def slotMoments (machine : Machine Time) : List (Moment Time) :=
  ⟨machine, .check⟩ ::
    match machine.ready.attempt with
    | .ok true arrived => [⟨arrived, .step⟩]
    | _ => []

/-- What follows a reading of the clock when the next slot is due at a given time. -/
def readingMoments (machine : Machine Time) (due now : Time) : List (Moment Time) :=
  ⟨machine, .update now⟩ ::
    match machine.catchUp now with
    | .error _ => []
    | .ok caught => if Scalar.less now due then [] else caught.slotMoments

def passMoments (host : Host Time World) (limit : Option Int) (running : Running Time World) :
    List (Moment Time) :=
  let machine := running.machine
  if machine.halted || machine.limitReached limit then []
  else
    let (events, polled) := host.poll running.world
    let received := machine.receive events
    ⟨machine, .poll events⟩ :: (machine.hearings events ++
      match received.attempt with
      | .error .. => []
      | .ok _ after =>
          if after.halted then []
          else match host.readClock (host.performAll received.effects polled) with
            | (none, _) => []
            | (some now, _) => after.readingMoments running.due now)

def momentsFrom (host : Host Time World) (limit : Option Int) :
    (passes : Nat) → Running Time World → List (Moment Time)
  | 0, _ => []
  | passes + 1, running =>
      passMoments host limit running ++
        match pass host limit running with
        | .again next => momentsFrom host limit passes next
        | .over .. => []

def history (host : Host Time World) (limit : Option Int) (passes : Nat) (machine : Machine Time)
    (world : World) : List (Moment Time) :=
  match launch host machine world with
  | (none, _) => []
  | (some now, left) => momentsFrom host limit passes ⟨machine, now, left⟩

end Machine

/-! ### Trails -/

variable {Time World : Type} [Scalar Time]

/-- Moments that lead from one machine to another. -/
inductive Trail : Machine Time → List (Moment Time) → Machine Time → Prop
  | done (machine : Machine Time) : Trail machine [] machine
  | poll {machine stop : Machine Time} {rest : List (Moment Time)} (events : List Event) :
      Trail machine rest stop → Trail machine (⟨machine, .poll events⟩ :: rest) stop
  | hear {machine stop : Machine Time} {rest : List (Moment Time)} (event : Event) :
      Trail (machine.handle event).state rest stop →
        Trail machine (⟨machine, .hear event⟩ :: rest) stop
  | update {machine stop : Machine Time} {rest : List (Moment Time)} (now : Time) :
      Trail (machine.updated now) rest stop →
        Trail machine (⟨machine, .update now⟩ :: rest) stop
  | refuse {machine stop : Machine Time} {rest : List (Moment Time)} :
      machine.ready.result = .ok false → Trail machine.ready.state rest stop →
        Trail machine (⟨machine, .check⟩ :: rest) stop
  | allow {machine stop : Machine Time} {rest : List (Moment Time)} :
      machine.ready.result = .ok true → Trail machine.ready.state.stepped rest stop →
        Trail machine (⟨machine, .check⟩ :: ⟨machine.ready.state, .step⟩ :: rest) stop

theorem Trail.append {start middle stop : Machine Time} {first second : List (Moment Time)}
    (earlier : Trail start first middle) (later : Trail middle second stop) :
    Trail start (first ++ second) stop := by
  induction earlier with
  | done _ => exact later
  | poll events _ ih => exact .poll events (ih later)
  | hear event _ ih => exact .hear event (ih later)
  | update now _ ih => exact .update now (ih later)
  | refuse answer _ ih => exact .refuse answer (ih later)
  | allow answer _ ih => exact .allow answer (ih later)

/-- The trails that moments divide into at some place. There are two, that meet there, unless it
is between a check and the step that the check allowed. -/
def Trail.Divides (start : Machine Time) (before after : List (Moment Time))
    (stop : Machine Time) : Prop :=
  (∃ middle, Trail start before middle ∧ Trail middle after stop) ∨
    ∃ earlier checked later, before = earlier ++ [⟨checked, .check⟩] ∧
      after = ⟨checked.ready.state, .step⟩ :: later ∧ Trail start earlier checked ∧
        Trail checked.ready.state.stepped later stop

theorem Trail.Divides.behind {start next stop : Machine Time} {before after : List (Moment Time)}
    (divides : Divides next before after stop) (first : List (Moment Time))
    (leads : ∀ {rest : List (Moment Time)} {middle : Machine Time},
      Trail next rest middle → Trail start (first ++ rest) middle) :
    Divides start (first ++ before) after stop := by
  rcases divides with ⟨middle, front, back⟩ | ⟨earlier, checked, later, rfl, rfl, front, back⟩
  · exact Or.inl ⟨middle, leads front, back⟩
  · exact Or.inr ⟨first ++ earlier, checked, later, (List.append_assoc ..).symm, rfl, leads front,
      back⟩

/-- A trail divides at every place. -/
theorem Trail.divides {start stop : Machine Time} {before after : List (Moment Time)}
    (trail : Trail start (before ++ after) stop) : Divides start before after stop := by
  generalize whole : before ++ after = moments at trail
  induction trail generalizing before with
  | done machine =>
      obtain ⟨rfl, rfl⟩ := List.append_eq_nil_iff.mp whole
      exact Or.inl ⟨machine, .done _, .done _⟩
  | poll events further ih =>
      cases before with
      | nil =>
          cases whole
          exact Or.inl ⟨_, .done _, .poll events further⟩
      | cons first before =>
          cases whole
          exact (ih rfl).behind [_] (.poll events)
  | hear event further ih =>
      cases before with
      | nil =>
          cases whole
          exact Or.inl ⟨_, .done _, .hear event further⟩
      | cons first before =>
          cases whole
          exact (ih rfl).behind [_] (.hear event)
  | update now further ih =>
      cases before with
      | nil =>
          cases whole
          exact Or.inl ⟨_, .done _, .update now further⟩
      | cons first before =>
          cases whole
          exact (ih rfl).behind [_] (.update now)
  | refuse refused further ih =>
      cases before with
      | nil =>
          cases whole
          exact Or.inl ⟨_, .done _, .refuse refused further⟩
      | cons first before =>
          cases whole
          exact (ih rfl).behind [_] (.refuse refused)
  | allow allowed further ih =>
      cases before with
      | nil =>
          cases whole
          exact Or.inl ⟨_, .done _, .allow allowed further⟩
      | cons first before =>
          cases before with
          | nil =>
              cases whole
              exact Or.inr ⟨[], _, _, rfl, rfl, .done _, further⟩
          | cons second before =>
              cases whole
              exact (ih rfl).behind [_, _] (.allow allowed)

theorem Trail.divide {start machine stop : Machine Time} {before after : List (Moment Time)}
    (trail : Trail start (before ++ ⟨machine, .check⟩ :: after) stop) :
    Trail start before machine ∧ Trail machine (⟨machine, .check⟩ :: after) stop := by
  rcases trail.divides with ⟨middle, front, back⟩ | ⟨_, _, _, _, impossible, _⟩
  · have same : middle = machine := by cases back <;> rfl
    rw [same] at front back
    exact ⟨front, back⟩
  · cases impossible

/-- A step comes right behind the check that allowed it, and the trail goes on behind it. -/
theorem Trail.divide_at_step {start ran stop : Machine Time} {before after : List (Moment Time)}
    (trail : Trail start (before ++ ⟨ran, .step⟩ :: after) stop) :
    (∃ earlier checked, before = earlier ++ [⟨checked, .check⟩] ∧ ran = checked.ready.state ∧
        Trail start earlier checked) ∧
      Trail ran.stepped after stop := by
  rcases trail.divides with ⟨_, _, impossible⟩ | ⟨earlier, checked, later, rfl, same, front, back⟩
  · cases impossible
  · cases same
    exact ⟨⟨earlier, checked, rfl, rfl, front⟩, back⟩

namespace Machine

def Passed.machine : Passed Time World → Machine Time
  | .again running => running.machine
  | .over _ machine _ => machine

omit [Scalar Time] in
theorem ready_cases (machine : Machine Time) :
    (∃ arrived, machine.ready.attempt = .ok true arrived) ∨
      ∃ arrived, machine.ready.attempt = .ok false arrived := by
  unfold ready
  dsimp only
  split
  · exact Or.inl ⟨_, rfl⟩
  · split
    · exact Or.inl ⟨_, rfl⟩
    · exact Or.inr ⟨_, rfl⟩

omit [Scalar Time] in
theorem hearings_hear (machine : Machine Time) (events : List Event) :
    ∀ moment ∈ machine.hearings events, ∃ left event, moment = ⟨left, .hear event⟩ := by
  induction events generalizing machine with
  | nil => exact List.forall_mem_nil _
  | cons event rest ih =>
      rw [hearings, List.forall_mem_cons]
      refine ⟨⟨machine, event, rfl⟩, ?_⟩
      cases (machine.handle event).attempt with
      | ok answer next => exact ih next
      | error fault left => exact List.forall_mem_nil _

theorem hearings_trail (machine : Machine Time) (events : List Event) :
    Trail machine (machine.hearings events) (machine.receive events).state := by
  induction events generalizing machine with
  | nil => exact .done machine
  | cons event rest ih =>
      cases heard : (machine.handle event).attempt with
      | error fault left =>
          simp only [hearings, receive, heard]
          exact .hear event (.done _)
      | ok answer next =>
          simp only [hearings, receive, heard]
          refine .hear event ?_
          rw [Response.state_of_ok heard]
          exact ih next

theorem slot_trail (machine : Machine Time) :
    Trail machine machine.slotMoments machine.slot.state := by
  rcases machine.ready_cases with ⟨arrived, answer⟩ | ⟨arrived, answer⟩
  · have state : machine.ready.state = arrived := Response.state_of_ok answer
    have left : machine.slot.state = arrived.stepped := by
      unfold slot stepped
      simp only [answer]
      cases taken : arrived.step.attempt with
      | ok anything after => cases anything <;> rfl
      | error fault after => rfl
    unfold slotMoments
    simp only [answer]
    rw [left, ← state]
    exact .allow (Response.result_of_ok answer) (.done _)
  · have left : machine.slot.state = machine.ready.state := by
      unfold slot
      simp only [answer]
    unfold slotMoments
    simp only [answer]
    rw [left]
    exact .refuse (Response.result_of_ok answer) (.done _)

omit [Scalar Time] in
theorem slot_of_step {machine arrived : Machine Time} {after : Core}
    (allowed : machine.ready.attempt = .ok true arrived)
    (taken : arrived.core.step = .ok true after) :
    machine.slot.attempt = .ok true (arrived.withCore after).forgetResumed := by
  have stepped : arrived.step.attempt = .ok true (arrived.withCore after) := by
    unfold step
    rw [taken]
    rfl
  unfold slot
  simp only [allowed, stepped]

theorem spendSlot_machine (host : Host Time World) (running : Running Time World) :
    (spendSlot host running).machine = running.machine.slot.state := by
  unfold spendSlot Response.state
  dsimp only
  cases running.machine.slot.attempt with
  | error fault left => rfl
  | ok anything left => cases anything <;> rfl

theorem passAt_of_due {running : Running Time World} {now : Time} {caught : Machine Time}
    (host : Host Time World) (caughtUp : running.machine.catchUp now = .ok caught)
    (due : Scalar.less now running.due = false) :
    passAt host running now =
      spendSlot host ⟨caught, caught.nextDue running.due now,
        host.perform (.tone caught.core.registers.toneActive) running.world⟩ := by
  unfold passAt
  simp only [caughtUp, due, Bool.false_eq_true, ↓reduceIte]

theorem readingMoments_of_due {machine caught : Machine Time} {due now : Time}
    (caughtUp : machine.catchUp now = .ok caught) (isDue : Scalar.less now due = false) :
    machine.readingMoments due now = ⟨machine, .update now⟩ :: caught.slotMoments := by
  unfold readingMoments
  simp only [caughtUp, isDue, Bool.false_eq_true, ↓reduceIte]

theorem passAt_trail (host : Host Time World) (running : Running Time World) (now : Time) :
    Trail running.machine (running.machine.readingMoments running.due now)
      (passAt host running now).machine := by
  refine .update now ?_
  unfold updated passAt
  cases caughtUp : running.machine.catchUp now with
  | error fault => exact .done _
  | ok caught =>
      dsimp only
      by_cases early : Scalar.less now running.due = true
      · rw [if_pos early, if_pos early]
        exact .done _
      · rw [if_neg early, if_neg early, spendSlot_machine]
        exact slot_trail caught

theorem pass_trail (host : Host Time World) (limit : Option Int) (running : Running Time World) :
    Trail running.machine (passMoments host limit running) (pass host limit running).machine := by
  unfold passMoments pass
  dsimp only
  split
  · exact .done _
  · refine .poll _ ?_
    generalize (host.poll running.world).1 = events
    have heard := hearings_trail running.machine events
    cases received : (running.machine.receive events).attempt with
    | error fault after =>
        rw [Response.state_of_error received] at heard
        dsimp only
        rw [List.append_nil]
        exact heard
    | ok answer after =>
        rw [Response.state_of_ok received] at heard
        refine heard.append ?_
        dsimp only
        split
        · exact .done _
        · generalize host.readClock _ = reading
          obtain ⟨now | now, left⟩ := reading
          · exact .done _
          · exact passAt_trail host ⟨after, running.due, left⟩ now

theorem runFrom_of_again {host : Host Time World} {limit : Option Int}
    {running next : Running Time World} (led : pass host limit running = .again next)
    (passes : Nat) : runFrom host limit (passes + 1) running = runFrom host limit passes next := by
  rw [runFrom, led]

theorem runFrom_of_over {host : Host Time World} {limit : Option Int}
    {running : Running Time World} {ending : Ending} {machine : Machine Time} {world : World}
    (led : pass host limit running = .over ending machine world) (passes : Nat) :
    runFrom host limit (passes + 1) running = settle host ending machine world := by
  rw [runFrom, led]

theorem momentsFrom_succ {host : Host Time World} {limit : Option Int}
    {running next : Running Time World} (led : pass host limit running = .again next)
    (passes : Nat) :
    momentsFrom host limit (passes + 1) running =
      passMoments host limit running ++ momentsFrom host limit passes next := by
  rw [momentsFrom, led]

theorem momentsFrom_one (host : Host Time World) (limit : Option Int)
    (running : Running Time World) :
    momentsFrom host limit 1 running = passMoments host limit running := by
  rw [momentsFrom]
  cases pass host limit running <;> exact List.append_nil _

theorem runFrom_trail (host : Host Time World) (limit : Option Int) (passes : Nat)
    (running : Running Time World) :
    Trail running.machine (momentsFrom host limit passes running)
      (runFrom host limit passes running).machine := by
  induction passes generalizing running with
  | zero => exact .done _
  | succ passes ih =>
      have passed := pass_trail host limit running
      unfold momentsFrom runFrom
      rcases led : pass host limit running with next | ⟨ending, machine, world⟩
      · rw [led] at passed
        exact passed.append (ih next)
      · rw [led] at passed
        rw [List.append_nil]
        exact passed

/-- The history of a run leads from the machine it began with to the one it left. -/
theorem run_trail (host : Host Time World) (limit : Option Int) (passes : Nat)
    (machine : Machine Time) (world : World) :
    Trail machine (machine.history host limit passes world)
      (machine.run host limit passes world).machine := by
  unfold history run
  generalize launch host machine world = launched
  obtain ⟨now | now, left⟩ := launched
  · exact .done _
  · exact runFrom_trail host limit passes ⟨machine, now, left⟩

end Machine

/-- Nothing that a running machine goes through changes its pace, its breakpoints, whether it is
traced or how long its ticks are. -/
theorem Trail.setup_eq {start stop : Machine Time} {moments : List (Moment Time)}
    (trail : Trail start moments stop) :
    stop.interval = start.interval ∧ stop.breakpoints = start.breakpoints ∧
      stop.trace = start.trace ∧ stop.timers.interval = start.timers.interval := by
  induction trail with
  | done machine => exact ⟨rfl, rfl, rfl, rfl⟩
  | poll events _ ih => exact ih
  | @hear machine _ _ event _ ih =>
      obtain ⟨_, _, _, _, _, same⟩ := machine.handle_eq event
      rw [same] at ih
      exact ih
  | @update machine _ _ now _ ih =>
      have ticking := machine.updated_ticking now
      obtain ⟨core, timers, same⟩ := machine.updated_eq now
      rw [same] at ih ticking
      obtain ⟨pace, breakpoints, traced, ticks⟩ := ih
      exact ⟨pace, breakpoints, traced, ticks.trans ticking⟩
  | @refuse machine _ _ _ _ ih =>
      obtain ⟨_, _, _, same⟩ := machine.ready_eq
      rw [same] at ih
      exact ih
  | @allow machine _ _ _ _ ih =>
      obtain ⟨_, _, _, same⟩ := machine.ready_eq
      obtain ⟨_, _, left⟩ := machine.ready.state.stepped_eq
      rw [left, same] at ih
      exact ih

/-! ### All runs of a machine -/

/-- A machine has started exactly when its parts could be made and its program fits. -/
theorem Machine.boot_eq_ok_iff {settings : Settings} {program : List UInt8}
    {machine : Machine Time} :
    boot settings program = .ok machine ↔
      ∃ timers interval memory,
        Timers.ofRate (Scalar.ofInt Layout.timerRate) = .ok timers ∧
          intervalOf settings.speed = .ok interval ∧
          (Memory.ofSize Layout.memorySize).load program Layout.programStart settings.name =
            .ok memory ∧
          machine = ⟨{ Core.blank settings.seed settings.shiftsSecond with memory }, timers,
            interval, settings.breakpoints, settings.trace, false, false, false, none⟩ := by
  unfold boot blank
  cases (Timers.ofRate (Scalar.ofInt Layout.timerRate) : Except Fault (Timers Time)) with
  | error fault => simp only [bind, Except.bind, reduceCtorEq, false_and, exists_false]
  | ok timers =>
      cases (intervalOf settings.speed : Except Fault Time) with
      | error fault =>
          simp only [bind, Except.bind, reduceCtorEq, false_and, and_false, exists_false]
      | ok interval =>
          have empty : (Core.blank settings.seed settings.shiftsSecond).memory =
              Memory.ofSize Layout.memorySize := rfl
          simp only [bind, Except.bind, pure, Except.pure, empty]
          cases (Memory.ofSize Layout.memorySize).load program Layout.programStart
              settings.name with
          | error fault => simp only [reduceCtorEq, false_and, and_false, exists_false]
          | ok memory =>
              simp only [Except.ok.injEq]
              constructor
              · intro same
                exact ⟨timers, interval, memory, rfl, rfl, rfl, same.symm⟩
              · rintro ⟨_, _, _, rfl, rfl, rfl, same⟩
                exact same.symm

/-- The machines that runs bring a program to, each with the moments of all its runs. -/
inductive Played (settings : Settings) (program : List UInt8) :
    List (Moment Time) → Machine Time → Prop
  | boot {machine : Machine Time} :
      Machine.boot settings program = .ok machine → Played settings program [] machine
  | run {moments : List (Moment Time)} {machine : Machine Time} {World : Type}
      (host : Host Time World) (limit : Option Int) (passes : Nat) (world : World) :
      Played settings program moments machine →
        Played settings program (moments ++ machine.history host limit passes world)
          (machine.run host limit passes world).machine

theorem Played.trail {settings : Settings} {program : List UInt8} {moments : List (Moment Time)}
    {machine : Machine Time} (played : Played settings program moments machine) :
    ∃ start, Machine.boot settings program = .ok start ∧ Trail start moments machine := by
  induction played with
  | boot started => exact ⟨_, started, .done _⟩
  | run host limit passes world _ ih =>
      obtain ⟨start, started, trail⟩ := ih
      exact ⟨start, started, trail.append (Machine.run_trail host limit passes _ world)⟩

end Chip8
