import Chip8.Proofs.Machine.Ending
import Chip8.Proofs.Machine.Pause
import Chip8.Proofs.Machine.Shown

/-!
What a run accounts for, and when it stops.

A pass polls once and takes one step at most, and a step counts one instruction at most. So a
limited run never counts beyond its limit, unless it began there, and it finishes by itself only
when it was halted or has reached the limit. An operator who quits is heard out, and nothing
happens behind that poll but the end of the run.
-/

namespace Chip8

/-! ### Counting instructions -/

namespace Core

variable {core after : Core}

theorem cycles_of_execute {word : Int} (executed : core.execute word = .ok () after) :
    after.counted.cycles = core.cycles + 1 := by
  obtain ⟨instruction, _, performed⟩ := of_execute executed
  exact congrArg (· + 1) (kept_of_perform performed).1

/-- A step counts one instruction, or none. -/
theorem cycles_act_step (core : Core) :
    (core.act .step).state.cycles = core.cycles ∨
      (core.act .step).state.cycles = core.cycles + 1 := by
  change core.step.state.cycles = _ ∨ core.step.state.cycles = _
  cases waits : core.waiting with
  | some x =>
      rw [step_of_waiting waits]
      cases changed : core.keypad.fresh with
      | false =>
          rw [deliverKey_of_stale changed]
          exact Or.inl rfl
      | true =>
          rw [deliverKey_of_fresh changed]
          exact Or.inl rfl
  | none =>
      cases fetched : core.fetch with
      | error fault =>
          rw [step_of_fetch_error waits fetched]
          exact Or.inl rfl
      | ok word =>
          cases executed : core.execute word with
          | ok answer after =>
              rw [step_of_execute waits fetched executed]
              exact Or.inr (cycles_of_execute executed)
          | error fault left =>
              rw [step_of_execute_error waits fetched executed]
              unfold execute at executed
              split at executed
              · obtain ⟨stack, rfl⟩ := of_perform_error executed
                exact Or.inl rfl
              · cases executed
                exact Or.inl rfl

end Core

variable {Time World : Type} [Scalar Time]

namespace Machine

def cycles (machine : Machine Time) : Nat :=
  machine.core.cycles

omit [Scalar Time] in
theorem handle_cycles (machine : Machine Time) (event : Event) :
    (machine.handle event).state.cycles = machine.cycles := by
  obtain ⟨_, _, _, _, _, same⟩ := machine.handle_eq event
  rw [same]
  rfl

omit [Scalar Time] in
theorem ready_cycles (machine : Machine Time) : machine.ready.state.cycles = machine.cycles :=
  congrArg Core.cycles machine.ready_core

theorem updated_cycles (machine : Machine Time) (now : Time) :
    (machine.updated now).cycles = machine.cycles :=
  (congrArg Core.cycles (machine.updated_core now)).trans rfl

omit [Scalar Time] in
theorem stepped_cycles (machine : Machine Time) :
    machine.stepped.cycles = machine.cycles ∨ machine.stepped.cycles = machine.cycles + 1 := by
  unfold cycles
  rw [machine.stepped_core]
  exact machine.core.cycles_act_step

end Machine

/-- Along a trail the count never falls, and a step raises it by one at most. -/
theorem Trail.cycles {start stop : Machine Time} {moments : List (Moment Time)}
    (trail : Trail start moments stop) :
    start.cycles ≤ stop.cycles ∧ stop.cycles ≤ start.cycles + moments.countP Moment.takes ∧
      ∀ moment ∈ moments, moment.machine.cycles ≤ stop.cycles := by
  induction trail with
  | done machine => exact ⟨Nat.le_refl _, Nat.le_refl _, List.forall_mem_nil _⟩
  | poll events _ ih =>
      obtain ⟨rises, most, below⟩ := ih
      exact ⟨rises, most, List.forall_mem_cons.mpr ⟨rises, below⟩⟩
  | @hear machine _ _ event _ ih =>
      rw [machine.handle_cycles] at ih
      obtain ⟨rises, most, below⟩ := ih
      exact ⟨rises, most, List.forall_mem_cons.mpr ⟨rises, below⟩⟩
  | @update machine _ _ now _ ih =>
      rw [machine.updated_cycles] at ih
      obtain ⟨rises, most, below⟩ := ih
      exact ⟨rises, most, List.forall_mem_cons.mpr ⟨rises, below⟩⟩
  | @refuse machine _ _ _ _ ih =>
      rw [machine.ready_cycles] at ih
      obtain ⟨rises, most, below⟩ := ih
      exact ⟨rises, most, List.forall_mem_cons.mpr ⟨rises, below⟩⟩
  | @allow machine _ rest _ _ ih =>
      obtain ⟨rises, most, below⟩ := ih
      have counted : List.countP Moment.takes
          (⟨machine, .check⟩ :: ⟨machine.ready.state, .step⟩ :: rest) =
            rest.countP Moment.takes + 1 := by
        rw [List.countP_cons_of_neg Bool.false_ne_true, List.countP_cons_of_pos rfl]
      have once := machine.ready.state.stepped_cycles
      have same := machine.ready_cycles
      refine ⟨by omega, by omega, ?_⟩
      refine List.forall_mem_cons.mpr ⟨?_, List.forall_mem_cons.mpr ⟨?_, below⟩⟩
      · dsimp only
        omega
      · dsimp only
        omega

/-! ### What a pass does -/

def Contact.poll? : Contact Time → Option (List Event)
  | .poll events => some events
  | _ => none

def Moment.poll? (moment : Moment Time) : Option (List Event) :=
  match moment.action with
  | .poll events => some events
  | _ => none

omit [Scalar Time] in
theorem filterMap_poll?_effects (effects : List (Effect Time)) :
    (effects.map Contact.effect).filterMap Contact.poll? = [] :=
  List.filterMap_eq_nil_iff.mpr (List.forall_mem_map.mpr fun _ _ => rfl)

namespace Machine

/-- The contacts of a single pass. -/
def passContacts (host : Host Time World) (limit : Option Int) (running : Running Time World) :
    List (Contact Time) :=
  (pass host.recorded limit (running.recorded [])).world.2

theorem Course.passContacts {host : Host Time World} {limit : Option Int}
    {running : Running Time World} {moments : List (Moment Time)}
    {contacts : List (Contact Time)} {passed : Passed Time World}
    (course : Course host limit running moments contacts passed) :
    passContacts host limit running = contacts := by
  unfold Machine.passContacts
  rw [(course.recorded []).sound.1]
  cases passed <;> rfl

omit [Scalar Time] in
theorem hearings_quiet (machine : Machine Time) (events : List Event) :
    (machine.hearings events).filterMap Moment.poll? = [] ∧
      (machine.hearings events).countP Moment.takes = 0 := by
  have heard := machine.hearings_hear events
  constructor
  · refine List.filterMap_eq_nil_iff.mpr fun moment member => ?_
    obtain ⟨_, _, rfl⟩ := heard moment member
    rfl
  · refine List.countP_eq_zero.mpr fun moment member => ?_
    obtain ⟨_, _, rfl⟩ := heard moment member
    exact Bool.false_ne_true

omit [Scalar Time] in
theorem slotMoments_once (machine : Machine Time) :
    machine.slotMoments.filterMap Moment.poll? = [] ∧
      machine.slotMoments.countP Moment.takes ≤ 1 := by
  unfold slotMoments
  rcases machine.ready_cases with ⟨arrived, answer⟩ | ⟨arrived, answer⟩
  · rw [answer]
    exact ⟨rfl, Nat.le_refl 1⟩
  · rw [answer]
    exact ⟨rfl, Nat.zero_le 1⟩

theorem Lap.once {machine : Machine Time} {due now : Time} {moments : List (Moment Time)}
    {effects : List (Effect Time)} {passed : Passed Time Unit}
    (lap : Lap machine due now moments effects passed) :
    moments.filterMap Moment.poll? = [] ∧ moments.countP Moment.takes ≤ 1 := by
  cases lap with
  | lapse caughtUp | rest caughtUp early => exact ⟨rfl, Nat.zero_le 1⟩
  | fail caughtUp isDue spent | advance caughtUp isDue spent | stall caughtUp isDue spent =>
      exact slotMoments_once _

/-- A machine that is halted or at its limit makes no pass. -/
theorem Course.of_stops {host : Host Time World} {limit : Option Int}
    {running : Running Time World} {moments : List (Moment Time)}
    {contacts : List (Contact Time)} {passed : Passed Time World}
    (course : Course host limit running moments contacts passed)
    (stops : (running.machine.halted || running.machine.limitReached limit) = true) :
    moments = [] ∧ contacts = [] ∧ passed = .over .finished running.machine running.world := by
  cases course with
  | stop => exact ⟨rfl, rfl, rfl⟩
  | refuse goes | halt goes | interrupt goes | goOn goes =>
      rw [stops] at goes
      cases goes

/-- A pass that is made begins with its only poll, and takes one step at most. -/
theorem Course.once {host : Host Time World} {limit : Option Int} {running : Running Time World}
    {moments : List (Moment Time)} {contacts : List (Contact Time)} {passed : Passed Time World}
    (course : Course host limit running moments contacts passed)
    (goes : (running.machine.halted || running.machine.limitReached limit) = false) :
    (∃ rest, contacts = .poll (host.poll running.world).1 :: rest ∧
        rest.filterMap Contact.poll? = []) ∧
      moments.filterMap Moment.poll? = [(host.poll running.world).1] ∧
      moments.countP Moment.takes ≤ 1 := by
  have heard := running.machine.hearings_quiet (host.poll running.world).1
  cases course with
  | stop stops =>
      rw [stops] at goes
      cases goes
  | refuse _ handed | halt _ handed | interrupt _ handed =>
      rw [handed] at heard ⊢
      refine ⟨⟨_, rfl, ?_⟩, ?_, ?_⟩
      · simp only [List.filterMap_cons, List.filterMap_append, List.filterMap_nil, Contact.poll?,
          filterMap_poll?_effects, List.append_nil]
      · simp only [List.filterMap_cons, Moment.poll?, heard.1]
      · rw [List.countP_cons_of_neg Bool.false_ne_true, heard.2]
        exact Nat.zero_le 1
  | goOn _ handed _ _ _ lap =>
      rw [handed] at heard ⊢
      refine ⟨⟨_, rfl, ?_⟩, ?_, ?_⟩
      · simp only [List.filterMap_cons, List.filterMap_append, Contact.poll?,
          filterMap_poll?_effects, List.append_nil]
      · simp only [List.filterMap_cons, List.filterMap_append, Moment.poll?, heard.1, lap.once.1,
          List.append_nil]
      · rw [List.countP_cons_of_neg Bool.false_ne_true, List.countP_append, heard.2,
          Nat.zero_add]
        exact lap.once.2

theorem Course.polls {host : Host Time World} {limit : Option Int} {running : Running Time World}
    {moments : List (Moment Time)} {contacts : List (Contact Time)} {passed : Passed Time World}
    (course : Course host limit running moments contacts passed) :
    contacts.filterMap Contact.poll? = moments.filterMap Moment.poll? := by
  cases goes : running.machine.halted || running.machine.limitReached limit with
  | true =>
      obtain ⟨rfl, rfl, _⟩ := course.of_stops goes
      rfl
  | false =>
      obtain ⟨⟨rest, rfl, quiet⟩, polled, _⟩ := course.once goes
      rw [polled, List.filterMap_cons, quiet]
      rfl

/-! ### Limits -/

theorem Course.within {host : Host Time World} {count : Int} {running : Running Time World}
    {moments : List (Moment Time)} {contacts : List (Contact Time)} {passed : Passed Time World}
    (course : Course host (some count) running moments contacts passed) :
    (passed.machine.cycles : Int) ≤ max count running.machine.cycles := by
  cases goes : running.machine.halted || running.machine.limitReached (some count) with
  | true =>
      obtain ⟨_, _, rfl⟩ := course.of_stops goes
      exact Int.le_max_right _ _
  | false =>
      have below : ¬ count ≤ running.machine.cycles := by
        have unreached := (Bool.or_eq_false_iff.mp goes).2
        exact of_decide_eq_false unreached
      have most := course.trail.cycles.2.1
      have once := (course.once goes).2.2
      omega

/-- A pass finishes a run with a machine that is halted, or that was at its limit already. -/
theorem Course.finished {host : Host Time World} {limit : Option Int}
    {running : Running Time World} {moments : List (Moment Time)}
    {contacts : List (Contact Time)} {machine : Machine Time} {world : World}
    (course : Course host limit running moments contacts (.over .finished machine world)) :
    machine.halted = true ∨
      running.machine.limitReached limit = true ∧ machine = running.machine := by
  generalize led : Passed.over .finished machine world = passed at course
  cases course with
  | stop stops =>
      cases led
      exact (Bool.or_eq_true_iff.mp stops).imp id fun reached => ⟨reached, rfl⟩
  | halt _ _ _ halted =>
      cases led
      exact Or.inl halted
  | refuse | interrupt => cases led
  | goOn _ _ _ _ _ lap => cases lap <;> cases led

section Journey

variable {host : Host Time World} {limit : Option Int} {passes : Nat}
  {running : Running Time World} {moments : List (Moment Time)} {contacts : List (Contact Time)}
  {finished : Finished Time World}

theorem Journey.within {count : Int}
    (journey : Journey host (some count) passes running moments contacts finished) :
    (finished.machine.cycles : Int) ≤ max count running.machine.cycles := by
  induction journey with
  | unfinished running => exact Int.le_max_right _ _
  | @again _ running next _ _ _ _ _ course _ ih =>
      have first : (next.machine.cycles : Int) ≤ max count running.machine.cycles := course.within
      omega
  | close _ course => exact course.within

theorem Journey.stops
    (journey : Journey host limit passes running moments contacts finished)
    (isOver : finished.ending = .finished) :
    finished.machine.halted = true ∨ finished.machine.limitReached limit = true := by
  induction journey with
  | unfinished running => cases isOver
  | again _ _ ih => exact ih isOver
  | close _ course =>
      cases isOver
      rcases course.finished with halted | ⟨reached, rfl⟩
      · exact Or.inl halted
      · exact Or.inr reached

theorem Journey.of_halted
    (journey : Journey host limit passes running moments contacts finished)
    (halted : running.machine.halted = true) : contacts.filterMap Contact.poll? = [] := by
  have stops : (running.machine.halted || running.machine.limitReached limit) = true := by
    rw [halted, Bool.true_or]
  cases journey with
  | unfinished => rfl
  | again course _ =>
      obtain ⟨_, _, impossible⟩ := course.of_stops stops
      cases impossible
  | close _ course =>
      obtain ⟨_, rfl, _⟩ := course.of_stops stops
      exact filterMap_poll?_effects _

end Journey

/-! ### Quitting -/

omit [Scalar Time] in
/-- An event that concerns the keypad at most is heard, and a machine that is told to quit is
halted from then on. -/
theorem handle_onKeypad (machine : Machine Time) {event : Event} (onKeypad : event.OnKeypad) :
    ∃ next, (machine.handle event).attempt = .ok () next ∧
      (machine.halted = true ∨ event = .quit → next.halted = true) := by
  cases event with
  | key number pressed =>
      obtain ⟨lower, upper⟩ : 0 ≤ number ∧ number < 16 := onKeypad
      obtain ⟨keypad, changed⟩ := machine.core.keypad.set_of_inside lower upper pressed
      refine ⟨machine.withCore { machine.core with keypad }, ?_, ?_⟩
      · rw [handle]
        simp only [changed]
      · exact fun halts => halts.resolve_right Event.noConfusion
  | quit => exact ⟨machine.halt, rfl, fun _ => rfl⟩
  | resume =>
      rw [handle]
      split
      · exact ⟨_, rfl, fun halts => halts.resolve_right Event.noConfusion⟩
      · exact ⟨_, rfl, fun halts => halts.resolve_right Event.noConfusion⟩
  | step | unknown => exact ⟨_, rfl, fun halts => halts.resolve_right Event.noConfusion⟩

omit [Scalar Time] in
/-- All events of a batch that concern the keypad at most are heard. -/
theorem receive_onKeypad (machine : Machine Time) {events : List Event}
    (onKeypad : ∀ event ∈ events, event.OnKeypad) :
    ∃ after, (machine.receive events).attempt = .ok () after ∧
      (machine.hearings events).map Moment.action = events.map .hear ∧
      (machine.halted = true ∨ .quit ∈ events → after.halted = true) := by
  induction events generalizing machine with
  | nil => exact ⟨machine, rfl, rfl, fun halts => halts.resolve_right List.not_mem_nil⟩
  | cons event rest ih =>
      obtain ⟨here, others⟩ := List.forall_mem_cons.mp onKeypad
      obtain ⟨next, heard, halts⟩ := machine.handle_onKeypad here
      obtain ⟨after, received, actions, halted⟩ := ih next others
      refine ⟨after, ?_, ?_, ?_⟩
      · simp only [receive, heard, received]
      · simp only [hearings, heard, List.map_cons, actions]
      · rintro (already | quits)
        · exact halted (Or.inl (halts (Or.inl already)))
        · rcases List.mem_cons.mp quits with same | later
          · exact halted (Or.inl (halts (Or.inr same.symm)))
          · exact halted (Or.inr later)

omit [Scalar Time] in
/-- Contacts that do not poll end before a poll. -/
theorem split_poll {first later before after : List (Contact Time)} {events : List Event}
    (quiet : first.filterMap Contact.poll? = [])
    (split : first ++ later = before ++ .poll events :: after) :
    ∃ further, before = first ++ further ∧ later = further ++ .poll events :: after := by
  rcases List.append_eq_append_iff.mp split with ⟨further, same, rest⟩ | ⟨further, same, rest⟩
  · exact ⟨further, same, rest⟩
  · cases further with
    | nil => exact ⟨[], by rw [same, List.append_nil, List.append_nil], rest.symm⟩
    | cons contact further =>
        cases rest
        rw [same, List.filterMap_append, List.filterMap_cons] at quiet
        simp only [Contact.poll?, List.append_eq_nil_iff, reduceCtorEq, and_false] at quiet

/-- A pass in which the operator quits is the last one, and nothing happens behind its poll. -/
theorem Course.of_quit {host : Host Time World} {limit : Option Int}
    {running : Running Time World} {moments : List (Moment Time)}
    {rest : List (Contact Time)} {passed : Passed Time World} {events : List Event}
    (course : Course host limit running moments (.poll events :: rest) passed)
    (quits : .quit ∈ events) (onKeypad : ∀ event ∈ events, event.OnKeypad) :
    moments = ⟨running.machine, .poll events⟩ :: running.machine.hearings events ∧
      ∃ (left : Machine Time) (world : World) (records : List Record),
        passed = .over .finished left world ∧
          (running.machine.receive events).attempt = .ok () left ∧
          rest = (records.map .log).map .effect := by
  obtain ⟨left, received, _, halts⟩ := running.machine.receive_onKeypad onKeypad
  obtain ⟨records, told⟩ := running.machine.receive_effects events
  have halted := halts (Or.inr quits)
  cases course with
  | refuse _ _ heard =>
      rw [received] at heard
      cases heard
  | halt _ _ heard =>
      rw [received] at heard
      cases heard
      exact ⟨rfl, left, _, records, rfl, received, congrArg _ told⟩
  | interrupt _ _ heard goesOn | goOn _ _ heard goesOn =>
      rw [received] at heard
      cases heard
      rw [halted] at goesOn
      cases goesOn

/-- A poll of a run is one behind its first pass, or the one that the first pass begins with. -/
theorem Course.split {host : Host Time World} {limit : Option Int}
    {running : Running Time World} {moments : List (Moment Time)}
    {contacts others before after : List (Contact Time)} {passed : Passed Time World}
    {events : List Event} (course : Course host limit running moments contacts passed)
    (split : contacts ++ others = before ++ .poll events :: after) :
    (∃ further, before = contacts ++ further ∧ others = further ++ .poll events :: after) ∨
      before = [] ∧ ∃ rest, contacts = .poll events :: rest ∧ after = rest ++ others := by
  cases goes : running.machine.halted || running.machine.limitReached limit with
  | true =>
      obtain ⟨_, rfl, _⟩ := course.of_stops goes
      exact Or.inl ⟨before, rfl, split⟩
  | false =>
      obtain ⟨⟨rest, rfl, quiet⟩, _⟩ := course.once goes
      cases before with
      | nil =>
          cases split
          exact Or.inr ⟨rfl, rest, rfl, rfl⟩
      | cons first before =>
          obtain ⟨rfl, later⟩ := List.cons.inj split
          obtain ⟨further, rfl, same⟩ := split_poll quiet later
          exact Or.inl ⟨further, rfl, same⟩

section Quit

variable {host : Host Time World} {limit : Option Int} {passes : Nat}
  {running : Running Time World} {moments : List (Moment Time)}
  {contacts before after : List (Contact Time)} {finished : Finished Time World}
  {events : List Event}

/-- What becomes of a run that is quit with some events: it hears all of them, and is over. -/
structure Quits (moments : List (Moment Time)) (before : List (Contact Time))
    (events : List Event) (after : List (Contact Time)) (finished : Finished Time World) :
    Prop where
  ending : finished.ending = .finished
  history : ∃ earlier polled,
    moments = earlier ++ ⟨polled, .poll events⟩ :: polled.hearings events ∧
      earlier.filterMap Moment.poll? = before.filterMap Contact.poll? ∧
      (polled.hearings events).map Moment.action = events.map .hear ∧
      (polled.receive events).attempt = .ok () finished.machine
  contacts : ∃ (records : List Record) (last : Record),
    after = (records.map .log).map .effect ++ [.effect (.tone false), .effect (.log last)]

/-- An operator who quits at a poll of a run is heard out, and the run is over. -/
theorem Journey.quits
    (journey : Journey host limit passes running moments contacts finished)
    (split : contacts = before ++ .poll events :: after) (quits : .quit ∈ events)
    (onKeypad : ∀ event ∈ events, event.OnKeypad) :
    Quits moments before events after finished := by
  induction journey generalizing before with
  | unfinished running => cases before <;> cases split
  | @again _ running next moments later contacts others finished course _ ih =>
      rcases course.split split with ⟨further, rfl, behind⟩ | ⟨rfl, rest, rfl, rfl⟩
      · obtain ⟨ending, ⟨earlier, polled, told, polls, heard⟩, done⟩ := ih behind
        refine ⟨ending, ⟨moments ++ earlier, polled, ?_, ?_, heard⟩, done⟩
        · rw [told, List.append_assoc]
        · rw [List.filterMap_append, List.filterMap_append, polls, course.polls]
      · obtain ⟨_, _, _, _, impossible, _⟩ := course.of_quit quits onKeypad
        cases impossible
  | @close running moments contacts ending machine world passes course =>
      rcases course.split split with ⟨further, rfl, behind⟩ | ⟨rfl, rest, rfl, rfl⟩
      · have quiet := filterMap_poll?_effects (.tone false :: machine.endingEffects ending)
        rw [behind, List.filterMap_append, List.filterMap_cons] at quiet
        simp only [Contact.poll?, List.append_eq_nil_iff, reduceCtorEq, and_false] at quiet
      · obtain ⟨told, left, _, records, same, received, rfl⟩ := course.of_quit quits onKeypad
        obtain ⟨_, _, actions, _⟩ := running.machine.receive_onKeypad onKeypad
        cases same
        exact ⟨rfl, ⟨[], running.machine, told, rfl, actions, received⟩, records, _, rfl⟩

end Quit

/-! ### Whole runs -/

section Runs

variable {host : Host Time World} {limit : Option Int} {passes : Nat} {machine : Machine Time}
  {world : World}

theorem run_within {count : Int} (limited : limit = some count) :
    ((machine.run host limit passes world).machine.cycles : Int) ≤ max count machine.cycles := by
  subst limited
  rcases run_cases host (some count) passes machine world with
    ⟨left, _, ran, _⟩ | ⟨start, left, later, _, journey, _⟩
  · rw [ran]
    exact Int.le_max_right _ _
  · exact journey.within

theorem run_stops (isOver : (machine.run host limit passes world).ending = .finished) :
    (machine.run host limit passes world).machine.halted = true ∨
      (machine.run host limit passes world).machine.limitReached limit = true := by
  rcases run_cases host limit passes machine world with
    ⟨left, _, ran, _⟩ | ⟨start, left, later, _, journey, _⟩
  · rw [ran] at isOver
    cases isOver
  · exact journey.stops isOver

theorem run_of_halted (halted : machine.halted = true) :
    (machine.contacts host limit passes world).filterMap Contact.poll? = [] := by
  rcases run_cases host limit passes machine world with
    ⟨left, _, _, _, noted⟩ | ⟨start, left, later, _, journey, noted⟩
  · rw [noted]
    rfl
  · rw [noted, List.filterMap_append, journey.of_halted halted]
    rfl

theorem run_quits {before after : List (Contact Time)} {events : List Event}
    (split : machine.contacts host limit passes world = before ++ .poll events :: after)
    (quits : .quit ∈ events) (onKeypad : ∀ event ∈ events, event.OnKeypad) :
    Quits (machine.history host limit passes world) before events after
      (machine.run host limit passes world) := by
  rcases run_cases host limit passes machine world with
    ⟨left, _, _, _, noted⟩ | ⟨start, left, later, _, journey, noted⟩
  · rw [noted, ← List.append_nil (machine.launchContacts none)] at split
    obtain ⟨further, _, impossible⟩ := split_poll rfl split
    cases further <;> cases impossible
  · rw [noted] at split
    obtain ⟨further, rfl, behind⟩ := split_poll rfl split
    obtain ⟨ending, ⟨earlier, polled, told, polls, heard⟩, done⟩ :=
      journey.quits behind quits onKeypad
    refine ⟨ending, ⟨earlier, polled, told, ?_, heard⟩, done⟩
    rw [polls, List.filterMap_append]
    rfl

end Runs

/-- A pass of a machine that is halted or at its limit does nothing. Any other begins with its only
poll, and takes one step at most. So a run never counts beyond its limit, unless it began there,
and finishes only with a machine that is halted or at the limit. A halted machine does not poll.
When the operator quits, the run is over: it hears all events of that poll, and behind the poll
there are no update, no step, no sleep and no tone but the one that is turned off at the end. -/
theorem run_accounts :
    (∀ (host : Host Time World) (limit : Option Int) (running : Running Time World),
      ((running.machine.halted || running.machine.limitReached limit) = true →
        passContacts host limit running = [] ∧ passMoments host limit running = [] ∧
          pass host limit running = .over .finished running.machine running.world) ∧
      ((running.machine.halted || running.machine.limitReached limit) = false →
        (∃ rest, passContacts host limit running = .poll (host.poll running.world).1 :: rest ∧
          rest.filterMap Contact.poll? = []) ∧
        (passMoments host limit running).filterMap Moment.poll? = [(host.poll running.world).1] ∧
        (passMoments host limit running).countP Moment.takes ≤ 1)) ∧
    ∀ (host : Host Time World) (limit : Option Int) (passes : Nat) (machine : Machine Time)
        (world : World),
      let finished := machine.run host limit passes world
      let moments := machine.history host limit passes world
      let contacts := machine.contacts host limit passes world
      (∀ count, limit = some count →
        (∀ moment ∈ moments, (moment.machine.cycles : Int) ≤ max count machine.cycles) ∧
          (finished.machine.cycles : Int) ≤ max count machine.cycles) ∧
      (finished.ending = .finished →
        finished.machine.halted = true ∨
          ∃ count, limit = some count ∧
            (finished.machine.cycles : Int) = max count machine.cycles) ∧
      (machine.halted = true → contacts.filterMap Contact.poll? = []) ∧
      ∀ before events after, contacts = before ++ .poll events :: after → .quit ∈ events →
        (∀ event ∈ events, event.OnKeypad) → Quits moments before events after finished := by
  constructor
  · intro host limit running
    obtain ⟨moments, contacts, passed, course⟩ := course_exists host limit running
    rw [course.passContacts, course.sound.1, course.sound.2]
    refine ⟨fun stops => ?_, course.once⟩
    obtain ⟨told, none, same⟩ := course.of_stops stops
    exact ⟨none, told, same⟩
  · intro host limit passes machine world finished moments contacts
    have trail : Trail machine moments finished.machine := run_trail host limit passes machine world
    obtain ⟨rises, _, below⟩ := trail.cycles
    refine ⟨?_, ?_, run_of_halted, fun before events after => run_quits⟩
    · intro count limited
      have within : (finished.machine.cycles : Int) ≤ max count machine.cycles :=
        run_within limited
      refine ⟨fun moment member => ?_, within⟩
      exact Int.le_trans (Int.ofNat_le.mpr (below moment member)) within
    · intro isOver
      rcases run_stops isOver with halted | reached
      · exact Or.inl halted
      · right
        cases limit with
        | none => cases reached
        | some count =>
            have beyond : count ≤ finished.machine.cycles := of_decide_eq_true reached
            have within : (finished.machine.cycles : Int) ≤ max count machine.cycles :=
              run_within rfl
            exact ⟨count, rfl, by omega⟩

/-- An operator quits at the second poll, and lets go of a key and resumes with it. -/
theorem run_accounts_quit_between_events :
    ∃ machine : Machine Rat,
      Machine.boot ⟨0, false, 0, [0x200], false, "quit"⟩ [0x12, 0x00] = .ok machine ∧
        let host : Host Rat (List (List Event)) :=
          ⟨fun polls => (polls.head?.getD [], polls.tail), fun polls => (some 0, polls),
            fun _ polls => polls⟩
        let script : List (List Event) :=
          [[.key 5 true], [.key 5 false, .quit, .resume], [.step]]
        let finished := machine.run host (some 7) 2 script
        (machine.contacts host (some 7) 2 script).filterMap Contact.poll? =
            [[.key 5 true], [.key 5 false, .quit, .resume]] ∧
          finished.ending = .finished ∧
          (finished.machine.cycles : Int) ≤ max (7 : Int) machine.cycles ∧
          ∃ earlier polled,
            machine.history host (some 7) 2 script =
                earlier ++ ⟨polled, .poll [.key 5 false, .quit, .resume]⟩ ::
                  polled.hearings [.key 5 false, .quit, .resume] ∧
              (polled.receive [.key 5 false, .quit, .resume]).attempt =
                .ok () finished.machine := by
  let host : Host Rat (List (List Event)) :=
    ⟨fun polls => (polls.head?.getD [], polls.tail), fun polls => (some 0, polls),
      fun _ polls => polls⟩
  let script : List (List Event) := [[.key 5 true], [.key 5 false, .quit, .resume], [.step]]
  let started : Except Fault (Machine Rat) :=
    Machine.boot ⟨0, false, 0, [0x200], false, "quit"⟩ [0x12, 0x00]
  obtain ⟨machine, booted⟩ : ∃ machine, started = .ok machine := ⟨_, rfl⟩
  have ran : (started.toOption.map fun machine =>
      (machine.contacts host (some 7) 2 script).filterMap Contact.poll?) =
        some [[.key 5 true], [.key 5 false, .quit, .resume]] := by
    decide +kernel
  rw [booted] at ran
  have polls : (machine.contacts host (some 7) 2 script).filterMap Contact.poll? =
      [[.key 5 true], [.key 5 false, .quit, .resume]] := Option.some.inj ran
  obtain ⟨contact, member, same⟩ := List.mem_filterMap.mp (polls ▸ by simp :
    [.key 5 false, .quit, .resume] ∈
      (machine.contacts host (some 7) 2 script).filterMap Contact.poll?)
  cases contact with
  | poll events =>
      cases same
      obtain ⟨before, after, split⟩ := List.append_of_mem member
      have accounts := run_accounts.2 host (some 7) 2 machine script
      obtain ⟨limited, _, _, quits⟩ := accounts
      have onKeypad : ∀ event ∈ [.key 5 false, .quit, .resume], Event.OnKeypad event := by
        simp [Event.OnKeypad]
      obtain ⟨ending, ⟨earlier, polled, told, _, _, heard⟩, _⟩ :=
        quits before _ after split (by simp) onKeypad
      exact ⟨machine, booted, polls, ending, (limited 7 rfl).2, earlier, polled, told, heard⟩
  | reading | effect => cases same

end Machine

end Chip8
