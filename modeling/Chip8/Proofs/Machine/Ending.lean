import Chip8.Proofs.Machine.Reachable

/-!
How a run can end.

Three things can fail in a run: a key that is not on the keypad, an update of the timers, and
a step. While a host delivers only keys of the keypad, and only times that the timers can be
updated at, the first two never do. What is left are the four faults of a program that a step
of a well-formed core can fail with.
-/

namespace Chip8

/-- The faults that a program can bring about. All others come from outside of it. -/
def Fault.ByProgram : Fault → Prop
  | .invalidOpcode .. | .stackOverflow _ | .stackUnderflow | .memoryOutOfBounds _ => True
  | _ => False

theorem Fault.ByProgram.isMachineFault {fault : Fault} (caused : fault.ByProgram) :
    fault.isMachineFault = true := by
  cases fault with
  | invalidOpcode | stackOverflow | stackUnderflow | memoryOutOfBounds => rfl
  | _ => cases caused

theorem Core.Faults.byProgram {core : Core} {fault : Fault} (faults : core.Faults fault) :
    fault.ByProgram := by
  cases fault with
  | invalidOpcode | stackOverflow | stackUnderflow | memoryOutOfBounds => exact trivial
  | _ => cases faults

/-- Whether a key that changes is one of the keypad. -/
def Event.OnKeypad : Event → Prop
  | .key number _ => 0 ≤ number ∧ number < 16
  | _ => True

theorem Keypad.set_of_inside (keypad : Keypad) {number : Int} (lower : 0 ≤ number)
    (upper : number < 16) (pressed : Bool) :
    ∃ changed, keypad.set number pressed = .ok changed := by
  unfold set key?
  cases found : Digit.ofInt? number with
  | some key => exact ⟨_, rfl⟩
  | none =>
      have outside := Digit.ofInt?_eq_none_iff.mp found
      omega

variable {Time World : Type} [Scalar Time]

/-- Updates at some times keep a property of the timers, and none of them fails. -/
def Timers.Lasting (steady : Timers Time → Prop) (fair : Time → Prop) : Prop :=
  ∀ timers registers now, steady timers → fair now →
    ∃ due next left, timers.update registers now = .ok (due, next, left) ∧ steady next

variable {steady : Timers Time → Prop} {fair : Time → Prop}

/-- What comes in from outside at a moment is what a machine can deal with. -/
def Moment.Fair (fair : Time → Prop) (moment : Moment Time) : Prop :=
  match moment.action with
  | .hear event => event.OnKeypad
  | .update now => fair now
  | _ => True

/-- A machine that only its program can stop. -/
structure Machine.Sound (steady : Timers Time → Prop) (machine : Machine Time) : Prop where
  core : machine.core.WellFormed
  timers : steady machine.timers

/-! ### Sound machines stay sound -/

namespace Machine.Sound

variable {machine : Machine Time}

omit [Scalar Time] in
theorem handle (sound : machine.Sound steady) (event : Event) :
    (machine.handle event).state.Sound steady := by
  obtain ⟨keypad, _, _, _, _, same⟩ := machine.handle_eq event
  rw [same]
  exact ⟨{ sound.core with }, sound.timers⟩

omit [Scalar Time] in
theorem ready (sound : machine.Sound steady) : machine.ready.state.Sound steady := by
  obtain ⟨_, _, _, same⟩ := machine.ready_eq
  rw [same]
  exact ⟨sound.core, sound.timers⟩

omit [Scalar Time] in
theorem stepped (sound : machine.Sound steady) : machine.stepped.Sound steady := by
  constructor
  · rw [machine.stepped_core]
    exact sound.core.act .step
  · obtain ⟨_, _, same⟩ := machine.stepped_eq
    rw [same]
    exact sound.timers

/-- Catching up with a fair time works out, and leaves a sound machine. -/
theorem catchUp (sound : machine.Sound steady) (lasting : Timers.Lasting steady fair) {now : Time}
    (isFair : fair now) :
    machine.catchUp now = .ok (machine.updated now) ∧ (machine.updated now).Sound steady := by
  obtain ⟨due, next, left, updated, kept⟩ :=
    lasting machine.timers machine.core.registers now sound.timers isFair
  have caught : machine.catchUp now =
      .ok { machine with core := { machine.core with registers := left }, timers := next } := by
    unfold Machine.catchUp
    rw [updated]
    rfl
  have same : machine.updated now =
      { machine with core := { machine.core with registers := left }, timers := next } := by
    unfold Machine.updated
    rw [caught]
  refine ⟨by rw [caught, same], ?_, ?_⟩
  · -- An update is a number of ticks, and ticks keep a core well formed.
    have told := machine.update_tells now
    have replayed := sound.core.replay ((Moment.record ⟨machine, .update now⟩).map Prod.fst)
    rw [told] at replayed
    exact replayed
  · rw [same]
    exact kept

/-- Of what can fail at a fair moment, only the step does, and with a fault of the program. -/
theorem byProgram (sound : machine.Sound steady) (lasting : Timers.Lasting steady fair)
    {action : Action Time} (isFair : Moment.Fair fair ⟨machine, action⟩) {fault : Fault}
    (fails : Moment.Fails ⟨machine, action⟩ fault) : fault.ByProgram := by
  cases action with
  | poll events => cases fails
  | check => cases fails
  | hear event =>
      change (machine.handle event).result = .error fault at fails
      cases event with
      | key number pressed =>
          obtain ⟨lower, upper⟩ : 0 ≤ number ∧ number < 16 := isFair
          obtain ⟨keypad, changed⟩ := machine.core.keypad.set_of_inside lower upper pressed
          unfold Response.result Machine.handle at fails
          dsimp only at fails
          rw [changed] at fails
          cases fails
      | resume =>
          unfold Response.result Machine.handle at fails
          dsimp only at fails
          split at fails <;> cases fails
      | _ => cases fails
  | update now =>
      change machine.catchUp now = .error fault at fails
      rw [(sound.catchUp lasting isFair).1] at fails
      cases fails
  | step =>
      change machine.step.result = .error fault at fails
      rw [machine.step_result] at fails
      rcases machine.core.idle_or_answers with idle | ⟨answer, answered⟩
      · exact ((sound.core.toBounded.step_result_error_iff idle fault).mp fails).byProgram
      · rw [answered] at fails
        cases fails

end Machine.Sound

/-- The timers are updated only at fair times. -/
def FairlyTimed (fair : Time → Prop) (moments : List (Moment Time)) : Prop :=
  ∀ moment ∈ moments, ∀ now, moment.action = .update now → fair now

omit [Scalar Time] in
theorem FairlyTimed.of_fair {moments : List (Moment Time)}
    (areFair : ∀ moment ∈ moments, moment.Fair fair) : FairlyTimed fair moments := by
  intro moment member now isUpdate
  have isFair := areFair moment member
  unfold Moment.Fair at isFair
  rw [isUpdate] at isFair
  exact isFair

theorem Trail.sound (lasting : Timers.Lasting steady fair) {start stop : Machine Time}
    {moments : List (Moment Time)} (trail : Trail start moments stop)
    (fairly : FairlyTimed fair moments) (sound : start.Sound steady) :
    ∀ moment ∈ moments, moment.machine.Sound steady := by
  induction trail with
  | done machine => exact List.forall_mem_nil _
  | poll events _ ih =>
      obtain ⟨_, later⟩ := List.forall_mem_cons.mp fairly
      exact List.forall_mem_cons.mpr ⟨sound, ih later sound⟩
  | hear event _ ih =>
      obtain ⟨_, later⟩ := List.forall_mem_cons.mp fairly
      exact List.forall_mem_cons.mpr ⟨sound, ih later (sound.handle event)⟩
  | update now _ ih =>
      obtain ⟨isFair, later⟩ := List.forall_mem_cons.mp fairly
      have caught := (sound.catchUp lasting (isFair now rfl)).2
      exact List.forall_mem_cons.mpr ⟨sound, ih later caught⟩
  | refuse _ _ ih =>
      obtain ⟨_, later⟩ := List.forall_mem_cons.mp fairly
      exact List.forall_mem_cons.mpr ⟨sound, ih later sound.ready⟩
  | allow _ _ ih =>
      obtain ⟨_, later⟩ := List.forall_mem_cons.mp fairly
      obtain ⟨_, behind⟩ := List.forall_mem_cons.mp later
      exact List.forall_mem_cons.mpr
        ⟨sound, List.forall_mem_cons.mpr ⟨sound.ready, ih behind sound.ready.stepped⟩⟩

/-! ### What a host brings in -/

/-- What comes in from outside at a moment was handed over by the host. -/
def Moment.From (host : Host Time World) (moment : Moment Time) : Prop :=
  match moment.action with
  | .hear event => ∃ world, event ∈ (host.poll world).1
  | .update now => ∃ world, (host.readClock world).1 = some now
  | _ => True

namespace Machine

variable {host : Host Time World}

omit [Scalar Time] in
theorem hearings_from (machine : Machine Time) {events : List Event}
    (polled : ∀ event ∈ events, ∃ world, event ∈ (host.poll world).1) :
    ∀ moment ∈ machine.hearings events, moment.From host := by
  induction events generalizing machine with
  | nil => exact List.forall_mem_nil _
  | cons event rest ih =>
      obtain ⟨first, others⟩ := List.forall_mem_cons.mp polled
      refine List.forall_mem_cons.mpr ⟨first, ?_⟩
      cases (machine.handle event).attempt with
      | ok answer next => exact ih next others
      | error fault left => exact List.forall_mem_nil _

omit [Scalar Time] in
theorem slotMoments_from (machine : Machine Time) :
    ∀ moment ∈ machine.slotMoments, moment.From host := by
  refine List.forall_mem_cons.mpr ⟨trivial, ?_⟩
  rcases machine.ready_cases with ⟨arrived, answer⟩ | ⟨arrived, answer⟩
  · rw [answer]
    exact List.forall_mem_singleton.mpr trivial
  · rw [answer]
    exact List.forall_mem_nil _

theorem readingMoments_from (machine : Machine Time) (due : Time) {now : Time}
    (read : ∃ world, (host.readClock world).1 = some now) :
    ∀ moment ∈ machine.readingMoments due now, moment.From host := by
  refine List.forall_mem_cons.mpr ⟨read, ?_⟩
  cases machine.catchUp now with
  | error fault => exact List.forall_mem_nil _
  | ok caught =>
      dsimp only
      split
      · exact List.forall_mem_nil _
      · exact caught.slotMoments_from

theorem passMoments_from (limit : Option Int) (running : Running Time World) :
    ∀ moment ∈ passMoments host limit running, moment.From host := by
  unfold passMoments
  dsimp only
  split
  · exact List.forall_mem_nil _
  · refine List.forall_mem_cons.mpr ⟨trivial, List.forall_mem_append.mpr ⟨?_, ?_⟩⟩
    · exact running.machine.hearings_from fun event member => ⟨running.world, member⟩
    · split
      · exact List.forall_mem_nil _
      · split
        · exact List.forall_mem_nil _
        · split
          · exact List.forall_mem_nil _
          · next read => exact readingMoments_from _ _ ⟨_, congrArg Prod.fst read⟩

theorem momentsFrom_from (limit : Option Int) (passes : Nat) (running : Running Time World) :
    ∀ moment ∈ momentsFrom host limit passes running, moment.From host := by
  induction passes generalizing running with
  | zero => exact List.forall_mem_nil _
  | succ passes ih =>
      refine List.forall_mem_append.mpr ⟨passMoments_from limit running, ?_⟩
      split
      · exact ih _
      · exact List.forall_mem_nil _

/-- Every event that a run hears and every time that it catches up with is the host's. -/
theorem history_from (limit : Option Int) (passes : Nat) (machine : Machine Time)
    (world : World) : ∀ moment ∈ machine.history host limit passes world, moment.From host := by
  unfold history
  split
  · exact List.forall_mem_nil _
  · exact momentsFrom_from limit passes _

/-- The times that a run catches up with. -/
def times (host : Host Time World) (limit : Option Int) (passes : Nat) (machine : Machine Time)
    (world : World) : List Time :=
  (machine.history host limit passes world).filterMap fun moment =>
    match moment.action with
    | .update now => some now
    | _ => none

/-- While it hears only keys of the keypad and reads only fair times, a run of a sound machine
fails by its program alone. -/
theorem run_failed_byProgram (lasting : Timers.Lasting steady fair)
    (onKeypad : ∀ world, ∀ event ∈ (host.poll world).1, event.OnKeypad) {limit : Option Int}
    {passes : Nat} {machine : Machine Time} {world : World} (sound : machine.Sound steady)
    (fairly : ∀ now ∈ machine.times host limit passes world, fair now) {fault : Fault}
    (failed : (machine.run host limit passes world).ending = .failed fault) :
    fault.ByProgram := by
  have areFair : ∀ moment ∈ machine.history host limit passes world, moment.Fair fair := by
    intro moment member
    have brought := history_from limit passes machine world moment member
    obtain ⟨before, action⟩ := moment
    cases action with
    | hear event =>
        obtain ⟨polled, heard⟩ := brought
        exact onKeypad polled event heard
    | update now => exact fairly now (List.mem_filterMap.mpr ⟨_, member, rfl⟩)
    | _ => exact trivial
  have comes := history_comesTo host limit passes machine world
  rw [failed] at comes
  obtain ⟨earlier, last, whole, _, fails⟩ := comes
  have member : last ∈ machine.history host limit passes world := by
    rw [whole]
    exact List.mem_concat_self
  have trail := run_trail host limit passes machine world
  exact (trail.sound lasting (.of_fair areFair) sound last member).byProgram lasting
    (areFair last member) fails

end Machine

end Chip8
