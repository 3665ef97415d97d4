import Chip8.Proofs.Machine.History

/-!
What a run computes.

The record of a run lists every act on the core with the way it went: the keys that were
set, the ticks that were applied, and the steps that got anywhere or failed. Replaying the
acts on a machine that has just been started, without a clock, a breakpoint or a pause,
goes the same way and ends with the same core. So nothing that debugs, paces or polls a
machine has any part in what its program computes.
-/

namespace Chip8

variable {Time World : Type}

/-- Whatever an update finds due, it applies to the registers it was given. -/
theorem Timers.update_applies [Scalar Time] {timers next : Timers Time} {now : Time}
    {registers after : Registers} {due : Int}
    (updated : timers.update registers now = .ok (due, next, after)) :
    0 ≤ due ∧ after = tickAll registers due := by
  unfold update at updated
  split at updated
  · cases updated
    exact ⟨Int.le_refl 0, rfl⟩
  · obtain ⟨elapsed, _, updated⟩ := of_bind_ok updated
    obtain ⟨count, _, updated⟩ := of_bind_ok updated
    split at updated
    · cases updated
      exact ⟨Int.le_refl 0, rfl⟩
    · next positive =>
        cases updated
        exact ⟨by omega, rfl⟩

theorem Timers.update_registers [Scalar Time] {timers next : Timers Time} {now : Time}
    {registers after : Registers} {due : Int}
    (updated : timers.update registers now = .ok (due, next, after)) :
    after = tickAll registers due :=
  (update_applies updated).2

namespace Machine

/-! ### Acts on a machine -/

/-- Do one thing to a machine, past everything that paces or debugs it. -/
def act (machine : Machine Time) : Act → Attempt (Machine Time) Bool
  | .key number pressed =>
      match (machine.handle (.key number pressed)).attempt with
      | .ok _ next => .ok true next
      | .error fault left => .error fault left
  | .tick => .ok true machine.tick
  | .step => machine.step.attempt

def replay (machine : Machine Time) (acts : List Act) :
    List (Except Fault Bool) × Machine Time :=
  replayBy act machine acts

theorem act_within (machine : Machine Time) (core : Core) (act : Act) :
    (machine.withCore core).act act = (core.act act).within machine.withCore := by
  cases act with
  | step => rfl
  | tick => rfl
  | key number pressed =>
      have keypad : (machine.withCore core).core.keypad = core.keypad := rfl
      simp only [Machine.act, handle, Core.act, keypad]
      cases core.keypad.set number pressed with
      | ok changed => rfl
      | error fault => rfl

theorem act_result (machine : Machine Time) (act : Act) :
    (machine.act act).result = (machine.core.act act).result := by
  have within := machine.act_within machine.core act
  change machine.act act = _ at within
  rw [within, Attempt.result_within]

theorem act_state (machine : Machine Time) (act : Act) :
    (machine.act act).state = machine.withCore (machine.core.act act).state := by
  have within := machine.act_within machine.core act
  change machine.act act = _ at within
  rw [within, Attempt.state_within]

theorem replay_eq (machine : Machine Time) (acts : List Act) :
    machine.replay acts =
      ((machine.core.replay acts).1, machine.withCore (machine.core.replay acts).2) :=
  replayBy_within machine.act_within machine.core acts

theorem handle_key_state (machine : Machine Time) (number : Int) (pressed : Bool) :
    (machine.handle (.key number pressed)).state = (machine.act (.key number pressed)).state := by
  simp only [act, Response.state]
  cases (machine.handle (.key number pressed)).attempt <;> rfl

/-- A key that is set as an act fails exactly where the machine fails to hear of it. -/
theorem act_key_fails_iff (machine : Machine Time) {number : Int} {pressed : Bool}
    {fault : Fault} :
    (machine.act (.key number pressed)).result = .error fault ↔
      (machine.handle (.key number pressed)).result = .error fault := by
  unfold Response.result
  simp only [act]
  cases (machine.handle (.key number pressed)).attempt with
  | ok answer next =>
      rw [Attempt.result_ok, Attempt.result_ok]
      simp only [reduceCtorEq]
  | error found left =>
      rw [Attempt.result_error, Attempt.result_error]
      simp only [Except.error.injEq]

/-! ### What the core keeps -/

theorem ready_core (machine : Machine Time) : machine.ready.state.core = machine.core := by
  unfold ready
  dsimp only
  split
  · rfl
  · split <;> rfl

theorem step_core (machine : Machine Time) :
    machine.step.state.core = (machine.core.act .step).state :=
  congrArg Machine.core (machine.act_state .step)

theorem stepped_core (machine : Machine Time) :
    machine.stepped.core = (machine.core.act .step).state := by
  have left := machine.step_core
  unfold stepped
  cases went : machine.step.attempt with
  | ok anything after =>
      rw [Response.state_of_ok went] at left
      cases anything <;> exact left
  | error fault after =>
      rw [Response.state_of_error went] at left
      exact left

variable [Scalar Time]

def ticksBy (machine : Machine Time) (now : Time) : Nat :=
  match machine.timers.update machine.core.registers now with
  | .ok (due, _, _) => (min due 255).toNat
  | .error _ => 0

/-- An update changes the timer registers alone, by as many ticks as it applies. -/
theorem updated_core (machine : Machine Time) (now : Time) :
    (machine.updated now).core =
      machine.core.modifyRegisters ((machine.ticksBy now).repeat Registers.tick) := by
  unfold updated catchUp ticksBy
  cases found : machine.timers.update machine.core.registers now with
  | error fault => rfl
  | ok outcome =>
      obtain ⟨due, timers, registers⟩ := outcome
      cases Timers.update_registers found
      rfl

end Machine

/-! ### Recording -/

variable [Scalar Time]

namespace Moment

/-- The acts of a moment, each with the way it went. A step that gets nowhere is none. -/
def record (moment : Moment Time) : List (Act × Except Fault Bool) :=
  match moment.action with
  | .hear (.key number pressed) =>
      [(.key number pressed, (moment.machine.act (.key number pressed)).result)]
  | .update now => List.replicate (moment.machine.ticksBy now) (.tick, .ok true)
  | .step =>
      match (moment.machine.act .step).result with
      | .ok false => []
      | went => [(.step, went)]
  | _ => []

def Fails (moment : Moment Time) (fault : Fault) : Prop :=
  match moment.action with
  | .hear event => (moment.machine.handle event).result = .error fault
  | .update now => moment.machine.catchUp now = .error fault
  | .step => moment.machine.step.result = .error fault
  | _ => False

end Moment

def recordOf (moments : List (Moment Time)) : List (Act × Except Fault Bool) :=
  moments.flatMap Moment.record

/-- A record tells what becomes of a core: replayed, its acts go as they went, and lead
from the one core to the other. -/
def Tells (record : List (Act × Except Fault Bool)) (before after : Core) : Prop :=
  before.replay (record.map Prod.fst) = (record.map Prod.snd, after)

namespace Tells

variable {before middle after : Core} {first second : List (Act × Except Fault Bool)}

theorem nil (core : Core) : Tells [] core core := rfl

theorem single (core : Core) (act : Act) :
    Tells [(act, (core.act act).result)] core (core.act act).state := rfl

theorem append (earlier : Tells first before middle) (later : Tells second middle after) :
    Tells (first ++ second) before after := by
  unfold Tells at earlier later ⊢
  rw [List.map_append, List.map_append, Core.replay_append, earlier, later]

theorem ticks (core : Core) (count : Nat) :
    Tells (List.replicate count (.tick, .ok true)) core
      (core.modifyRegisters (count.repeat Registers.tick)) := by
  induction count with
  | zero => exact nil core
  | succ count ih =>
      rw [List.replicate_succ']
      exact ih.append (single _ .tick)

end Tells

/-! ### The record of a run -/

namespace Machine

theorem hear_tells (machine : Machine Time) (event : Event) :
    Tells (Moment.record ⟨machine, .hear event⟩) machine.core
      (machine.handle event).state.core := by
  cases event with
  | key number pressed =>
      unfold Moment.record
      dsimp only
      rw [handle_key_state, act_state, act_result]
      exact Tells.single _ _
  | resume =>
      rw [handle]
      split <;> exact Tells.nil _
  | _ => exact Tells.nil _

theorem update_tells (machine : Machine Time) (now : Time) :
    Tells (Moment.record ⟨machine, .update now⟩) machine.core (machine.updated now).core := by
  rw [updated_core]
  exact Tells.ticks _ _

theorem step_tells (machine : Machine Time) :
    Tells (Moment.record ⟨machine, .step⟩) machine.core machine.stepped.core := by
  rw [stepped_core]
  unfold Moment.record
  dsimp only
  rw [act_result]
  split
  · next stalled =>
      have same : (machine.core.act .step).state = machine.core := Core.state_of_stalled stalled
      rw [same]
      exact Tells.nil _
  · exact Tells.single _ _

end Machine

/-- The record of a trail tells what becomes of the core along it. -/
theorem Trail.tells {start stop : Machine Time} {moments : List (Moment Time)}
    (trail : Trail start moments stop) : Tells (recordOf moments) start.core stop.core := by
  induction trail with
  | done machine => exact Tells.nil machine.core
  | poll events _ ih => exact ih
  | hear event _ ih => exact (Machine.hear_tells _ event).append ih
  | update now _ ih => exact (Machine.update_tells _ now).append ih
  | @refuse machine _ _ _ _ ih =>
      rw [machine.ready_core] at ih
      exact ih
  | @allow machine _ _ _ _ ih =>
      have taken := machine.ready.state.step_tells
      rw [machine.ready_core] at taken
      exact taken.append ih

/-! ### How a run fails -/

/-- Nothing fails at a moment. -/
def Moment.Passes (moment : Moment Time) : Prop :=
  ∀ fault, ¬ moment.Fails fault

/-- What some moments come to: nothing fails at any of them, or only at the last, with a given
fault. -/
def ComesTo (moments : List (Moment Time)) : Option Fault → Prop
  | none => ∀ moment ∈ moments, moment.Passes
  | some fault => ∃ earlier last, moments = earlier ++ [last] ∧
      (∀ moment ∈ earlier, moment.Passes) ∧ last.Fails fault

omit [Scalar Time] in
def faultOf {Answer : Type} : Except Fault Answer → Option Fault
  | .ok _ => none
  | .error fault => some fault

def Ending.fault? : Ending → Option Fault
  | .failed fault => some fault
  | _ => none

def Machine.Passed.fault? : Machine.Passed Time World → Option Fault
  | .again _ => none
  | .over ending _ _ => ending.fault?

namespace ComesTo

variable {moments : List (Moment Time)} {moment : Moment Time} {failure : Option Fault}

theorem nothing : ComesTo ([] : List (Moment Time)) none :=
  List.forall_mem_nil _

theorem failing {fault : Fault} (fails : moment.Fails fault) : ComesTo [moment] (some fault) :=
  ⟨[], moment, rfl, List.forall_mem_nil _, fails⟩

theorem behind {earlier : List (Moment Time)} (comes : ComesTo moments failure)
    (passes : ComesTo earlier none) :
    ComesTo (earlier ++ moments) failure := by
  cases failure with
  | none => exact List.forall_mem_append.mpr ⟨passes, comes⟩
  | some fault =>
      obtain ⟨first, last, rfl, others, fails⟩ := comes
      refine ⟨earlier ++ first, last, (List.append_assoc ..).symm, ?_, fails⟩
      exact List.forall_mem_append.mpr ⟨passes, others⟩

theorem cons (comes : ComesTo moments failure) (passes : moment.Passes) :
    ComesTo (moment :: moments) failure :=
  comes.behind (List.forall_mem_singleton.mpr passes)

end ComesTo

namespace Machine

omit [Scalar Time] in
/-- What has an answer has no fault. -/
theorem passes_of_result {Answer : Type} {result : Except Fault Answer} {answer : Answer}
    (went : result = .ok answer) (fault : Fault) : ¬ result = .error fault := by
  intro failed
  rw [went] at failed
  cases failed

theorem hearings_comesTo (machine : Machine Time) (events : List Event) :
    ComesTo (machine.hearings events) (faultOf (machine.receive events).result) := by
  induction events generalizing machine with
  | nil => exact .nothing
  | cons event rest ih =>
      cases heard : (machine.handle event).attempt with
      | error found left =>
          have failed : (machine.handle event).result = .error found :=
            Response.result_of_error heard
          simp only [receive, hearings, heard]
          rw [failed]
          exact .failing failed
      | ok answer next =>
          simp only [receive, hearings, heard]
          exact (ih next).cons (passes_of_result (Response.result_of_ok heard))

theorem slotMoments_comesTo (machine : Machine Time) :
    ComesTo machine.slotMoments (faultOf machine.slot.result) := by
  have checked : Moment.Passes (⟨machine, .check⟩ : Moment Time) := fun _ fails => fails
  unfold slot slotMoments
  rcases machine.ready_cases with ⟨arrived, answer⟩ | ⟨arrived, answer⟩
  · simp only [answer]
    refine ComesTo.cons ?_ checked
    cases went : arrived.step.attempt with
    | error found after =>
        have failed : arrived.step.result = .error found := Response.result_of_error went
        exact .failing failed
    | ok anything after =>
        have passes : Moment.Passes ⟨arrived, .step⟩ :=
          passes_of_result (Response.result_of_ok went)
        cases anything <;> exact ComesTo.nothing.cons passes
  · simp only [answer, Response.result]
    exact ComesTo.nothing.cons checked

theorem spendSlot_fault? (host : Host Time World) (running : Running Time World) :
    (spendSlot host running).fault? = faultOf running.machine.slot.result := by
  unfold spendSlot Response.result
  dsimp only
  cases running.machine.slot.attempt with
  | error found after => rfl
  | ok anything after => cases anything <;> rfl

theorem readingMoments_comesTo (host : Host Time World) (running : Running Time World)
    (now : Time) : ComesTo (running.machine.readingMoments running.due now)
      (passAt host running now).fault? := by
  unfold passAt readingMoments
  cases caughtUp : running.machine.catchUp now with
  | error found => exact .failing caughtUp
  | ok caught =>
      have passes : Moment.Passes ⟨running.machine, .update now⟩ := passes_of_result caughtUp
      refine ComesTo.cons ?_ passes
      dsimp only
      by_cases early : Scalar.less now running.due = true
      · rw [if_pos early, if_pos early]
        exact .nothing
      · rw [if_neg early, if_neg early, spendSlot_fault?]
        exact caught.slotMoments_comesTo

theorem passMoments_comesTo (host : Host Time World) (limit : Option Int)
    (running : Running Time World) :
    ComesTo (passMoments host limit running) (pass host limit running).fault? := by
  unfold pass passMoments
  dsimp only
  split
  · exact .nothing
  · refine ComesTo.cons ?_ fun _ fails => fails
    generalize (host.poll running.world).1 = events
    have heard := running.machine.hearings_comesTo events
    cases received : (running.machine.receive events).attempt with
    | error found after =>
        rw [Response.result_of_error received] at heard
        rw [List.append_nil]
        exact heard
    | ok answer after =>
        rw [Response.result_of_ok received] at heard
        refine ComesTo.behind ?_ heard
        dsimp only
        by_cases halted : after.halted = true
        · rw [if_pos halted, if_pos halted]
          exact .nothing
        · rw [if_neg halted, if_neg halted]
          generalize host.readClock _ = reading
          obtain ⟨now | now, rest⟩ := reading
          · exact .nothing
          · exact readingMoments_comesTo host ⟨after, running.due, rest⟩ now

theorem momentsFrom_comesTo (host : Host Time World) (limit : Option Int) (passes : Nat)
    (running : Running Time World) :
    ComesTo (momentsFrom host limit passes running)
      (runFrom host limit passes running).ending.fault? := by
  induction passes generalizing running with
  | zero => exact .nothing
  | succ passes ih =>
      have comes := passMoments_comesTo host limit running
      unfold runFrom momentsFrom
      rcases led : pass host limit running with next | ⟨ending, machine, world⟩
      · rw [led] at comes
        exact (ih next).behind comes
      · rw [led] at comes
        dsimp only
        rw [List.append_nil]
        exact comes

/-- A run that fails does so in the last moment of its history; otherwise nothing fails in it. -/
theorem history_comesTo (host : Host Time World) (limit : Option Int) (passes : Nat)
    (machine : Machine Time) (world : World) :
    ComesTo (machine.history host limit passes world)
      (machine.run host limit passes world).ending.fault? := by
  unfold run history
  generalize launch host machine world = launched
  obtain ⟨now | now, left⟩ := launched
  · exact .nothing
  · exact momentsFrom_comesTo host limit passes ⟨machine, now, left⟩

end Machine

/-! ### All runs of a machine -/

theorem Machine.boot_without_breakpoints {settings : Settings} {program : List UInt8}
    {machine : Machine Time} (started : boot settings program = .ok machine) :
    ∃ fresh : Machine Time, boot { settings with breakpoints := [] } program = .ok fresh ∧
      fresh.core = machine.core := by
  obtain ⟨timers, interval, memory, ticking, paced, loaded, rfl⟩ := boot_eq_ok_iff.mp started
  exact ⟨_, boot_eq_ok_iff.mpr ⟨timers, interval, memory, ticking, paced, loaded, rfl⟩, rfl⟩

section Played

variable {settings : Settings} {program : List UInt8} {moments : List (Moment Time)}
  {machine : Machine Time}

theorem Played.tells (played : Played settings program moments machine) :
    ∃ fresh : Machine Time, Machine.boot { settings with breakpoints := [] } program = .ok fresh ∧
      Tells (recordOf moments) fresh.core machine.core := by
  obtain ⟨start, started, trail⟩ := played.trail
  obtain ⟨fresh, startedAfresh, same⟩ := Machine.boot_without_breakpoints started
  refine ⟨fresh, startedAfresh, ?_⟩
  rw [same]
  exact trail.tells

end Played

/-! ### What is recorded of a failure -/

/-- Every act of a record went well. -/
def AllWell (record : List (Act × Except Fault Bool)) : Prop :=
  ∀ entry ∈ record, ∃ answer, entry.2 = .ok answer

theorem Moment.Passes.allWell {moment : Moment Time} (passes : moment.Passes) :
    AllWell moment.record := by
  obtain ⟨machine, action⟩ := moment
  intro entry member
  cases action with
  | poll events => cases member
  | check => cases member
  | update now =>
      obtain ⟨_, rfl⟩ := List.mem_replicate.mp member
      exact ⟨true, rfl⟩
  | step =>
      unfold Moment.record at member
      dsimp only at member
      split at member
      · cases member
      · obtain rfl := List.mem_singleton.mp member
        cases went : (machine.act .step).result with
        | ok answer => exact ⟨answer, rfl⟩
        | error fault => exact absurd went (passes fault)
  | hear event =>
      cases event with
      | key number pressed =>
          obtain rfl := List.mem_singleton.mp member
          cases went : (machine.act (.key number pressed)).result with
          | ok answer => exact ⟨answer, rfl⟩
          | error fault => exact absurd (machine.act_key_fails_iff.mp went) (passes fault)
      | _ => cases member

theorem AllWell.of_passes {moments : List (Moment Time)} (passes : ComesTo moments none) :
    AllWell (recordOf moments) := by
  intro entry member
  obtain ⟨moment, isMoment, recorded⟩ := List.mem_flatMap.mp member
  exact (passes moment isMoment).allWell entry recorded

/-- An update that fails leaves nothing to record. -/
theorem Machine.record_of_failed_update {machine : Machine Time} {now : Time} {fault : Fault}
    (failed : machine.catchUp now = .error fault) :
    Moment.record ⟨machine, .update now⟩ = [] := by
  have nothing : machine.ticksBy now = 0 := by
    unfold catchUp at failed
    unfold ticksBy
    rcases of_bind_error failed with updating | ⟨_, _, impossible⟩
    · rw [updating]
    · cases impossible
  unfold Moment.record
  dsimp only
  rw [nothing]
  rfl

/-- Of the moments that can fail, only an update has no act of its own to show for it. -/
theorem Moment.Fails.recorded {moment : Moment Time} {fault : Fault} (fails : moment.Fails fault) :
    (∃ act, moment.record = [(act, .error fault)]) ∨
      (moment.record = [] ∧ ∃ now, moment.action = .update now ∧
        moment.machine.catchUp now = .error fault) := by
  obtain ⟨machine, action⟩ := moment
  cases action with
  | poll events => cases fails
  | check => cases fails
  | update now => exact Or.inr ⟨Machine.record_of_failed_update fails, now, rfl, fails⟩
  | step =>
      have went : (machine.act .step).result = .error fault := fails
      left
      unfold Moment.record
      simp only [went]
      exact ⟨_, rfl⟩
  | hear event =>
      cases event with
      | key number pressed =>
          have went := machine.act_key_fails_iff.mpr fails
          left
          unfold Moment.record
          simp only [went]
          exact ⟨_, rfl⟩
      | resume =>
          change (machine.handle .resume).result = .error fault at fails
          rw [Machine.handle] at fails
          split at fails <;> cases fails
      | _ => cases fails

/-- The fault that some moments come to is the last of their record, and the only one there. Only
if it was the clock that failed there is none. -/
theorem ComesTo.recorded {moments : List (Moment Time)} {fault : Fault}
    (comes : ComesTo moments (some fault)) :
    (∃ earlier act, recordOf moments = earlier ++ [(act, .error fault)] ∧ AllWell earlier) ∨
      (AllWell (recordOf moments) ∧ ∃ last now, moments.getLast? = some last ∧
        last.action = .update now ∧ last.machine.catchUp now = .error fault) := by
  obtain ⟨earlier, last, rfl, passes, fails⟩ := comes
  have well := AllWell.of_passes passes
  have record : recordOf (earlier ++ [last]) = recordOf earlier ++ last.record := by
    rw [recordOf, List.flatMap_append, List.flatMap_singleton]
    rfl
  rcases fails.recorded with ⟨act, alone⟩ | ⟨nothing, now, isUpdate, failed⟩
  · rw [alone] at record
    exact Or.inl ⟨_, act, record, well⟩
  · rw [nothing, List.append_nil] at record
    rw [record]
    exact Or.inr ⟨well, last, now, List.getLast?_concat, isUpdate, failed⟩

end Chip8
