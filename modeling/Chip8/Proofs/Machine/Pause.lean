import Chip8.Proofs.Machine.Reachable

/-!
Pauses and single steps.

While a machine is paused, a step is taken only where one is pending, and taking it uses
the pending one up. So a pause takes no more steps than are asked for in it, and one more
if a step was still pending when the pause began. That one was asked for in an earlier
pause, which was over before the step could be taken: nothing forgets it until a breakpoint
begins the next pause, and there it is taken at once.
-/

namespace Chip8

variable {Time : Type}

namespace Moment

def asks (moment : Moment Time) : Bool :=
  match moment.action with
  | .hear .step => true
  | _ => false

theorem asks_of_ne_step (machine : Machine Time) {event : Event} (other : event ≠ .step) :
    asks ⟨machine, .hear event⟩ = false := by
  cases event with
  | step => exact absurd rfl other
  | _ => rfl

def takes (moment : Moment Time) : Bool :=
  match moment.action with
  | .step => true
  | _ => false

def resumes (moment : Moment Time) : Bool :=
  match moment.action with
  | .hear .resume => true
  | _ => false

/-- A check in a pause: a step that is pending here is used up. -/
def spends (moment : Moment Time) : Bool :=
  match moment.action with
  | .check => moment.machine.pauseIfArrived.paused
  | _ => false

/-- A check that begins a pause. -/
def Arrives (moment : Moment Time) : Prop :=
  moment.action = .check ∧ moment.machine.atBreakpoint = true

end Moment

/-! ### What becomes of the pause and of a pending step -/

namespace Machine

section Ready

variable {machine : Machine Time}

/-- Outside a pause an instruction may run, and a pending step stays pending. -/
theorem ready_of_running (running : machine.pauseIfArrived.paused = false) :
    machine.ready.attempt = .ok true machine.pauseIfArrived := by
  unfold ready
  simp only [running, Bool.not_false, ↓reduceIte]

/-- Without breakpoints an instruction may always run outside a pause, and nothing changes. -/
theorem ready_of_unmarked (unmarked : machine.breakpoints = []) (running : machine.paused = false) :
    machine.ready.attempt = .ok true machine := by
  have away : machine.pauseIfArrived = machine := by
    have none : machine.atBreakpoint = false := by
      unfold atBreakpoint
      rw [unmarked, List.contains_nil, Bool.and_false, Bool.false_and]
    unfold pauseIfArrived
    rw [none, Bool.or_false]
  have still : machine.pauseIfArrived.paused = false := by rw [away, running]
  rw [ready_of_running still, away]

/-- In a pause an instruction may run where a step is pending, which is used up by it. -/
theorem ready_of_asked (paused : machine.pauseIfArrived.paused = true)
    (asked : machine.stepPending = true) :
    machine.ready.attempt =
      .ok true { machine.pauseIfArrived with
        stepPending := false
        resumedAt := some machine.counter } := by
  have pending : machine.pauseIfArrived.stepPending = true := asked
  unfold ready
  simp only [paused, pending, Bool.not_true, Bool.false_eq_true, ↓reduceIte]
  rfl

theorem ready_of_paused (paused : machine.pauseIfArrived.paused = true)
    (unasked : machine.stepPending = false) :
    machine.ready.attempt = .ok false machine.pauseIfArrived := by
  have pending : machine.pauseIfArrived.stepPending = false := unasked
  unfold ready
  simp only [paused, pending, Bool.not_true, Bool.false_eq_true, ↓reduceIte]

/-- An allowed check leaves nothing pending, unless the machine goes on without a pause. -/
theorem ready_cases_allowed (allowed : machine.ready.result = .ok true) :
    (machine.pauseIfArrived.paused = false ∧ machine.ready.state = machine.pauseIfArrived) ∨
      machine.pauseIfArrived.paused = true ∧ machine.stepPending = true ∧
        machine.ready.state.paused = true ∧ machine.ready.state.stepPending = false := by
  unfold Response.result at allowed
  unfold Response.state
  cases paused : machine.pauseIfArrived.paused with
  | false =>
      rw [ready_of_running paused]
      exact Or.inl ⟨rfl, rfl⟩
  | true =>
      cases asked : machine.stepPending with
      | false =>
          rw [ready_of_paused paused asked] at allowed
          cases allowed
      | true =>
          rw [ready_of_asked paused asked]
          exact Or.inr ⟨rfl, rfl, paused, rfl⟩

theorem ready_refused (refused : machine.ready.result = .ok false) :
    machine.pauseIfArrived.paused = true ∧ machine.stepPending = false ∧
      machine.ready.state = machine.pauseIfArrived := by
  unfold Response.result at refused
  unfold Response.state
  cases paused : machine.pauseIfArrived.paused with
  | false =>
      rw [ready_of_running paused] at refused
      cases refused
  | true =>
      cases asked : machine.stepPending with
      | false =>
          rw [ready_of_paused paused asked]
          exact ⟨rfl, rfl, rfl⟩
      | true =>
          rw [ready_of_asked paused asked] at refused
          cases refused

end Ready

theorem handle_paused (machine : Machine Time) {event : Event} (goesOn : event ≠ .resume) :
    (machine.handle event).state.paused = machine.paused := by
  cases event with
  | key number pressed =>
      rw [handle]
      cases machine.core.keypad.set number pressed <;> rfl
  | resume => exact absurd rfl goesOn
  | _ => rfl

theorem handle_stepPending (machine : Machine Time) {event : Event} (other : event ≠ .step) :
    (machine.handle event).state.stepPending = machine.stepPending := by
  cases event with
  | key number pressed =>
      rw [handle]
      cases machine.core.keypad.set number pressed <;> rfl
  | resume =>
      rw [handle]
      split <;> rfl
  | step => exact absurd rfl other
  | _ => rfl

end Machine

/-! ### Steps within a pause -/

variable [Scalar Time]

/-- A paused machine that is not resumed takes no more steps than are asked for, and the one
that was pending. -/
theorem Trail.takes_le {machine stop : Machine Time} {moments during : List (Moment Time)}
    (trail : Trail machine moments stop) (paused : machine.paused = true)
    (within : during <+: moments) (goesOn : ∀ moment ∈ during, moment.resumes = false) :
    during.countP Moment.takes ≤ during.countP Moment.asks + machine.stepPending.toNat := by
  -- The trail goes on where the pause is cut off, so the cut is carried along as a prefix. The
  -- pending step is the reserve: asking fills it, and an allowed check draws on it.
  induction trail generalizing during with
  | done machine =>
      rw [List.prefix_nil.mp within]
      exact Nat.zero_le _
  | poll events _ ih =>
      rcases List.prefix_cons_iff.mp within with rfl | ⟨rest, rfl, further⟩
      · exact Nat.zero_le _
      · have later := ih paused further fun moment member => goesOn moment (.tail _ member)
        rw [List.countP_cons_of_neg Bool.false_ne_true, List.countP_cons_of_neg Bool.false_ne_true]
        exact later
  | @hear machine _ _ event _ ih =>
      rcases List.prefix_cons_iff.mp within with rfl | ⟨rest, rfl, further⟩
      · exact Nat.zero_le _
      · have silent : event ≠ .resume := by
          rintro rfl
          cases goesOn _ List.mem_cons_self
        have later := ih ((machine.handle_paused silent).trans paused) further
          fun moment member => goesOn moment (.tail _ member)
        rw [List.countP_cons_of_neg Bool.false_ne_true]
        by_cases asked : event = .step
        · subst asked
          have pending := Bool.toNat_le (machine.handle .step).state.stepPending
          rw [List.countP_cons_of_pos rfl]
          omega
        · have unasked := Moment.asks_of_ne_step machine asked
          rw [machine.handle_stepPending asked] at later
          rw [List.countP_cons_of_neg (Bool.eq_false_iff.mp unasked)]
          exact later
  | @update machine _ _ now _ ih =>
      rcases List.prefix_cons_iff.mp within with rfl | ⟨rest, rfl, further⟩
      · exact Nat.zero_le _
      · obtain ⟨core, timers, same⟩ := machine.updated_eq now
        rw [same] at ih
        have later := ih paused further fun moment member => goesOn moment (.tail _ member)
        rw [List.countP_cons_of_neg Bool.false_ne_true, List.countP_cons_of_neg Bool.false_ne_true]
        exact later
  | @refuse machine _ _ refused _ ih =>
      rcases List.prefix_cons_iff.mp within with rfl | ⟨rest, rfl, further⟩
      · exact Nat.zero_le _
      · obtain ⟨stays, _, left⟩ := Machine.ready_refused refused
        rw [left] at ih
        have later := ih stays further fun moment member => goesOn moment (.tail _ member)
        rw [List.countP_cons_of_neg Bool.false_ne_true, List.countP_cons_of_neg Bool.false_ne_true]
        exact later
  | @allow machine _ _ allowed _ ih =>
      have stays : machine.pauseIfArrived.paused = true := by
        unfold Machine.pauseIfArrived
        rw [paused, Bool.true_or]
      rcases Machine.ready_cases_allowed allowed with ⟨running, _⟩ | ⟨_, asked, kept, spent⟩
      · rw [stays] at running
        cases running
      rcases List.prefix_cons_iff.mp within with rfl | ⟨rest, rfl, further⟩
      · exact Nat.zero_le _
      -- The cut may lie between the check and the step that it allows.
      rcases List.prefix_cons_iff.mp further with rfl | ⟨later, rfl, beyond⟩
      · exact Nat.zero_le _
      · obtain ⟨core, resumedAt, same⟩ := machine.ready.state.stepped_eq
        rw [same] at ih
        have bound := ih kept beyond fun moment member => goesOn moment (.tail _ (.tail _ member))
        rw [List.countP_cons_of_neg Bool.false_ne_true, List.countP_cons_of_pos rfl,
          List.countP_cons_of_neg Bool.false_ne_true,
          List.countP_cons_of_neg Bool.false_ne_true, asked]
        simp only [spent, Bool.toNat_false, Nat.add_zero] at bound
        simp only [Bool.toNat_true]
        omega

/-! ### Steps left over -/

/-- A step was asked for in a pause, and no check has used it up since. -/
def Unspent (moments : List (Moment Time)) : Prop :=
  ∃ before given between, moments = before ++ given :: between ∧ given.asks = true ∧
    given.machine.paused = true ∧ ∀ moment ∈ between, moment.spends = false

omit [Scalar Time] in
theorem unspent_nil : ¬ Unspent ([] : List (Moment Time)) := by
  rintro ⟨before, given, between, same, _⟩
  exact List.append_ne_nil_of_right_ne_nil before (List.cons_ne_nil given between) same.symm

omit [Scalar Time] in
theorem unspent_cons_iff {moment : Moment Time} {moments : List (Moment Time)} :
    Unspent (moment :: moments) ↔
      (moment.asks = true ∧ moment.machine.paused = true ∧
        ∀ later ∈ moments, later.spends = false) ∨ Unspent moments := by
  constructor
  · rintro ⟨before, given, between, same, asks, paused, unspent⟩
    cases before with
    | nil =>
        cases same
        exact Or.inl ⟨asks, paused, unspent⟩
    | cons first before =>
        cases same
        exact Or.inr ⟨before, given, between, rfl, asks, paused, unspent⟩
  · rintro (⟨asks, paused, unspent⟩ | ⟨before, given, between, rfl, rest⟩)
    · exact ⟨[], moment, moments, rfl, asks, paused, unspent⟩
    · exact ⟨moment :: before, given, between, rfl, rest⟩

/-- A step is pending exactly when one is left over, be it from before. -/
theorem Trail.stepPending_iff {start stop : Machine Time} {moments : List (Moment Time)}
    (trail : Trail start moments stop) :
    stop.stepPending = true ↔
      (start.stepPending = true ∧ ∀ moment ∈ moments, moment.spends = false) ∨
        Unspent moments := by
  induction trail with
  | done machine =>
      have nothing : ¬ Unspent ([] : List (Moment Time)) := unspent_nil
      simp [nothing]
  | poll events _ ih =>
      rw [ih, unspent_cons_iff, List.forall_mem_cons]
      simp [Moment.asks, Moment.spends]
  | @hear machine _ _ event _ ih =>
      have goesOn : Moment.spends ⟨machine, .hear event⟩ = false := rfl
      rw [ih, unspent_cons_iff, List.forall_mem_cons]
      by_cases asked : event = .step
      · subst asked
        have pending : (machine.handle .step).state.stepPending =
            (machine.stepPending || machine.paused) := rfl
        have asks : Moment.asks ⟨machine, .hear .step⟩ = true := rfl
        simp only [pending, goesOn, asks, Bool.or_eq_true, true_and, or_and_right, or_assoc]
      · have unasked := Moment.asks_of_ne_step machine asked
        rw [machine.handle_stepPending asked]
        simp only [goesOn, unasked, Bool.false_eq_true, false_and, false_or, true_and]
  | @update machine _ _ now _ ih =>
      obtain ⟨core, timers, same⟩ := machine.updated_eq now
      rw [ih, unspent_cons_iff, List.forall_mem_cons, same]
      simp [Moment.asks, Moment.spends]
  | @refuse machine _ _ refused _ ih =>
      obtain ⟨paused, unasked, left⟩ := Machine.ready_refused refused
      rw [ih, unspent_cons_iff, List.forall_mem_cons, left]
      have pending : machine.pauseIfArrived.stepPending = false := unasked
      simp [Moment.asks, pending, unasked]
  | @allow machine _ _ allowed _ ih =>
      obtain ⟨core, resumedAt, same⟩ := machine.ready.state.stepped_eq
      rw [ih, unspent_cons_iff, unspent_cons_iff, List.forall_mem_cons, List.forall_mem_cons, same]
      -- Only a check in a pause puts an end to a pending step; outside one it lives on.
      rcases Machine.ready_cases_allowed allowed with ⟨running, left⟩ | ⟨paused, asked, kept, spent⟩
      · have pending : machine.ready.state.stepPending = machine.stepPending := by rw [left]; rfl
        simp [Moment.asks, Moment.spends, pending, running]
      · simp [Moment.asks, Moment.spends, spent, paused]

/-! ### When every step is asked for in its own pause -/

def InPause (moments during : List (Moment Time)) : Prop :=
  ∃ before arrival after, moments = before ++ arrival :: (during ++ after) ∧ arrival.Arrives ∧
    ∀ moment ∈ during, moment.resumes = false

/-- Every pause takes no more steps than are asked for in it. -/
def StepsKeepToTheirPause (moments : List (Moment Time)) : Prop :=
  ∀ during, InPause moments during →
    during.countP Moment.takes ≤ during.countP Moment.asks

/-- A pause begins with a step left over from an earlier one. -/
def StepOutlivesItsPause (moments : List (Moment Time)) : Prop :=
  ∃ before arrival after, moments = before ++ arrival :: after ∧ arrival.Arrives ∧ Unspent before

omit [Scalar Time] in
theorem Machine.pauses_of_atBreakpoint {machine : Machine Time}
    (arrives : machine.atBreakpoint = true) : machine.pauseIfArrived.paused = true := by
  unfold pauseIfArrived
  rw [arrives, Bool.or_true]

/-- Behind the beginning of a pause no more steps are taken than are asked for, and the one
that was pending. -/
theorem Trail.takes_le_of_arrives {machine stop : Machine Time}
    {during after : List (Moment Time)}
    (trail : Trail machine (⟨machine, .check⟩ :: (during ++ after)) stop)
    (arrives : machine.atBreakpoint = true) (goesOn : ∀ moment ∈ during, moment.resumes = false) :
    during.countP Moment.takes ≤ during.countP Moment.asks + machine.stepPending.toNat := by
  have paused := Machine.pauses_of_atBreakpoint arrives
  generalize behind : during ++ after = rest at trail
  cases trail with
  | refuse refused further =>
      obtain ⟨_, _, left⟩ := Machine.ready_refused refused
      rw [left] at further
      exact further.takes_le paused ⟨after, behind⟩ goesOn
  | @allow _ _ rest allowed further =>
      rcases Machine.ready_cases_allowed allowed with ⟨running, _⟩ | ⟨_, asked, kept, spent⟩
      · rw [paused] at running
        cases running
      cases during with
      | nil => exact Nat.zero_le _
      | cons first during =>
          cases behind
          obtain ⟨core, resumedAt, same⟩ := machine.ready.state.stepped_eq
          rw [same] at further
          have bound := further.takes_le kept (List.prefix_append during after)
            fun moment member => goesOn moment (.tail _ member)
          simp only [spent, Bool.toNat_false, Nat.add_zero] at bound
          rw [List.countP_cons_of_pos rfl, List.countP_cons_of_neg Bool.false_ne_true, asked,
            Bool.toNat_true]
          omega

/-- Every pause takes no more steps than are asked for in it, exactly when no step that was
asked for in a pause is still unspent where a breakpoint begins another. -/
theorem Played.steps_keep_to_their_pause_iff {settings : Settings} {program : List UInt8}
    {moments : List (Moment Time)} {machine : Machine Time}
    (played : Played settings program moments machine) :
    StepsKeepToTheirPause moments ↔ ¬ StepOutlivesItsPause moments := by
  obtain ⟨start, started, trail⟩ := played.trail
  have unasked : start.stepPending = false := by
    obtain ⟨timers, interval, memory, _, _, _, rfl⟩ := Machine.boot_eq_ok_iff.mp started
    rfl
  constructor
  · rintro keeps ⟨before, ⟨arrived, _⟩, after, rfl, ⟨rfl, arrives⟩, unspent⟩
    obtain ⟨earlier, later⟩ := trail.divide
    have pending := earlier.stepPending_iff.mpr (Or.inr unspent)
    cases later with
    | refuse refused _ =>
        obtain ⟨_, nothing, _⟩ := Machine.ready_refused refused
        rw [pending] at nothing
        cases nothing
    | @allow _ _ rest _ _ =>
        -- The step that the check allows is the first of the pause, and nobody asked for it.
        have bound := keeps [⟨arrived.ready.state, .step⟩]
          ⟨before, ⟨arrived, .check⟩, rest, rfl, ⟨rfl, arrives⟩, by simp [Moment.resumes]⟩
        exact absurd bound (Nat.not_succ_le_zero 0)
  · rintro spentInTime during ⟨before, ⟨arrived, _⟩, after, rfl, ⟨rfl, arrives⟩, goesOn⟩
    obtain ⟨earlier, later⟩ := trail.divide
    have bound := later.takes_le_of_arrives arrives goesOn
    cases pending : arrived.stepPending with
    | false =>
        rw [pending, Bool.toNat_false, Nat.add_zero] at bound
        exact bound
    | true =>
        rcases earlier.stepPending_iff.mp pending with ⟨impossible, _⟩ | unspent
        · rw [unasked] at impossible
          cases impossible
        · exact absurd ⟨before, _, _, rfl, ⟨rfl, arrives⟩, unspent⟩ spentInTime

/-! ### A step that outlives its pause -/

/-- A clock that has not moved since the last update makes no tick fall due. -/
theorem Machine.catchUp_again {machine : Machine Rat} {now : Rat}
    (last : machine.timers.last = some now) (ticking : machine.timers.interval ≠ 0) :
    machine.catchUp now = .ok machine := by
  have elapsed : Scalar.quotient (now - now) machine.timers.interval = .ok 0 := by
    have zero : Scalar.isZero machine.timers.interval = false := beq_eq_false_iff_ne.mpr ticking
    unfold Scalar.quotient
    rw [zero, Rat.sub_self, Rat.div_def, Rat.zero_mul]
    rfl
  have updated : machine.timers.update machine.core.registers now =
      .ok (0, machine.timers, machine.core.registers) := by
    unfold Timers.update
    rw [last]
    simp only [elapsed]
    rfl
  unfold catchUp
  rw [updated]
  rfl

/-- An operator who asks for a step and resumes at every poll steps over the second of two
breakpoints without having asked for it there. -/
theorem step_outlives_first_breakpoint :
    ∃ machine : Machine Rat,
      Machine.boot ⟨0, false, 0, [0x200, 0x202], false, "jump"⟩ [0x12, 0x02] = .ok machine ∧
        let host : Host Rat Unit :=
          ⟨fun _ => ([.step, .resume], ()), fun _ => (some 0, ()), fun _ _ => ()⟩
        ¬ StepsKeepToTheirPause (machine.history host none 3 ()) := by
  obtain ⟨machine, started⟩ : ∃ machine : Machine Rat,
      Machine.boot ⟨0, false, 0, [0x200, 0x202], false, "jump"⟩ [0x12, 0x02] = .ok machine :=
    ⟨_, rfl⟩
  refine ⟨machine, started, ?_⟩
  have fetched := Machine.boot_fetch started
  obtain ⟨timers, interval, memory, ticking, paced, _, same⟩ := Machine.boot_eq_ok_iff.mp started
  cases ticking
  cases paced
  let core : Core := { Core.blank 0 false with memory }
  let moved : Core := (core.setCounter 0x202).counted
  have jumped : core.step = .ok true moved := by
    rw [same] at fetched
    have word : core.fetch = .ok (Instruction.jump 0x202).assemble := fetched
    exact Core.step_of_jump rfl word
  let stopped : Machine Rat :=
    ⟨core, ⟨1 / 60, some 0⟩, 0, [0x200, 0x202], false, false, true, false, none⟩
  let resumed : Machine Rat :=
    ⟨core, ⟨1 / 60, some 0⟩, 0, [0x200, 0x202], false, false, false, true, some 0x200⟩
  let beyond : Machine Rat :=
    ⟨moved, ⟨1 / 60, some 0⟩, 0, [0x200, 0x202], false, false, false, true, none⟩
  have early : Scalar.less (0 : Rat) 0 = false := by decide +kernel
  have due : resumed.nextDue 0 0 = 0 := by
    change Scalar.later ((0 : Rat) + 0) (0 - Scalar.ratio 1 10) = 0
    decide +kernel
  have ticks : (1 / 60 : Rat) ≠ 0 := by decide +kernel
  intro host keeps
  refine (Played.steps_keep_to_their_pause_iff (.run host none 3 () (.boot started))).mp keeps ?_
  -- The step that the second pass takes is one of a machine that goes on, so it spends nothing.
  have first : Machine.pass host none ⟨machine, 0, ()⟩ = .again ⟨stopped, 0, ()⟩ := by
    have reached : Machine.pass host none ⟨machine, 0, ()⟩ =
        .again ⟨stopped, resumed.nextDue 0 0, ()⟩ := by
      rw [same]
      rfl
    rw [reached, due]
  have caughtUp : resumed.catchUp 0 = .ok resumed := Machine.catchUp_again rfl ticks
  have second : Machine.pass host none ⟨stopped, 0, ()⟩ = .again ⟨beyond, 0, ()⟩ := by
    have allowed : resumed.ready.attempt = .ok true resumed := rfl
    have taken : resumed.slot.attempt = .ok true beyond := Machine.slot_of_step allowed jumped
    change Machine.passAt host ⟨resumed, 0, ()⟩ 0 = _
    rw [Machine.passAt_of_due host caughtUp early, Machine.spendSlot]
    simp only [taken, due]
  have moments : machine.history host none 3 () =
      Machine.passMoments host none ⟨machine, 0, ()⟩ ++
        (Machine.passMoments host none ⟨stopped, 0, ()⟩ ++
          Machine.passMoments host none ⟨beyond, 0, ()⟩) := by
    change Machine.momentsFrom host none 3 ⟨machine, 0, ()⟩ = _
    rw [Machine.momentsFrom_succ first, Machine.momentsFrom_succ second, Machine.momentsFrom_one]
  have given : Machine.passMoments host none ⟨stopped, 0, ()⟩ =
      [⟨stopped, .poll [.step, .resume]⟩, ⟨stopped, .hear .step⟩,
        ⟨{ stopped with stepPending := true }, .hear .resume⟩, ⟨resumed, .update 0⟩,
        ⟨resumed, .check⟩, ⟨resumed, .step⟩] := by
    have reading := Machine.readingMoments_of_due caughtUp early
    change _ :: _ :: _ :: resumed.readingMoments 0 0 = _
    rw [reading]
    rfl
  have arrival : Machine.passMoments host none ⟨beyond, 0, ()⟩ =
      [⟨beyond, .poll [.step, .resume]⟩, ⟨beyond, .hear .step⟩, ⟨beyond, .hear .resume⟩,
        ⟨beyond, .update 0⟩, ⟨beyond, .check⟩, ⟨beyond.ready.state, .step⟩] := by
    have still : beyond.catchUp 0 = .ok beyond := Machine.catchUp_again rfl ticks
    have reading := Machine.readingMoments_of_due still early
    change _ :: _ :: _ :: beyond.readingMoments 0 0 = _
    rw [reading]
    rfl
  rw [moments, given, arrival]
  generalize Machine.passMoments host none ⟨machine, 0, ()⟩ = before
  let between : List (Moment Rat) :=
    [⟨{ stopped with stepPending := true }, .hear .resume⟩, ⟨resumed, .update 0⟩,
      ⟨resumed, .check⟩, ⟨resumed, .step⟩, ⟨beyond, .poll [.step, .resume]⟩,
      ⟨beyond, .hear .step⟩, ⟨beyond, .hear .resume⟩, ⟨beyond, .update 0⟩]
  have unspent : ∀ moment ∈ between, moment.spends = false := by
    have none : between.any Moment.spends = false := rfl
    intro moment member
    exact Bool.eq_false_iff.mpr (List.any_eq_false.mp none moment member)
  refine ⟨before ++ ⟨stopped, .poll [.step, .resume]⟩ :: ⟨stopped, .hear .step⟩ :: between,
    ⟨beyond, .check⟩, [⟨beyond.ready.state, .step⟩], ?_, ⟨rfl, rfl⟩,
    before ++ [⟨stopped, .poll [.step, .resume]⟩], ⟨stopped, .hear .step⟩, between, ?_, rfl, rfl,
    unspent⟩
  · simp only [between, List.nil_append, List.append_assoc, List.cons_append]
  · rw [List.append_assoc]
    rfl

end Chip8
