import Chip8.Proofs.Machine.Pause

/-!
Breakpoints.

A machine remembers one address, the one that it was let go from last, and forgets it as
soon as the counter has moved away. So between two slots it remembers either nothing or
the address that the counter stands at, and it remembers that one exactly if it was let go
there and the counter has not moved since. This ties what a breakpoint does to the history
of the machine alone.
-/

namespace Chip8

variable {Time : Type}

namespace Moment

/-- A resume that ends a pause, or a check in a pause that allows a single step. -/
def LetsGo (moment : Moment Time) : Prop :=
  match moment.action with
  | .hear .resume => moment.machine.paused = true
  | .check => moment.machine.pauseIfArrived.paused = true ∧ moment.machine.stepPending = true
  | _ => False

/-- The machine is paused, or is so once this check has looked for a breakpoint. -/
def InPause (moment : Moment Time) : Prop :=
  match moment.action with
  | .check => moment.machine.pauseIfArrived.paused = true
  | _ => moment.machine.paused = true

theorem LetsGo.inPause {moment : Moment Time} (letsGo : moment.LetsGo) : moment.InPause := by
  obtain ⟨machine, action⟩ := moment
  cases action with
  | check => exact letsGo.1
  | hear event =>
      cases event with
      | resume => exact letsGo
      | _ => cases letsGo
  | _ => cases letsGo

end Moment

/-! ### Since the counter came to an address -/

/-- A moment had a property, and the counter has stood at an address from then on. -/
def Since (property : Moment Time → Prop) (address : Int) (moments : List (Moment Time)) : Prop :=
  ∃ before given since, moments = before ++ given :: since ∧ property given ∧
    ∀ moment ∈ given :: since, moment.machine.counter = address

section Since

variable {property other : Moment Time → Prop} {address : Int}

theorem since_nil : ¬ Since property address ([] : List (Moment Time)) := by
  rintro ⟨before, given, since, same, _⟩
  exact List.append_ne_nil_of_right_ne_nil before (List.cons_ne_nil given since) same.symm

theorem since_cons_iff {moment : Moment Time} {moments : List (Moment Time)} :
    Since property address (moment :: moments) ↔
      (property moment ∧ ∀ later ∈ moment :: moments, later.machine.counter = address) ∨
        Since property address moments := by
  constructor
  · rintro ⟨before, given, since, same, holds, stays⟩
    cases before with
    | nil =>
        cases same
        exact Or.inl ⟨holds, stays⟩
    | cons first before =>
        cases same
        exact Or.inr ⟨before, given, since, rfl, holds, stays⟩
  · rintro (⟨holds, stays⟩ | ⟨before, given, since, rfl, rest⟩)
    · exact ⟨[], moment, moments, rfl, holds, stays⟩
    · exact ⟨moment :: before, given, since, rfl, rest⟩

theorem Since.mono {moments : List (Moment Time)} (since : Since property address moments)
    (weaker : ∀ moment, property moment → other moment) : Since other address moments := by
  obtain ⟨before, given, later, same, holds, stays⟩ := since
  exact ⟨before, given, later, same, weaker given holds, stays⟩

theorem Since.concat {moments : List (Moment Time)} {last : Moment Time}
    (since : Since property address moments) (stays : last.machine.counter = address) :
    Since property address (moments ++ [last]) := by
  obtain ⟨before, given, later, rfl, holds, stood⟩ := since
  refine ⟨before, given, later ++ [last], by simp, holds, ?_⟩
  intro moment member
  rcases List.mem_append.mp (by simpa using member : moment ∈ (given :: later) ++ [last]) with
    older | isLast
  · exact stood moment older
  · rw [List.mem_singleton.mp isLast]
    exact stays

/-- Nothing from before the counter came to an address counts there. -/
theorem Since.of_moved {before after : List (Moment Time)} {moved : Moment Time}
    (since : Since property address (before ++ moved :: after))
    (elsewhere : moved.machine.counter ≠ address) : Since property address after := by
  induction before with
  | nil =>
      rcases since_cons_iff.mp since with ⟨_, stays⟩ | later
      · exact absurd (stays moved List.mem_cons_self) elsewhere
      · exact later
  | cons first before ih =>
      rcases since_cons_iff.mp since with ⟨_, stays⟩ | later
      · exact absurd (stays moved (by simp)) elsewhere
      · exact ih later

end Since

/-! ### What becomes of the remembered address -/

namespace Machine

variable {machine : Machine Time}

/-- What is remembered is the address that the counter stands at. -/
def Coherent (machine : Machine Time) : Prop :=
  ∀ address, machine.resumedAt = some address → machine.counter = address

theorem handle_counter (machine : Machine Time) (event : Event) :
    (machine.handle event).state.counter = machine.counter := by
  obtain ⟨_, _, _, _, _, same⟩ := machine.handle_eq event
  rw [same]
  rfl

theorem ready_counter (machine : Machine Time) : machine.ready.state.counter = machine.counter := by
  unfold counter
  rw [machine.ready_core]

theorem ready_resumedAt_iff (coherent : machine.Coherent) {address : Int} :
    machine.ready.state.resumedAt = some address ↔
      machine.counter = address ∧
        (machine.resumedAt = some address ∨ Moment.LetsGo ⟨machine, .check⟩) := by
  have stays := coherent address
  unfold Response.state Moment.LetsGo
  dsimp only
  cases paused : machine.pauseIfArrived.paused with
  | false =>
      have same : machine.pauseIfArrived.resumedAt = machine.resumedAt := rfl
      rw [ready_of_running paused]
      simpa [same] using stays
  | true =>
      cases asked : machine.stepPending with
      | false =>
          have same : machine.pauseIfArrived.resumedAt = machine.resumedAt := rfl
          rw [ready_of_paused paused asked]
          simpa [same] using stays
      | true =>
          rw [ready_of_asked paused asked]
          simp

theorem ready_coherent (coherent : machine.Coherent) : machine.ready.state.Coherent := by
  intro address remembered
  rw [machine.ready_counter]
  exact ((ready_resumedAt_iff coherent).mp remembered).1

theorem ready_paused (machine : Machine Time) :
    machine.ready.state.paused = machine.pauseIfArrived.paused := by
  unfold ready
  dsimp only
  split
  · rfl
  · split <;> rfl

theorem pauseIfArrived_paused_iff (running : machine.paused = false) :
    machine.pauseIfArrived.paused = true ↔
      machine.core.waiting = none ∧ machine.counter ∈ machine.breakpoints ∧
        machine.resumedAt ≠ some machine.counter := by
  unfold pauseIfArrived atBreakpoint
  rw [running]
  simp [and_assoc]

theorem updated_counter [Scalar Time] (machine : Machine Time) (now : Time) :
    (machine.updated now).counter = machine.counter := by
  obtain ⟨_, _, same⟩ := machine.core.registers.ticks_eq (machine.ticksBy now)
  unfold counter
  rw [machine.updated_core, Core.modifyRegisters, same]

theorem updated_resumedAt [Scalar Time] (machine : Machine Time) (now : Time) :
    (machine.updated now).resumedAt = machine.resumedAt := by
  obtain ⟨core, timers, same⟩ := machine.updated_eq now
  rw [same]

theorem updated_coherent [Scalar Time] (coherent : machine.Coherent) (now : Time) :
    (machine.updated now).Coherent := by
  intro address remembered
  rw [machine.updated_resumedAt] at remembered
  rw [machine.updated_counter]
  exact coherent address remembered

/-- A step keeps what is remembered as long as the counter stays there. -/
theorem stepped_resumedAt_iff (coherent : machine.Coherent) {address : Int} :
    machine.stepped.resumedAt = some address ↔
      machine.resumedAt = some address ∧ machine.stepped.counter = address := by
  -- Only a step that got somewhere moves the counter, and only behind such a step is anything
  -- forgotten.
  have unmoved : ∀ stopped : Machine Time, stopped.resumedAt = machine.resumedAt →
      stopped.counter = machine.counter →
        (stopped.resumedAt = some address ↔
          machine.resumedAt = some address ∧ stopped.counter = address) := by
    intro stopped same stays
    rw [same, stays]
    exact ⟨fun remembered => ⟨remembered, coherent address remembered⟩, And.left⟩
  unfold stepped step
  cases went : machine.core.step with
  | error fault after => exact unmoved _ rfl (Core.counter_of_step_error went)
  | ok anything after =>
      cases anything with
      | false =>
          cases Core.core_of_stalled went
          exact unmoved _ rfl rfl
      | true =>
          change (forgetResumed (machine.withCore after)).resumedAt = some address ↔
            machine.resumedAt = some address ∧ after.registers.counter = address
          change (if machine.resumedAt = some after.registers.counter then machine.resumedAt
            else none) = some address ↔ _
          by_cases stays : machine.resumedAt = some after.registers.counter
          · rw [if_pos stays, stays, Option.some.injEq]
            exact ⟨fun same => ⟨same, same⟩, And.left⟩
          · rw [if_neg stays]
            constructor
            · intro impossible
              cases impossible
            · rintro ⟨remembered, rfl⟩
              exact absurd remembered stays

theorem stepped_idle_of_moved (moved : machine.stepped.counter ≠ machine.counter) :
    machine.stepped.core.waiting = none := by
  unfold stepped step at moved ⊢
  cases went : machine.core.step with
  | error fault after =>
      rw [went] at moved
      exact absurd (Core.counter_of_step_error went) moved
  | ok anything after =>
      rw [went] at moved
      cases anything with
      | true => exact Core.idle_of_moved went moved
      | false =>
          cases Core.core_of_stalled went
          exact absurd rfl moved

theorem stepped_coherent (coherent : machine.Coherent) : machine.stepped.Coherent := by
  intro address remembered
  exact ((stepped_resumedAt_iff coherent).mp remembered).2

theorem handle_resumedAt (machine : Machine Time) {event : Event} (other : event ≠ .resume) :
    (machine.handle event).state.resumedAt = machine.resumedAt := by
  cases event with
  | key number pressed =>
      rw [handle]
      cases machine.core.keypad.set number pressed <;> rfl
  | resume => exact absurd rfl other
  | _ => rfl

theorem handle_resume_of_running (running : machine.paused = false) :
    (machine.handle .resume).state = machine := by
  rw [handle, running]
  rfl

theorem handle_resume_of_paused (paused : machine.paused = true) :
    (machine.handle .resume).state =
      { machine with paused := false, resumedAt := some machine.counter } := by
  rw [handle, paused]
  rfl

theorem handle_resumedAt_iff (machine : Machine Time) (coherent : machine.Coherent) (event : Event)
    {address : Int} :
    (machine.handle event).state.resumedAt = some address ↔
      machine.counter = address ∧
        (machine.resumedAt = some address ∨ Moment.LetsGo ⟨machine, .hear event⟩) := by
  by_cases resumes : event = .resume
  · subst resumes
    cases paused : machine.paused with
    | true =>
        have letsGo : Moment.LetsGo ⟨machine, .hear .resume⟩ := paused
        rw [handle_resume_of_paused paused]
        simp [letsGo]
    | false =>
        have keeps : ¬ Moment.LetsGo ⟨machine, .hear .resume⟩ := by
          intro letsGo
          change machine.paused = true at letsGo
          rw [paused] at letsGo
          cases letsGo
        rw [handle_resume_of_running paused]
        simpa [keeps] using coherent address
  · have keeps : ¬ Moment.LetsGo ⟨machine, .hear event⟩ := by
      cases event with
      | resume => exact absurd rfl resumes
      | _ => exact id
    rw [handle_resumedAt machine resumes]
    simpa [keeps] using coherent address

theorem handle_coherent (coherent : machine.Coherent) (event : Event) :
    (machine.handle event).state.Coherent := by
  intro address remembered
  rw [machine.handle_counter]
  exact ((handle_resumedAt_iff machine coherent event).mp remembered).1

end Machine

/-! ### What is remembered, by the history -/

variable [Scalar Time]

/-- A trail whose moments all stand at an address, and that ends there, began there. -/
theorem Trail.counter_eq {start stop : Machine Time} {moments : List (Moment Time)} {address : Int}
    (trail : Trail start moments stop) (ends : stop.counter = address)
    (stays : ∀ moment ∈ moments, moment.machine.counter = address) : start.counter = address := by
  cases trail with
  | done _ => exact ends
  | _ => exact stays _ List.mem_cons_self

/-- A machine remembers an address exactly if it was let go there and the counter has stood
there since, or if it remembered the address from before and the counter never moved. -/
theorem Trail.resumedAt_iff {start stop : Machine Time} {moments : List (Moment Time)}
    (trail : Trail start moments stop) (coherent : start.Coherent) {address : Int} :
    stop.resumedAt = some address ↔
      stop.counter = address ∧
        ((start.resumedAt = some address ∧
            ∀ moment ∈ moments, moment.machine.counter = address) ∨
          Since Moment.LetsGo address moments) := by
  induction trail with
  | done machine =>
      have nothing : ¬ Since Moment.LetsGo address ([] : List (Moment Time)) := since_nil
      simpa [nothing] using coherent address
  | @poll machine _ _ events _ ih =>
      have keeps : ¬ Moment.LetsGo ⟨machine, .poll events⟩ := id
      have stays := coherent address
      rw [ih coherent, since_cons_iff, List.forall_mem_cons]
      grind
  | @hear machine _ _ event _ ih =>
      have stays := coherent address
      rw [ih (Machine.handle_coherent coherent event), since_cons_iff, List.forall_mem_cons,
        machine.handle_resumedAt_iff coherent event]
      grind
  | @update machine _ _ now _ ih =>
      have keeps : ¬ Moment.LetsGo ⟨machine, .update now⟩ := id
      have stays := coherent address
      rw [ih (Machine.updated_coherent coherent now), since_cons_iff, List.forall_mem_cons,
        machine.updated_resumedAt]
      grind
  | @refuse machine _ _ refused _ ih =>
      have stays := coherent address
      rw [ih (Machine.ready_coherent coherent), since_cons_iff, List.forall_mem_cons,
        Machine.ready_resumedAt_iff coherent]
      grind
  | @allow machine _ _ allowed further ih =>
      have arrived := Machine.ready_coherent coherent
      have keeps : ¬ Moment.LetsGo ⟨machine.ready.state, .step⟩ := id
      have stays := coherent address
      have same := machine.ready_counter
      have began := fun ends : _ = address => further.counter_eq ends
      rw [ih (Machine.stepped_coherent arrived), Machine.stepped_resumedAt_iff arrived,
        Machine.ready_resumedAt_iff coherent]
      simp only [since_cons_iff, List.forall_mem_cons]
      grind

/-! ### Along a trail -/

/-- Until it is checked again, a machine that is not paused is not let go, and neither the
counter nor the wait for a key changes. -/
theorem Trail.until_check {start stop : Machine Time} {moments : List (Moment Time)}
    (trail : Trail start moments stop) (running : start.paused = false)
    (unchecked : ∀ moment ∈ moments, moment.action ≠ .check) :
    (∀ moment ∈ moments, ¬ moment.LetsGo) ∧ stop.paused = false ∧
      stop.counter = start.counter ∧ stop.core.waiting = start.core.waiting := by
  induction trail with
  | done machine => exact ⟨by simp, running, rfl, rfl⟩
  | @poll machine _ _ events _ ih =>
      obtain ⟨_, later⟩ := List.forall_mem_cons.mp unchecked
      obtain ⟨keeps, rest⟩ := ih running later
      exact ⟨List.forall_mem_cons.mpr ⟨id, keeps⟩, rest⟩
  | @hear machine _ _ event _ ih =>
      obtain ⟨_, later⟩ := List.forall_mem_cons.mp unchecked
      have stays : (machine.handle event).state.paused = false := by
        by_cases resumes : event = .resume
        · subst resumes
          rw [Machine.handle_resume_of_running running]
          exact running
        · exact (machine.handle_paused resumes).trans running
      have silent : ¬ Moment.LetsGo ⟨machine, .hear event⟩ := by
        intro letsGo
        have paused : machine.paused = true := letsGo.inPause
        rw [running] at paused
        cases paused
      obtain ⟨keeps, goesOn, counter, waiting⟩ := ih stays later
      obtain ⟨_, _, _, _, _, same⟩ := machine.handle_eq event
      exact ⟨List.forall_mem_cons.mpr ⟨silent, keeps⟩, goesOn,
        counter.trans (machine.handle_counter event), waiting.trans (by rw [same])⟩
  | @update machine _ _ now _ ih =>
      obtain ⟨_, later⟩ := List.forall_mem_cons.mp unchecked
      have stays : (machine.updated now).paused = false := by
        obtain ⟨core, timers, same⟩ := machine.updated_eq now
        rw [same]
        exact running
      obtain ⟨keeps, goesOn, counter, waiting⟩ := ih stays later
      refine ⟨List.forall_mem_cons.mpr ⟨id, keeps⟩, goesOn,
        counter.trans (machine.updated_counter now), ?_⟩
      rw [waiting, machine.updated_core]
      rfl
  | refuse _ _ _ => exact absurd rfl (unchecked _ List.mem_cons_self)
  | allow _ _ _ => exact absurd rfl (unchecked _ List.mem_cons_self)

/-! ### Breakpoints and the history -/

section Played

variable {settings : Settings} {program : List UInt8} {moments : List (Moment Time)}
  {machine : Machine Time}

theorem Machine.boot_remembers_nothing (started : boot settings program = .ok machine) :
    machine.breakpoints = settings.breakpoints ∧ machine.resumedAt = none := by
  obtain ⟨timers, interval, memory, _, _, _, rfl⟩ := boot_eq_ok_iff.mp started
  exact ⟨rfl, rfl⟩

/-- What a machine remembers at a check: whether it was let go since the counter came to where
it stands. -/
theorem Played.resumedAt_iff (played : Played settings program moments machine)
    {before after : List (Moment Time)} {checked : Machine Time}
    (here : moments = before ++ ⟨checked, .check⟩ :: after) :
    checked.breakpoints = settings.breakpoints ∧
      (checked.resumedAt = some checked.counter ↔
        Since Moment.LetsGo checked.counter before) := by
  obtain ⟨start, started, trail⟩ := played.trail
  obtain ⟨given, nothing⟩ := Machine.boot_remembers_nothing started
  have coherent : start.Coherent := by
    intro address remembered
    rw [nothing] at remembered
    cases remembered
  rw [here] at trail
  have earlier := trail.divide.1
  refine ⟨earlier.setup_eq.2.1.trans given, ?_⟩
  rw [earlier.resumedAt_iff coherent, nothing]
  simp

/-- A breakpoint pauses a machine exactly if the counter stands there, no key is waited for,
and the machine was not let go since the counter came there. So an instruction at a breakpoint
is carried out only if there was a pause since the counter came there; and a running machine
whose counter comes to a breakpoint from elsewhere is paused by the next check. -/
theorem Played.breakpoint_pauses_iff (played : Played settings program moments machine) :
    (∀ before checked after, moments = before ++ ⟨checked, .check⟩ :: after →
        checked.paused = false →
          (checked.ready.state.paused = true ↔
            checked.core.waiting = none ∧ checked.counter ∈ settings.breakpoints ∧
              ¬ Since Moment.LetsGo checked.counter before)) ∧
      (∀ before ran after, moments = before ++ ⟨ran, .step⟩ :: after →
        ran.core.waiting = none → ran.counter ∈ settings.breakpoints →
          Since Moment.InPause ran.counter before) ∧
      ∀ before other between arrived after,
        moments = before ++ ⟨other, .step⟩ :: (between ++ ⟨arrived, .check⟩ :: after) →
          other.paused = false → other.counter ≠ arrived.counter →
            (∀ moment ∈ between, moment.action ≠ .check) →
              arrived.counter ∈ settings.breakpoints → arrived.ready.state.paused = true := by
  have exactly : ∀ before checked after, moments = before ++ ⟨checked, .check⟩ :: after →
      checked.paused = false →
        (checked.ready.state.paused = true ↔
          checked.core.waiting = none ∧ checked.counter ∈ settings.breakpoints ∧
            ¬ Since Moment.LetsGo checked.counter before) := by
    intro before checked after here running
    obtain ⟨given, remembered⟩ := played.resumedAt_iff here
    rw [checked.ready_paused, Machine.pauseIfArrived_paused_iff running, given, ne_eq, remembered]
  obtain ⟨start, started, trail⟩ := played.trail
  refine ⟨exactly, ?_, ?_⟩
  · intro before ran after here idle breaks
    have divided := trail
    rw [here] at divided
    obtain ⟨⟨earlier, checked, rfl, rfl, _⟩, _⟩ := divided.divide_at_step
    rw [checked.ready_core] at idle
    rw [checked.ready_counter] at breaks ⊢
    by_cases pauses : checked.pauseIfArrived.paused = true
    · exact ⟨earlier, ⟨checked, .check⟩, [], rfl, pauses, by simp⟩
    · -- The check found no reason to pause, so the machine was let go here, out of a pause.
      have running : checked.paused = false := by
        rw [← Bool.not_eq_true]
        intro paused
        exact pauses (by simp [Machine.pauseIfArrived, paused])
      have goesOn := exactly earlier checked (⟨checked.ready.state, .step⟩ :: after)
        (by rw [here]; simp) running
      rw [checked.ready_paused] at goesOn
      by_cases letGo : Since Moment.LetsGo checked.counter earlier
      · exact (letGo.mono fun _ => Moment.LetsGo.inPause).concat rfl
      · exact absurd (goesOn.mpr ⟨idle, breaks, letGo⟩) pauses
  · intro before other between arrived after here running elsewhere unchecked breaks
    have divided := trail
    rw [here] at divided
    have behind := divided.divide_at_step.2.divide.1
    obtain ⟨core, resumedAt, left⟩ := other.stepped_eq
    have goesOn : other.stepped.paused = false := by rw [left]; exact running
    obtain ⟨keeps, stays, counter, waiting⟩ := behind.until_check goesOn unchecked
    have idle : arrived.core.waiting = none := by
      rw [waiting]
      exact Machine.stepped_idle_of_moved (by rw [← counter]; exact elsewhere.symm)
    refine (exactly (before ++ ⟨other, .step⟩ :: between) arrived after (by rw [here]; simp)
      stays).mpr ⟨idle, breaks, ?_⟩
    intro letGo
    obtain ⟨early, given, later, rfl, letsGo, _⟩ := letGo.of_moved elsewhere
    exact keeps given (by simp) letsGo

/-- An operator who resumes at every poll: the first check of a jump to itself pauses, and the
second one, behind the resume, does not. -/
theorem breakpoint_pauses_once_at_jump_to_itself :
    ∃ machine : Machine Rat,
      Machine.boot ⟨0, false, 0, [0x200], false, "stay"⟩ [0x12, 0x00] = .ok machine ∧
        let host : Host Rat Unit := ⟨fun _ => ([.resume], ()), fun _ => (some 0, ()), fun _ _ => ()⟩
        ∃ before first between second after,
          machine.history host none 2 () =
              before ++ ⟨first, .check⟩ :: (between ++ ⟨second, .check⟩ :: after) ∧
            first.ready.state.paused = true ∧ second.paused = false ∧
            second.counter = 0x200 ∧ second.ready.state.paused = false := by
  obtain ⟨machine, started⟩ : ∃ machine : Machine Rat,
      Machine.boot ⟨0, false, 0, [0x200], false, "stay"⟩ [0x12, 0x00] = .ok machine := ⟨_, rfl⟩
  refine ⟨machine, started, ?_⟩
  obtain ⟨timers, interval, memory, ticking, paced, _, same⟩ := Machine.boot_eq_ok_iff.mp started
  cases ticking
  cases paced
  let core : Core := { Core.blank 0 false with memory }
  let waiting : Machine Rat :=
    ⟨core, ⟨1 / 60, some 0⟩, 0, [0x200], false, false, false, false, none⟩
  let stopped : Machine Rat := { waiting with paused := true }
  let resumed : Machine Rat := { waiting with resumedAt := some 0x200 }
  intro host
  have early : Scalar.less (0 : Rat) 0 = false := by decide +kernel
  have due : resumed.nextDue 0 0 = 0 := by
    change Scalar.later ((0 : Rat) + 0) (0 - Scalar.ratio 1 10) = 0
    decide +kernel
  have ticks : (1 / 60 : Rat) ≠ 0 := by decide +kernel
  have pausing : Machine.pass host none ⟨machine, 0, ()⟩ = .again ⟨stopped, 0, ()⟩ := by
    have reached : Machine.pass host none ⟨machine, 0, ()⟩ =
        .again ⟨stopped, resumed.nextDue 0 0, ()⟩ := by
      rw [same]
      rfl
    rw [reached, due]
  have opening : Machine.passMoments host none ⟨machine, 0, ()⟩ =
      [⟨machine, .poll [.resume]⟩, ⟨machine, .hear .resume⟩, ⟨machine, .update 0⟩,
        ⟨waiting, .check⟩] := by
    rw [same]
    rfl
  have resuming : Machine.passMoments host none ⟨stopped, 0, ()⟩ =
      [⟨stopped, .poll [.resume]⟩, ⟨stopped, .hear .resume⟩, ⟨resumed, .update 0⟩,
        ⟨resumed, .check⟩, ⟨resumed, .step⟩] := by
    have caughtUp : resumed.catchUp 0 = .ok resumed := Machine.catchUp_again rfl ticks
    have reading := Machine.readingMoments_of_due caughtUp early
    change _ :: _ :: resumed.readingMoments 0 0 = _
    rw [reading]
    rfl
  have whole : machine.history host none 2 () =
      [⟨machine, .poll [.resume]⟩, ⟨machine, .hear .resume⟩, ⟨machine, .update 0⟩] ++
        ⟨waiting, .check⟩ :: ([⟨stopped, .poll [.resume]⟩, ⟨stopped, .hear .resume⟩,
          ⟨resumed, .update 0⟩] ++ ⟨resumed, .check⟩ :: [⟨resumed, .step⟩]) := by
    change Machine.momentsFrom host none 2 ⟨machine, 0, ()⟩ = _
    rw [Machine.momentsFrom_succ pausing, Machine.momentsFrom_one, opening, resuming]
    rfl
  have exactly := (Played.breakpoint_pauses_iff (.run host none 2 () (.boot started))).1
  refine ⟨_, waiting, _, resumed, _, whole, ?_, rfl, rfl, ?_⟩
  · refine (exactly _ waiting _ whole rfl).mpr ⟨rfl, List.mem_singleton.mpr rfl, ?_⟩
    rintro ⟨before, given, later, split, letsGo, _⟩
    have unpaused : machine.paused = false := by rw [same]
    have member : given ∈ before ++ given :: later := by simp
    rw [← split] at member
    simp only [List.mem_cons, List.not_mem_nil, or_false] at member
    rcases member with rfl | rfl | rfl
    · exact letsGo
    · exact Bool.false_ne_true (unpaused.symm.trans letsGo)
    · exact letsGo
  · let before : List (Moment Rat) :=
      [⟨machine, .poll [.resume]⟩, ⟨machine, .hear .resume⟩, ⟨machine, .update 0⟩,
        ⟨waiting, .check⟩, ⟨stopped, .poll [.resume]⟩]
    let since : List (Moment Rat) := [⟨resumed, .update 0⟩]
    have letGo : Since Moment.LetsGo 0x200 (before ++ ⟨stopped, .hear .resume⟩ :: since) := by
      refine ⟨before, ⟨stopped, .hear .resume⟩, since, rfl, rfl, ?_⟩
      intro moment member
      simp only [since, List.mem_cons, List.not_mem_nil, or_false] at member
      rcases member with rfl | rfl <;> rfl
    rw [← Bool.not_eq_true]
    intro pauses
    have here := exactly (before ++ ⟨stopped, .hear .resume⟩ :: since) resumed [⟨resumed, .step⟩]
      whole rfl
    exact (here.mp pauses).2.2 letGo

end Played

end Chip8
