import Chip8.Proofs.Machine.Accounting
import Chip8.Proofs.Machine.Pacing
import Chip8.Proofs.Machine.Scripted
import Chip8.Proofs.Scalar.Order

/-!
Runs that are cut in two.

A run that nothing holds back never waits for a slot: whenever the clock is read, the next one is
due. So the time it is due at, which is all that a run forgets when it is left, makes no difference,
and a run up to one limit and another one from there to a later limit do what a single run to the
later limit does.
-/

namespace Chip8.Machine

variable {Time : Type} [Scalar Time]

/-- What time has to obey for a run without pace to be on time whenever the clock is read. -/
structure Unhurried (Time : Type) [Scalar Time] : Prop where
  here : ∀ now : Time, Scalar.less now now = false
  caughtUp : ∀ now due : Time, Scalar.less now due = false →
    Scalar.less now (Scalar.later (due + Scalar.ofInt 0) (now - maxLag)) = false
  rested : ∀ now due : Time, Scalar.less now due = false →
    Scalar.less (now + idleDelay) due = false

theorem unhurried_exact : Unhurried ℚ where
  here now := (Exact.less_eq_false_iff _ _).mpr le_rfl
  caughtUp now due reached := by
    have lag : (maxLag : ℚ) = 1 / 10 := by norm_num [maxLag, Scalar.ratio, Scalar.ofInt]
    have zero : due + Scalar.ofInt 0 = due := add_zero due
    rw [Exact.less_eq_false_iff] at reached ⊢
    rw [Exact.later_eq, zero, lag, max_le_iff]
    exact ⟨reached, by linarith⟩
  rested now due reached := by
    have delay : (idleDelay : ℚ) = 2 / 1000 := by norm_num [idleDelay, Scalar.ratio, Scalar.ofInt]
    rw [Exact.less_eq_false_iff] at reached ⊢
    rw [delay]
    linarith

open Binary64 in
/-- Sums of binary numbers are rounded, but never past either of the numbers that are added. -/
theorem unhurried_binary64 : Unhurried Float where
  here now := less_eq_false_iff.mpr fun x y first second => by
    rw [first, Option.some.injEq] at second
    exact second.ge
  caughtUp now due reached := by
    obtain ⟨lag, isLag, lagNonneg⟩ := ratio_nonneg (show 0 ≤ 1 by norm_num)
      (show 0 < 10 by norm_num) (by norm_num) (by norm_num)
    rw [less_eq_false_iff] at reached ⊢
    intro x z isNow isNext
    unfold Scalar.later at isNext
    split at isNext
    · obtain ⟨_, back, down, _⟩ := extent_sub isNow isLag
      obtain rfl := Option.some.inj (back.symm.trans isNext)
      exact down lagNonneg
    · cases isDue : extent? due with
      | none =>
          rw [extent_add_of_missing isDue] at isNext
          cases isNext
      | some y =>
          obtain ⟨_, same, _, down⟩ := extent_add isDue ofInt_zero
          obtain rfl := Option.some.inj (same.symm.trans isNext)
          exact (down le_rfl).trans (reached x y isNow isDue)
  rested now due reached := by
    obtain ⟨delay, isDelay, delayNonneg⟩ := ratio_nonneg (show 0 ≤ 2 by norm_num)
      (show 0 < 1000 by norm_num) (by norm_num) (by norm_num)
    rw [less_eq_false_iff] at reached ⊢
    intro z y isRested isDue
    cases isNow : extent? now with
    | none =>
        rw [extent_add_of_missing isNow] at isRested
        cases isRested
    | some x =>
        obtain ⟨_, later, up, _⟩ := extent_add isNow isDelay
        obtain rfl := Option.some.inj (later.symm.trans isRested)
        exact (reached x y isNow isDue).trans (up delayNonneg)

/-! ### Runs that are on time -/

/-- A run under way that nothing holds back and whose next slot is due. -/
structure OnTime (running : Running Time (Outside Time)) : Prop where
  free : running.machine.interval = Scalar.ofInt 0
  due : Scalar.less running.world.clock running.due = false

/-- Two runs under way that differ in the time of the next slot alone, which is due for both. -/
structure Alike (first second : Running Time (Outside Time)) : Prop where
  machine : first.machine = second.machine
  world : first.world = second.world
  first : OnTime first
  second : OnTime second

def Passed.Alike : Passed Time (Outside Time) → Passed Time (Outside Time) → Prop
  | .again first, .again second => Machine.Alike first second
  | .over ending machine world, .over otherEnding otherMachine otherWorld =>
      ending = otherEnding ∧ machine = otherMachine ∧ world = otherWorld
  | _, _ => False

section Alike

variable {script : Nat → List Event}

theorem spendSlot_alike (unhurried : Unhurried Time) {first second : Running Time (Outside Time)}
    (alike : Alike first second) :
    (spendSlot (Host.scripted script) first).Alike (spendSlot (Host.scripted script) second) := by
  obtain ⟨machine, due, outside⟩ := first
  obtain ⟨_, other, _⟩ := second
  obtain ⟨⟨⟩, ⟨⟩, ⟨free, isDue⟩, ⟨_, otherIsDue⟩⟩ := alike
  have kept := machine.slot_trail.setup_eq.1
  unfold spendSlot
  dsimp only
  rw [Host.scripted_tell outside machine.slot_effects_tell]
  cases spent : machine.slot.attempt with
  | error fault after => exact ⟨rfl, rfl, rfl⟩
  | ok anything after =>
      rw [Response.state_of_ok spent] at kept
      have stillFree : after.interval = Scalar.ofInt 0 := kept.trans free
      cases anything with
      | true => exact ⟨rfl, rfl, ⟨stillFree, isDue⟩, ⟨stillFree, otherIsDue⟩⟩
      | false =>
          dsimp only
          split
          · -- A nap moves the clock on, so what was due stays due.
            exact ⟨rfl, rfl, ⟨stillFree, unhurried.rested _ _ isDue⟩,
              ⟨stillFree, unhurried.rested _ _ otherIsDue⟩⟩
          · exact ⟨rfl, rfl, ⟨stillFree, isDue⟩, ⟨stillFree, otherIsDue⟩⟩

theorem passAt_alike (unhurried : Unhurried Time) {first second : Running Time (Outside Time)}
    (alike : Alike first second) :
    (passAt (Host.scripted script) first first.world.clock).Alike
      (passAt (Host.scripted script) second second.world.clock) := by
  obtain ⟨machine, due, outside⟩ := first
  obtain ⟨_, other, _⟩ := second
  obtain ⟨⟨⟩, ⟨⟩, ⟨free, isDue⟩, ⟨_, otherIsDue⟩⟩ := alike
  cases caughtUp : machine.catchUp outside.clock with
  | error fault =>
      unfold passAt
      simp only [caughtUp]
      exact ⟨rfl, rfl, rfl⟩
  | ok caught =>
      have stillFree : caught.interval = Scalar.ofInt 0 := by
        obtain ⟨_, _, same⟩ := machine.updated_eq outside.clock
        unfold updated at same
        rw [caughtUp] at same
        exact (congrArg Machine.interval same).trans free
      have later : ∀ due, Scalar.less outside.clock due = false →
          Scalar.less outside.clock (caught.nextDue due outside.clock) = false := by
        unfold nextDue
        rw [stillFree]
        exact unhurried.caughtUp outside.clock
      rw [passAt_of_due _ caughtUp isDue, passAt_of_due _ caughtUp otherIsDue]
      exact spendSlot_alike unhurried
        ⟨rfl, rfl, ⟨stillFree, later due isDue⟩, ⟨stillFree, later other otherIsDue⟩⟩

/-- A pass does the same whenever its slot is due. -/
theorem pass_alike (unhurried : Unhurried Time) (limit : Option Int)
    {first second : Running Time (Outside Time)} (alike : Alike first second) :
    (pass (Host.scripted script) limit first).Alike
      (pass (Host.scripted script) limit second) := by
  obtain ⟨machine, due, outside⟩ := first
  obtain ⟨_, other, _⟩ := second
  obtain ⟨⟨⟩, ⟨⟩, ⟨free, isDue⟩, ⟨_, otherIsDue⟩⟩ := alike
  cases goes : machine.halted || machine.limitReached limit with
  | true =>
      unfold pass
      simp only [goes, ↓reduceIte]
      exact ⟨rfl, rfl, rfl⟩
  | false =>
      have kept := (machine.hearings_trail (script (outside.polls + 1))).setup_eq.1
      rw [scripted_pass due outside goes, scripted_pass other outside goes]
      cases heard : (machine.receive (script (outside.polls + 1))).attempt with
      | error fault after => exact ⟨rfl, rfl, rfl⟩
      | ok answer after =>
          rw [Response.state_of_ok heard] at kept
          have stillFree : after.interval = Scalar.ofInt 0 := kept.trans free
          dsimp only
          split
          · exact ⟨rfl, rfl, rfl⟩
          · exact passAt_alike unhurried
              ⟨rfl, rfl, ⟨stillFree, isDue⟩, ⟨stillFree, otherIsDue⟩⟩

/-- A run comes to the same whenever its first slot is due. -/
theorem runFrom_alike (unhurried : Unhurried Time) (limit : Option Int) (passes : Nat)
    {first second : Running Time (Outside Time)} (alike : Alike first second) :
    runFrom (Host.scripted script) limit passes first =
      runFrom (Host.scripted script) limit passes second := by
  induction passes generalizing first second with
  | zero =>
      unfold runFrom
      rw [alike.machine, alike.world]
  | succ passes ih =>
      have same : (pass (Host.scripted script) limit first).Alike
          (pass (Host.scripted script) limit second) := pass_alike unhurried limit alike
      unfold runFrom
      generalize pass (Host.scripted script) limit first = passed at same
      generalize pass (Host.scripted script) limit second = other at same
      rcases passed with next | ⟨ending, machine, outside⟩
      · rcases other with otherNext | ⟨_, _, _⟩
        · exact ih same
        · cases same
      · rcases other with otherNext | ⟨_, _, _⟩
        · cases same
        · obtain ⟨rfl, rfl, rfl⟩ := same
          rfl

end Alike

/-! ### Passes to spare, and limits -/

section Limits

variable {World : Type} {host : Host Time World}

/-- A run that is over within some passes is so within more of them. -/
theorem runFrom_more {limit : Option Int} {passes more : Nat} {running : Running Time World}
    (isOver : (runFrom host limit passes running).ending ≠ .unfinished) (enough : passes ≤ more) :
    runFrom host limit more running = runFrom host limit passes running := by
  induction passes generalizing running more with
  | zero => exact absurd rfl isOver
  | succ passes ih =>
      obtain ⟨further, rfl⟩ : ∃ further, more = further + 1 := ⟨more - 1, by omega⟩
      unfold runFrom at isOver ⊢
      rcases led : pass host limit running with next | ⟨ending, machine, world⟩
      · rw [led] at isOver
        exact ih isOver (Nat.le_of_succ_le_succ enough)
      · rfl

omit [Scalar Time] in
theorem limitReached_mono {machine : Machine Time} {first second : Int} (order : first ≤ second)
    (below : machine.limitReached (some first) = false) :
    machine.limitReached (some second) = false := by
  have under := of_decide_eq_false below
  exact decide_eq_false fun reached => under (Int.le_trans order reached)

/-- A limit that is not reached has no part in a pass. -/
theorem pass_of_below {limit other : Option Int} {running : Running Time World}
    (below : running.machine.limitReached limit = false)
    (otherBelow : running.machine.limitReached other = false) :
    pass host limit running = pass host other running := by
  unfold pass
  simp only [below, otherBelow]

theorem pass_finished {limit : Option Int} {running : Running Time World}
    {machine : Machine Time} {world : World}
    (led : pass host limit running = .over .finished machine world)
    (below : running.machine.limitReached limit = false) : machine.halted = true := by
  obtain ⟨moments, contacts, passed, course⟩ := course_exists host limit running
  rw [course.sound.1] at led
  subst led
  refine course.finished.resolve_right ?_
  rw [below]
  exact fun ⟨reached, _⟩ => Bool.false_ne_true reached

theorem pass_stops {limit : Option Int} {running : Running Time World}
    (stops : (running.machine.halted || running.machine.limitReached limit) = true) :
    pass host limit running = .over .finished running.machine running.world := by
  unfold pass
  simp only [stops, ↓reduceIte]

end Limits

/-! ### Two runs -/

/-- A run to a first limit and, if it finishes, another one from there to a second limit. -/
def runTwice (host : Host Time World) (first second : Int) (passes more : Nat)
    (machine : Machine Time) (world : World) : Finished Time World :=
  let stopped := machine.run host (some first) passes world
  match stopped.ending with
  | .finished => stopped.machine.run host (some second) more stopped.world
  | _ => stopped

section Twice

variable {script : Nat → List Event} {first second : Int} {passes more : Nat}
  {running : Running Time (Outside Time)}

/-- Two runs, of which the first one is under way. -/
def twiceFrom (script : Nat → List Event) (first second : Int) (passes more : Nat)
    (running : Running Time (Outside Time)) : Finished Time (Outside Time) :=
  let stopped := runFrom (Host.scripted script) (some first) passes running
  match stopped.ending with
  | .finished =>
      runFrom (Host.scripted script) (some second) more
        ⟨stopped.machine, stopped.world.clock, stopped.world⟩
  | _ => stopped

/-- The first run stops where it is, and the second one goes on from there. -/
theorem twiceFrom_of_stops (unhurried : Unhurried Time) (onTime : OnTime running)
    (stops : (running.machine.halted || running.machine.limitReached (some first)) = true) :
    twiceFrom script first second (passes + 1) more running =
      runFrom (Host.scripted script) (some second) more running := by
  have stopped : runFrom (Host.scripted script) (some first) (passes + 1) running =
      ⟨.finished, running.machine, running.world⟩ := by
    rw [runFrom_of_over (pass_stops stops), scripted_settle]
  have alike : Alike ⟨running.machine, running.world.clock, running.world⟩ running :=
    ⟨rfl, rfl, ⟨onTime.free, unhurried.here _⟩, onTime⟩
  unfold twiceFrom
  simp only [stopped]
  exact runFrom_alike unhurried (some second) more alike

theorem twiceFrom_of_again {next : Running Time (Outside Time)}
    (led : pass (Host.scripted script) (some first) running = .again next) :
    twiceFrom script first second (passes + 1) more running =
      twiceFrom script first second passes more next := by
  unfold twiceFrom
  rw [runFrom_of_again led]

/-- When the first run is over, the second one does nothing: it finds a halted machine, or it is
not begun. Even to find that out it takes a pass. -/
theorem twiceFrom_of_over {ending : Ending} {machine : Machine Time} {outside : Outside Time}
    (led : pass (Host.scripted script) (some first) running = .over ending machine outside)
    (below : running.machine.limitReached (some first) = false) :
    twiceFrom script first second (passes + 1) more running = ⟨ending, machine, outside⟩ ∨
      more = 0 ∧
        (twiceFrom script first second (passes + 1) more running).ending = .unfinished := by
  have stopped : runFrom (Host.scripted script) (some first) (passes + 1) running =
      ⟨ending, machine, outside⟩ := by
    rw [runFrom_of_over led, scripted_settle]
  unfold twiceFrom
  simp only [stopped]
  cases ending with
  | finished =>
      have halted := pass_finished led below
      cases more with
      | zero => exact Or.inr ⟨rfl, rfl⟩
      | succ more =>
          left
          dsimp only
          rw [runFrom_of_over (pass_stops (by rw [halted, Bool.true_or])), scripted_settle]
  | _ => exact Or.inl rfl

theorem OnTime.next (unhurried : Unhurried Time) (onTime : OnTime running) {limit : Option Int}
    {next : Running Time (Outside Time)}
    (led : pass (Host.scripted script) limit running = .again next) : OnTime next := by
  have alike : (pass (Host.scripted script) limit running).Alike
      (pass (Host.scripted script) limit running) :=
    pass_alike unhurried limit ⟨rfl, rfl, onTime, onTime⟩
  rw [led] at alike
  exact alike.first

/-- What a single run comes to, two runs come to. -/
theorem twiceFrom_eq (unhurried : Unhurried Time) (order : first ≤ second)
    (onTime : OnTime running)
    (isOver : (runFrom (Host.scripted script) (some second) passes running).ending ≠ .unfinished)
    (enough : passes ≤ more) :
    twiceFrom script first second passes more running =
      runFrom (Host.scripted script) (some second) passes running := by
  -- Pass by pass the two runs are the single one, up to where the first of them stops.
  induction passes generalizing running with
  | zero => exact absurd rfl isOver
  | succ passes ih =>
      cases stops : running.machine.halted || running.machine.limitReached (some first) with
      | true => rw [twiceFrom_of_stops unhurried onTime stops, runFrom_more isOver enough]
      | false =>
          have below := (Bool.or_eq_false_iff.mp stops).2
          have same : pass (Host.scripted script) (some first) running =
              pass (Host.scripted script) (some second) running :=
            pass_of_below below (limitReached_mono order below)
          unfold runFrom at isOver ⊢
          rw [← same] at isOver ⊢
          rcases led : pass (Host.scripted script) (some first) running with
            next | ⟨ending, machine, outside⟩
          · rw [led] at isOver
            rw [twiceFrom_of_again led]
            exact ih (onTime.next unhurried led) isOver (Nat.le_of_succ_le enough)
          · have done : twiceFrom script first second (passes + 1) more running =
                ⟨ending, machine, outside⟩ :=
              (twiceFrom_of_over led below).resolve_right fun unbegun =>
                absurd unbegun.1 (by omega)
            rw [done]
            exact (scripted_settle ending machine outside).symm

/-- What two runs come to, a single run comes to. -/
theorem runFrom_eq (unhurried : Unhurried Time) (order : first ≤ second) (onTime : OnTime running)
    (isOver : (twiceFrom script first second passes more running).ending ≠ .unfinished) :
    runFrom (Host.scripted script) (some second) (passes + more) running =
      twiceFrom script first second passes more running := by
  induction passes generalizing running with
  | zero => exact absurd rfl isOver
  | succ passes ih =>
      cases stops : running.machine.halted || running.machine.limitReached (some first) with
      | true =>
          rw [twiceFrom_of_stops unhurried onTime stops] at isOver ⊢
          exact runFrom_more isOver (Nat.le_add_left _ _)
      | false =>
          have below := (Bool.or_eq_false_iff.mp stops).2
          have same : pass (Host.scripted script) (some first) running =
              pass (Host.scripted script) (some second) running :=
            pass_of_below below (limitReached_mono order below)
          rw [Nat.add_right_comm, runFrom, ← same]
          rcases led : pass (Host.scripted script) (some first) running with
            next | ⟨ending, machine, outside⟩
          · rw [twiceFrom_of_again led] at isOver ⊢
            exact ih (onTime.next unhurried led) isOver
          · rw [(twiceFrom_of_over led below).resolve_right fun unbegun => isOver unbegun.2]
            exact scripted_settle ending machine outside

end Twice

/-- Unthrottled runs compose, on exact and on binary time. Two runs in one scripted world, to a
limit and on to a later one, come to the same as a single run to the later limit: to the same fault
or the same end, with the same machine, the same number of polls and the same time on the clock,
and neither of them is over without the other. -/
theorem runs_compose :
    Unhurried ℚ ∧ Unhurried Float ∧
      (∀ {Time : Type} [Scalar Time] {settings : Settings} {program : List UInt8}
        {machine : Machine Time}, Reachable settings program machine → settings.speed ≤ 0 →
          machine.interval = Scalar.ofInt 0) ∧
      ∀ {Time : Type} [Scalar Time], Unhurried Time →
        ∀ (script : Nat → List Event) (first second : Int) (machine : Machine Time)
          (outside : Outside Time), first ≤ second → machine.interval = Scalar.ofInt 0 →
          ∀ finished : Finished Time (Outside Time), finished.ending ≠ .unfinished →
            ((∃ passes, machine.run (Host.scripted script) (some second) passes outside =
                finished) ↔
              ∃ passes more, machine.runTwice (Host.scripted script) first second passes more
                outside = finished) := by
  refine ⟨unhurried_exact, unhurried_binary64, ?_, ?_⟩
  · intro Time _ settings program machine reachable slow
    have given := reachable.intervals_eq.1
    unfold intervalOf at given
    rw [if_neg (not_lt.mpr slow)] at given
    exact (Except.ok.inj given).symm
  · intro Time _ unhurried script first second machine outside order free finished isOver
    have onTime : OnTime ⟨machine, outside.clock, outside⟩ := ⟨free, unhurried.here _⟩
    constructor
    · rintro ⟨passes, rfl⟩
      exact ⟨passes, passes, twiceFrom_eq unhurried order onTime isOver (Nat.le_refl _)⟩
    · rintro ⟨passes, more, rfl⟩
      exact ⟨passes + more, runFrom_eq unhurried order onTime isOver⟩

/-- The first run carries out a jump. The second one, like a single run, finds a breakpoint behind
it, naps there, and is quit. -/
theorem runs_compose_at_breakpoint :
    ∃ machine : Machine Rat,
      Machine.boot ⟨0, false, 0, [0x202], false, "twice"⟩ [0x12, 0x02] = .ok machine ∧
        let script : Nat → List Event := fun poll => if poll = 3 then [.quit] else []
        let stopped := machine.run (Host.scripted script) (some 1) 2 ⟨0, 5⟩
        let finished := machine.run (Host.scripted script) (some 7) 3 ⟨0, 5⟩
        (stopped.ending, stopped.machine.core.cycles, stopped.world.polls) = (.finished, 1, 1) ∧
          (finished.ending, finished.machine.paused, finished.world.polls, finished.world.clock) =
            (.finished, true, 3, 2501 / 500) ∧
          ∃ passes more,
            machine.runTwice (Host.scripted script) 1 7 passes more ⟨0, 5⟩ = finished := by
  obtain ⟨machine, booted⟩ : ∃ machine : Machine Rat,
      Machine.boot ⟨0, false, 0, [0x202], false, "twice"⟩ [0x12, 0x02] = .ok machine := ⟨_, rfl⟩
  have fetched := boot_fetch booted
  obtain ⟨timers, interval, memory, ticking, paced, _, same⟩ := boot_eq_ok_iff.mp booted
  cases ticking
  cases paced
  let core : Core := { Core.blank 0 false with memory }
  let moved : Core := (core.setCounter 0x202).counted
  have jumped : core.step = .ok true moved := by
    rw [same] at fetched
    have word : core.fetch = .ok (Instruction.jump 0x202).assemble := fetched
    exact Core.step_of_jump rfl word
  let caught : Machine Rat :=
    ⟨core, ⟨1 / 60, some 5⟩, 0, [0x202], false, false, false, false, none⟩
  let beyond : Machine Rat := caught.withCore moved
  have early : Scalar.less (5 : Rat) 5 = false := by decide +kernel
  have due : beyond.nextDue 5 5 = 5 := by
    change Scalar.later ((5 : Rat) + 0) (5 - Scalar.ratio 1 10) = 5
    decide +kernel
  have ticks : (1 / 60 : Rat) ≠ 0 := by decide +kernel
  let script : Nat → List Event := fun poll => if poll = 3 then [.quit] else []
  -- Neither limit is reached before the jump, so both runs begin with the same pass.
  have first : ∀ count : Int, 0 < count →
      pass (Host.scripted script) (some count) ⟨machine, 5, ⟨0, 5⟩⟩ =
        .again ⟨beyond, 5, ⟨1, 5⟩⟩ := by
    intro count positive
    have goes : (machine.halted || machine.limitReached (some count)) = false := by
      rw [same]
      exact decide_eq_false (not_le.mpr positive)
    have caughtUp : machine.catchUp 5 = .ok caught := by
      rw [same]
      rfl
    have awake : (Host.scripted script).performAll
        (.tone caught.core.registers.toneActive :: caught.slot.effects) ⟨1, 5⟩ = ⟨1, 5⟩ := by
      change (Host.scripted script).performAll caught.slot.effects ⟨1, 5⟩ = _
      exact Host.scripted_tell _ caught.slot_effects_tell
    have allowed : caught.ready.attempt = .ok true caught := rfl
    have passed : pass (Host.scripted script) (some count) ⟨machine, 5, ⟨0, 5⟩⟩ = _ :=
      pass_of_step goes rfl rfl caughtUp early allowed jumped
    rw [passed, awake, show caught.nextDue 5 5 = 5 from due]
    rfl
  have second : pass (Host.scripted script) (some 7) ⟨beyond, 5, ⟨1, 5⟩⟩ =
      .again ⟨{ beyond with paused := true }, 5, ⟨2, 2501 / 500⟩⟩ := by
    have caughtUp : beyond.catchUp 5 = .ok beyond := catchUp_again rfl ticks
    have clock : (5 : Rat) + idleDelay = 2501 / 500 := by decide +kernel
    change passAt (Host.scripted script) ⟨beyond, 5, ⟨2, 5⟩⟩ 5 = _
    rw [passAt_of_due _ caughtUp early, due, ← clock]
    rfl
  have third : pass (Host.scripted script) (some 7)
      ⟨{ beyond with paused := true }, 5, ⟨2, 2501 / 500⟩⟩ =
        .over .finished { beyond with paused := true, halted := true } ⟨3, 2501 / 500⟩ := rfl
  have stops : pass (Host.scripted script) (some 1) ⟨beyond, 5, ⟨1, 5⟩⟩ =
      .over .finished beyond ⟨1, 5⟩ := rfl
  have stopped : machine.run (Host.scripted script) (some 1) 2 ⟨0, 5⟩ =
      ⟨.finished, beyond, ⟨1, 5⟩⟩ := by
    change runFrom (Host.scripted script) (some 1) 2 ⟨machine, 5, ⟨0, 5⟩⟩ = _
    rw [runFrom_of_again (first 1 (by decide)), runFrom_of_over stops, scripted_settle]
  have finished : machine.run (Host.scripted script) (some 7) 3 ⟨0, 5⟩ =
      ⟨.finished, { beyond with paused := true, halted := true }, ⟨3, 2501 / 500⟩⟩ := by
    change runFrom (Host.scripted script) (some 7) 3 ⟨machine, 5, ⟨0, 5⟩⟩ = _
    rw [runFrom_of_again (first 7 (by decide)), runFrom_of_again second, runFrom_of_over third,
      scripted_settle]
  obtain ⟨exact, _, _, composes⟩ := runs_compose
  have free : machine.interval = Scalar.ofInt 0 := by rw [same]
  have isOver : (machine.run (Host.scripted script) (some 7) 3 ⟨0, 5⟩).ending ≠ .unfinished := by
    rw [finished]
    exact Ending.noConfusion
  have twice := (composes exact script 1 7 machine ⟨0, 5⟩ (by decide) free _ isOver).mp ⟨3, rfl⟩
  refine ⟨machine, booted, ?_, ?_, twice⟩
  · rw [stopped]
    rfl
  · rw [finished]

end Chip8.Machine
