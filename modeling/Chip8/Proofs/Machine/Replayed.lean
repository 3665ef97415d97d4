import Chip8.Host.Rehearsal
import Chip8.Proofs.Machine.Binary64
import Chip8.Proofs.Timers.Exact

/-!
Runs replayed.

What a run did to the core can be done again without a clock, a breakpoint or a pause, and comes
to the same. If the run failed, the replay fails in its last act with the same fault. The one
fault that no act shows is that of a clock whose readings lie too far apart for the ticks between
them to be counted. With exact time there is none such, and with binary time there is none while
the readings have a moderate size.
-/

namespace Chip8

variable {Time World : Type} [Scalar Time]

/-- The timers of a machine never fail while they are updated at fair times. -/
def Timers.Reliable (fair : Time → Prop) : Prop :=
  ∃ steady : Timers Time → Prop, Lasting steady fair ∧
    ∀ timers, ofRate (Scalar.ofInt Layout.timerRate) = .ok timers → steady timers

/-- With exact time they can be updated at any time. -/
theorem Timers.reliable_exact : Reliable fun _ : ℚ => True := by
  refine ⟨fun timers => timers.interval ≠ 0, ?_, ?_⟩
  · intro timers registers now ticking _
    obtain ⟨due, next, left, updated⟩ := update_exact_ok ticking registers now
    exact ⟨due, next, left, updated, (update_interval updated).trans_ne ticking⟩
  · intro timers made
    rw [ofRate_timerRate] at made
    cases made
    exact one_div_ne_zero (by norm_num)

theorem Timers.reliable_binary64 : Reliable (Binary64.Within 1000) := by
  refine ⟨Steady 1000, steady_lasting (by norm_num) (by norm_num), ?_⟩
  intro timers made
  obtain ⟨found, ticking, steady⟩ := ofRate_steady 1000
  rw [ticking] at made
  cases made
  exact steady

section Played

variable {settings : Settings} {program : List UInt8} {moments : List (Moment Time)}
  {machine : Machine Time}

/-- While they are updated at fair times, the timers of a machine that is run never fail. -/
theorem Played.catchUp_fair (played : Played settings program moments machine)
    {fair : Time → Prop} (reliable : Timers.Reliable fair) (fairly : FairlyTimed fair moments) :
    ∀ moment ∈ moments, ∀ now, moment.action = .update now →
      ∀ fault, moment.machine.catchUp now ≠ .error fault := by
  obtain ⟨steady, lasting, begins⟩ := reliable
  obtain ⟨start, started, trail⟩ := played.trail
  have sound : start.Sound steady := by
    refine ⟨Machine.boot_wellFormed started, ?_⟩
    obtain ⟨timers, _, _, ticking, _, _, rfl⟩ := Machine.boot_eq_ok_iff.mp started
    exact begins timers ticking
  intro moment member now isUpdate fault failed
  have isFair := fairly moment member now isUpdate
  rw [((trail.sound lasting fairly sound moment member).catchUp lasting isFair).1] at failed
  cases failed

/-- Debugging, pacing and polling have no part in what a program computes. However many runs
a machine has been through, their record replayed on a machine without breakpoints goes the
same way and ends with the same core. A run that failed did so in the last act of the record
and in none before, unless it was the clock that failed, which no act shows; and a clock that
reads fair times never does. A run that did not fail has no failure in its record. -/
theorem Played.run_replayed (played : Played settings program moments machine)
    (host : Host Time World) (limit : Option Int) (passes : Nat) (world : World) :
    Timers.Reliable (fun _ : ℚ => True) ∧ Timers.Reliable (Binary64.Within 1000) ∧
      ∃ fresh : Machine Time, Machine.boot { settings with breakpoints := [] } program = .ok fresh ∧
        let finished := machine.run host limit passes world
        let latest := machine.history host limit passes world
        let record := recordOf (moments ++ latest)
        let replayed := fresh.replay (record.map Prod.fst)
        replayed.1 = record.map Prod.snd ∧ replayed.2.core = finished.machine.core ∧
          ((∀ fault, finished.ending ≠ .failed fault) → AllWell (recordOf latest)) ∧
          ∀ fault, finished.ending = .failed fault →
            ((replayed.1.getLast? = some (.error fault) ∧ AllWell (recordOf latest).dropLast) ∨
              (AllWell (recordOf latest) ∧ ∃ last now, latest.getLast? = some last ∧
                last.action = .update now ∧ last.machine.catchUp now = .error fault)) ∧
            ∀ fair, Timers.Reliable fair → FairlyTimed fair (moments ++ latest) →
              replayed.1.getLast? = some (.error fault) := by
  have all := Played.run host limit passes world played
  obtain ⟨fresh, startedAfresh, told⟩ := all.tells
  refine ⟨Timers.reliable_exact, Timers.reliable_binary64, fresh, startedAfresh, ?_⟩
  intro finished latest record replayed
  have comes := Machine.history_comesTo host limit passes machine world
  change ComesTo latest finished.ending.fault? at comes
  have whole : replayed = (record.map Prod.snd, fresh.withCore finished.machine.core) := by
    change fresh.replay (record.map Prod.fst) = _
    rw [Machine.replay_eq, told]
  have results : replayed.1 = record.map Prod.snd := by rw [whole]
  have core : replayed.2.core = finished.machine.core := by
    rw [whole]
    rfl
  refine ⟨results, core, ?_, ?_⟩
  · intro unfailed
    refine AllWell.of_passes ?_
    cases how : finished.ending with
    | failed fault => exact absurd how (unfailed fault)
    | finished | interrupted | unfinished =>
        rw [how] at comes
        exact comes
  · intro fault failed
    rw [failed] at comes
    rw [results]
    rcases comes.recorded with ⟨earlier, act, recorded, well⟩ | ⟨well, last, now, clock⟩
    · have isLast : (record.map Prod.snd).getLast? = some (.error fault) := by
        have split : record = recordOf moments ++ (earlier ++ [(act, .error fault)]) := by
          rw [← recorded]
          exact List.flatMap_append
        rw [split, ← List.append_assoc, List.map_append]
        exact List.getLast?_concat
      refine ⟨Or.inl ⟨isLast, ?_⟩, fun _ _ _ => isLast⟩
      rw [recorded, List.dropLast_concat]
      exact well
    · refine ⟨Or.inr ⟨well, last, now, clock⟩, ?_⟩
      intro fair reliable fairly
      obtain ⟨isLast, isUpdate, failedClock⟩ := clock
      have member := List.mem_append_right moments (List.mem_of_getLast? isLast)
      exact absurd failedClock (all.catchUp_fair reliable fairly last member now isUpdate fault)

/-- Two runs that a breakpoint divides, at one pass each tenth of a second. -/
theorem run_replayed_past_breakpoint :
    ∃ machine fresh : Machine Rat,
      Machine.boot ⟨700, false, 0, [0x202], false, "pair"⟩ [0x60, 0x01, 0x61, 0x02] = .ok machine ∧
        Machine.boot ⟨700, false, 0, [], false, "pair"⟩ [0x60, 0x01, 0x61, 0x02] = .ok fresh ∧
        let host := Rehearsal.host (fun poll => if poll = 4 then [.resume] else [])
          (fun _ notes => notes)
        let world : Rehearsal Rat Unit := ⟨.startingAt 0 (1 / 10) none, 0, ()⟩
        let first := machine.run host none 3 world
        let second := first.machine.run host none 3 first.world
        let record := recordOf (machine.history host none 3 world ++
          first.machine.history host none 3 first.world)
        (fresh.replay (record.map Prod.fst)).1 = record.map Prod.snd ∧
          (fresh.replay (record.map Prod.fst)).2.core = second.machine.core := by
  obtain ⟨machine, started⟩ : ∃ machine : Machine Rat,
      Machine.boot ⟨700, false, 0, [0x202], false, "pair"⟩ [0x60, 0x01, 0x61, 0x02] =
        .ok machine := ⟨_, rfl⟩
  let host : Host Rat (Rehearsal Rat Unit) :=
    Rehearsal.host (fun poll => if poll = 4 then [.resume] else []) (fun _ notes => notes)
  let world : Rehearsal Rat Unit := ⟨.startingAt 0 (1 / 10) none, 0, ()⟩
  have earlier := Played.run host none 3 world (.boot started)
  obtain ⟨_, _, fresh, startedAfresh, went, reached, _⟩ :=
    Played.run_replayed earlier host none 3 (machine.run host none 3 world).world
  exact ⟨machine, fresh, started, startedAfresh, went, reached⟩

/-- A clock that moves on by so much between two readings that no binary number counts the
ticks makes a run fail. The replay does not, since there is nothing to be replayed. -/
theorem run_fails_beyond_all_acts :
    ∃ machine fresh : Machine Float,
      Machine.boot ⟨500, false, 0, [0x200], false, "loop"⟩ [0x12, 0x00] = .ok machine ∧
        Machine.boot ⟨500, false, 0, [], false, "loop"⟩ [0x12, 0x00] = .ok fresh ∧
        let host := Rehearsal.host (fun _ => []) (fun _ notes => notes)
        let far : Float := Scalar.ofInt (2 ^ 1019)
        let world : Rehearsal Float Unit := ⟨.startingAt (-far) far none, 0, ()⟩
        let record := recordOf (machine.history host none 2 world)
        (machine.run host none 2 world).ending = .failed .tooLarge ∧
          ∀ result ∈ (fresh.replay (record.map Prod.fst)).1, ∀ fault, result ≠ .error fault := by
  let boots (breakpoints : List Int) : Except Fault (Machine Float) :=
    Machine.boot ⟨500, false, 0, breakpoints, false, "loop"⟩ [0x12, 0x00]
  let host : Host Float (Rehearsal Float Unit) :=
    Rehearsal.host (fun _ => []) (fun _ notes => notes)
  let far : Float := Scalar.ofInt (2 ^ 1019)
  let world : Rehearsal Float Unit := ⟨.startingAt (-far) far none, 0, ()⟩
  have starts : ∀ breakpoints, ∃ machine, boots breakpoints = .ok machine := by
    intro breakpoints
    have small : (Settings.mk 500 false 0 breakpoints false "loop").speed < 2 ^ 1000 :=
      Machine.defaultSpeed_small
    rcases Machine.boot_cases small [0x12, 0x00] with ⟨_, machine, started, _⟩ | ⟨long, _⟩
    · exact ⟨machine, started⟩
    · exact absurd long (by decide)
  obtain ⟨machine, started⟩ := starts [0x200]
  obtain ⟨fresh, startedAfresh⟩ := starts []
  have ran : ((boots [0x200]).toOption.map fun machine =>
      ((machine.run host none 2 world).ending,
        (recordOf (machine.history host none 2 world)).length)) =
        some (.failed .tooLarge, 0) := by
    decide +kernel
  rw [started] at ran
  obtain ⟨ending, count⟩ := Prod.mk.inj (Option.some.inj ran)
  refine ⟨machine, fresh, started, startedAfresh, ending, ?_⟩
  have nothing : recordOf (machine.history host none 2 world) = [] :=
    List.length_eq_zero_iff.mp count
  intro result member
  change result ∈ (fresh.replay ((recordOf (machine.history host none 2 world)).map _)).1 at member
  rw [nothing] at member
  cases member

end Played

end Chip8
