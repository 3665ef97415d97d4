import Chip8.FrontEnd.Speaker
import Chip8.Proofs.Machine.Shown
import Chip8.Proofs.Machine.Tone
import Chip8.Scalar.Exact
import Mathlib.Data.List.Destutter

/-!
A machine with a speaker.

A speaker can be set up beside any host: it is given the tones of a run and nothing else, and its
commands are written down. It gives one command for each change of the tone, so they alternate, and
the sound plays exactly while the tone was set to on last. Since every run that ends turns the tone
off, no sound outlasts one, and the next run finds the speaker as the first one did.
-/

namespace Chip8

namespace FrontEnd

/-- What the speaker does when the tone changes. -/
def Command.ofTone (active : Bool) : Command :=
  if active then .play (-1) else .stop

theorem Command.ofTone_injective : Function.Injective Command.ofTone := by
  intro left right same
  cases left <;> cases right <;> first | rfl | cases same

/-- Whether a sound plays behind a command, given whether it did before. -/
def Command.sounding (before : Bool) : Command → Bool
  | .play _ => true
  | .stop => false
  | _ => before

theorem Speaker.eq_of_audible {Time : Type} [Scalar Time] {frequency : Int} {volume : Time}
    {speaker : Speaker} {making : List Command}
    (opened : ofTone frequency volume true = .ok (speaker, making)) : speaker = ⟨true, false⟩ := by
  obtain ⟨sound, _, same⟩ := of_bind_ok opened
  cases same
  rfl

/-- A speaker with the commands it has given, in order. -/
structure Loudspeaker where
  speaker : Speaker
  given : List Command

namespace Loudspeaker

def setTone (loudspeaker : Loudspeaker) (active : Bool) : Loudspeaker :=
  let (speaker, commands) := loudspeaker.speaker.setTone active
  ⟨speaker, loudspeaker.given ++ commands⟩

def perform {Time : Type} (loudspeaker : Loudspeaker) : Effect Time → Loudspeaker
  | .tone active => loudspeaker.setTone active
  | _ => loudspeaker

def sounding (loudspeaker : Loudspeaker) : Bool :=
  loudspeaker.given.foldl Command.sounding false

end Loudspeaker

/-! ### Sequences of tones -/

/-- What a speaker does that is set to one tone after another: a command for each change. -/
def changes (before : Bool) (tones : List Bool) : List Command :=
  (tones.destutter' (· ≠ ·) before).tail.map Command.ofTone

theorem destutter'_eq_cons (before : Bool) (tones : List Bool) :
    ∃ rest, tones.destutter' (· ≠ ·) before = before :: rest := by
  induction tones with
  | nil => exact ⟨[], rfl⟩
  | cons tone tones ih =>
      by_cases differs : before ≠ tone
      · exact ⟨_, List.destutter'_cons_pos _ differs⟩
      · rw [List.destutter'_cons_neg _ differs]
        exact ih

theorem changes_cons_same (before : Bool) (tones : List Bool) :
    changes before (before :: tones) = changes before tones := by
  unfold changes
  rw [List.destutter'_cons_neg _ (not_not.mpr rfl)]

theorem changes_cons_other {before tone : Bool} (other : before ≠ tone) (tones : List Bool) :
    changes before (tone :: tones) = .ofTone tone :: changes tone tones := by
  obtain ⟨rest, same⟩ := destutter'_eq_cons tone tones
  unfold changes
  rw [List.destutter'_cons_pos _ other, same]
  rfl

/-- The commands for a sequence of tones leave the sound as the last tone says. -/
theorem sounding_changes (before : Bool) (tones : List Bool) :
    (changes before tones).foldl Command.sounding before = tones.getLast?.getD before := by
  induction tones generalizing before with
  | nil => rfl
  | cons tone rest ih =>
      rw [List.getLast?_cons, Option.getD_some]
      by_cases same : before = tone
      · rw [← same, changes_cons_same]
        exact ih before
      · rw [changes_cons_other same, List.foldl_cons, ← ih tone]
        cases tone <;> rfl

theorem Loudspeaker.foldl_setTone (before : Bool) (given : List Command) (tones : List Bool) :
    tones.foldl setTone ⟨⟨true, before⟩, given⟩ =
      ⟨⟨true, tones.getLast?.getD before⟩, given ++ changes before tones⟩ := by
  induction tones generalizing before given with
  | nil => exact congrArg _ (List.append_nil given).symm
  | cons tone rest ih =>
      rw [List.foldl_cons, List.getLast?_cons, Option.getD_some]
      by_cases same : before = tone
      · have still : setTone ⟨⟨true, before⟩, given⟩ tone = ⟨⟨true, before⟩, given⟩ := by
          unfold setTone Speaker.setTone
          rw [if_pos same.symm]
          exact congrArg _ (List.append_nil given)
        rw [still, ih, ← same, changes_cons_same]
      · have changed : setTone ⟨⟨true, before⟩, given⟩ tone =
            ⟨⟨true, tone⟩, given ++ [.ofTone tone]⟩ := by
          unfold setTone Speaker.setTone
          rw [if_neg (Ne.symm same)]
          rfl
        rw [changed, ih, changes_cons_other same, List.append_assoc]
        rfl

/-- The commands alternate, and the first one is not what a tone as before would have led to. -/
theorem changes_alternate (before : Bool) (tones : List Bool) :
    (Command.ofTone before :: changes before tones).IsChain (· ≠ ·) := by
  obtain ⟨rest, same⟩ := destutter'_eq_cons before tones
  have chain := List.isChain_destutter' (· ≠ ·) tones before
  unfold changes
  rw [same] at chain ⊢
  exact List.isChain_map_of_isChain Command.ofTone (fun _ _ => Command.ofTone_injective.ne) chain

end FrontEnd

/-! ### Runs with a speaker -/

section Runs

open FrontEnd

variable {Time World : Type}

/-- A host with a speaker at its side. -/
def Host.withSpeaker (host : Host Time World) : Host Time (World × Loudspeaker) where
  poll := fun (world, loudspeaker) =>
    let (events, polled) := host.poll world
    (events, (polled, loudspeaker))
  readClock := fun (world, loudspeaker) =>
    let (reading, left) := host.readClock world
    (reading, (left, loudspeaker))
  perform := fun effect (world, loudspeaker) =>
    (host.perform effect world, loudspeaker.perform effect)

/-- The speaker is where the tones on record have brought it. -/
theorem Host.withSpeaker_keeps (host : Host Time World) (before : Loudspeaker) :
    host.withSpeaker.recorded.Keeps fun state =>
      state.1.2 = (state.2.filterMap Contact.tone?).foldl Loudspeaker.setTone before := by
  have follows : ∀ (contacts : List (Contact Time)) (contact : Contact Time),
      ((contacts ++ [contact]).filterMap Contact.tone?).foldl Loudspeaker.setTone before =
        contact.tone?.toList.foldl Loudspeaker.setTone
          ((contacts.filterMap Contact.tone?).foldl Loudspeaker.setTone before) := by
    intro contacts contact
    rw [List.filterMap_append, List.foldl_append, List.filterMap_cons]
    cases contact.tone? <;> rfl
  constructor
  · rintro ⟨⟨world, loudspeaker⟩, contacts⟩ so
    exact Eq.trans so (follows contacts (.poll (host.poll world).1)).symm
  · rintro ⟨⟨world, loudspeaker⟩, contacts⟩ so
    exact Eq.trans so (follows contacts (.reading (host.readClock world).1)).symm
  · rintro effect ⟨⟨world, loudspeaker⟩, contacts⟩ so
    change loudspeaker = _ at so
    have brought : loudspeaker.perform effect =
        effect.tone?.toList.foldl Loudspeaker.setTone loudspeaker := by
      cases effect <;> rfl
    rw [so] at brought
    exact Eq.trans (congrArg (Loudspeaker.perform · effect) so)
      (brought.trans (follows contacts (.effect effect)).symm)

variable [Scalar Time]

/-- A run leaves a speaker as the tones that it set do. -/
theorem Machine.run_loudspeaker (host : Host Time World) (limit : Option Int) (passes : Nat)
    (machine : Machine Time) (world : World) (before : Loudspeaker) :
    (machine.run host.withSpeaker limit passes (world, before)).world.2 =
      (machine.tones host.withSpeaker limit passes (world, before)).foldl
        Loudspeaker.setTone before := by
  let recorded := machine.run host.withSpeaker.recorded limit passes ((world, before), [])
  have kept : recorded.world.1.2 =
      (recorded.world.2.filterMap Contact.tone?).foldl Loudspeaker.setTone before :=
    (host.withSpeaker_keeps before).run limit passes machine rfl
  dsimp only [recorded] at kept
  rw [Machine.run_recorded] at kept
  exact kept

/-- Runs one after another, each of them over, that share a speaker: the tones that they set, and
how they leave the speaker. -/
inductive FrontEnd.Loudspeaker.Served (Time : Type) [Scalar Time] (start : Loudspeaker) :
    List Bool → Loudspeaker → Prop
  | fresh : Served Time start [] start
  | run {tones : List Bool} {left : Loudspeaker} {World : Type} (host : Host Time World)
      (limit : Option Int) (passes : Nat) (machine : Machine Time) (world : World) :
      Served Time start tones left →
        (machine.run host.withSpeaker limit passes (world, left)).ending ≠ .unfinished →
          Served Time start
            (tones ++ machine.tones host.withSpeaker limit passes (world, left))
            (machine.run host.withSpeaker limit passes (world, left)).world.2

theorem FrontEnd.Loudspeaker.Served.left_eq {tones : List Bool} {start left : Loudspeaker}
    (served : Served Time start tones left) :
    left = tones.foldl Loudspeaker.setTone start := by
  induction served with
  | fresh => rfl
  | run host limit passes machine world _ _ ih =>
      rw [Machine.run_loudspeaker, List.foldl_append, ← ih]

theorem getLast?_append_ne_true {earlier later : List Bool} (off : earlier.getLast? ≠ some true)
    (ends : later = [] ∨ later.getLast? = some false) :
    (earlier ++ later).getLast? ≠ some true := by
  rw [List.getLast?_append]
  rcases ends with rfl | ends
  · exact off
  · rw [ends, Option.some_or]
    decide

theorem FrontEnd.Loudspeaker.Served.off {tones : List Bool} {start left : Loudspeaker}
    (served : Served Time start tones left) : tones.getLast? ≠ some true := by
  induction served with
  | fresh => decide
  | run host limit passes machine world _ isOver ih =>
      exact getLast?_append_ne_true ih (Machine.last_tone_ne_true isOver)

/-- The tone of a run follows the sound timer: every pass whose timers caught up sets it to whether
the sound timer runs then, and it is off behind a run that is over. So a speaker that is set up
with a sound and shared by any number of runs gives one command for each change of the tone, plays
and stops in turn, plays between passes exactly when the tone was set to on last, and is silent
when a run is over. -/
theorem tone_follows_sound_timer :
    (∀ (host : Host Time World) (limit : Option Int) (passes : Nat) (machine : Machine Time)
        (world : World),
      let tones := machine.tones host limit passes world
      let finished := machine.run host limit passes world
      ((Machine.launch host machine world).1 = none → tones = []) ∧
        ((Machine.launch host machine world).1 ≠ none →
          tones = (machine.history host limit passes world).filterMap Moment.tone? ++
            Machine.closingTones finished.ending) ∧
        (finished.ending ≠ .unfinished → tones = [] ∨ tones.getLast? = some false)) ∧
      ∀ (frequency : Int) (volume : Time) (speaker : Speaker) (making : List Command),
        Speaker.ofTone frequency volume true = .ok (speaker, making) →
          ∀ (earlier : List Bool) (left : Loudspeaker),
            Loudspeaker.Served Time ⟨speaker, []⟩ earlier left →
              ∀ (host : Host Time World) (limit : Option Int) (passes : Nat)
                (machine : Machine Time) (world : World),
                let finished := machine.run host.withSpeaker limit passes (world, left)
                let tones := earlier ++ machine.tones host.withSpeaker limit passes (world, left)
                let given := finished.world.2.given
                given = changes false tones ∧
                  (∀ command ∈ given, command = .play (-1) ∨ command = .stop) ∧
                  given.IsChain (· ≠ ·) ∧ given.head? ≠ some .stop ∧
                  (finished.world.2.sounding = true ↔ tones.getLast? = some true) ∧
                  (finished.ending ≠ .unfinished → finished.world.2.sounding = false) := by
  constructor
  · intro host limit passes machine world tones finished
    refine ⟨?_, ?_, Machine.last_tone_ne_true⟩
    · intro interrupted
      rcases Machine.tones_eq host limit passes machine world with ⟨_, none⟩ | ⟨begun, _⟩
      · exact none
      · exact absurd interrupted begun
    · intro begun
      rcases Machine.tones_eq host limit passes machine world with ⟨never, _⟩ | ⟨_, told⟩
      · exact absurd never begun
      · exact told
  · intro frequency volume speaker making opened earlier left served host limit passes machine
      world finished tones given
    have reached : finished.world.2 =
        ⟨⟨true, tones.getLast?.getD false⟩, changes false tones⟩ :=
      calc finished.world.2
        _ = (machine.tones host.withSpeaker limit passes (world, left)).foldl
              Loudspeaker.setTone left := Machine.run_loudspeaker ..
        _ = tones.foldl Loudspeaker.setTone ⟨speaker, []⟩ := by
              rw [List.foldl_append, ← served.left_eq]
        _ = _ := by
              rw [Speaker.eq_of_audible opened]
              exact Loudspeaker.foldl_setTone false [] tones
    have commands : given = changes false tones := congrArg Loudspeaker.given reached
    have sounds : finished.world.2.sounding = tones.getLast?.getD false := by
      rw [reached]
      exact sounding_changes false tones
    have plays : finished.world.2.sounding = true ↔ tones.getLast? = some true := by
      rw [sounds]
      cases tones.getLast? with
      | none => decide
      | some tone => exact (Option.some_inj.trans Iff.rfl).symm
    have chain := changes_alternate false tones
    refine ⟨commands, ?_, ?_, ?_, plays, ?_⟩
    · intro command member
      rw [commands] at member
      obtain ⟨tone, _, rfl⟩ := List.mem_map.mp member
      cases tone with
      | true => exact Or.inl rfl
      | false => exact Or.inr rfl
    · rw [commands]
      exact chain.tail
    · rw [commands]
      exact fun first => (List.isChain_cons.mp chain).1 _ first rfl
    · intro isOver
      have off : tones.getLast? ≠ some true :=
        getLast?_append_ne_true served.off (Machine.last_tone_ne_true isOver)
      exact Bool.eq_false_iff.mpr fun on => off (plays.mp on)

/-- A machine that is paused while its sound timer runs beeps until the timer is through, and the
run is interrupted; when it is run anew, a key that does not exist ends the beep. -/
theorem tone_follows_sound_timer_while_paused :
    ∃ machine : Machine Rat,
      Machine.boot ⟨0, false, 0, [0x200], false, "beep"⟩ [0x12, 0x00] = .ok machine ∧
        ∃ (speaker : Speaker) (making : List Command),
          Speaker.ofTone 440 (1 / 4 : Rat) true = .ok (speaker, making) ∧
            let ringing := machine.withCore
              (machine.core.modifyRegisters fun registers => { registers with sound := 1 })
            let host : Host Rat (List (List Event) × List Rat) :=
              ⟨fun (polls, times) => (polls.head?.getD [], (polls.tail, times)),
                fun (polls, times) => (times.head?, (polls, times.tail)), fun _ world => world⟩
            let first := ringing.run host.withSpeaker none 4 (([], [0, 0, 1 / 60]), ⟨speaker, []⟩)
            let second := ringing.run host.withSpeaker none 4
              (([[], [.key 16 true]], [0, 0]), first.world.2)
            first.ending = .interrupted ∧ second.ending = .failed (.noSuchKey 16) ∧
              second.world.2.given = [.play (-1), .stop, .play (-1), .stop] ∧
              second.world.2.sounding = false := by
  let host : Host Rat (List (List Event) × List Rat) :=
    ⟨fun (polls, times) => (polls.head?.getD [], (polls.tail, times)),
      fun (polls, times) => (times.head?, (polls, times.tail)), fun _ world => world⟩
  let started : Except Fault (Machine Rat) :=
    Machine.boot ⟨0, false, 0, [0x200], false, "beep"⟩ [0x12, 0x00]
  obtain ⟨machine, booted⟩ : ∃ machine, started = .ok machine := ⟨_, rfl⟩
  have opens : (Speaker.ofTone 440 (1 / 4 : Rat) true).toBool = true := by decide +kernel
  obtain ⟨⟨speaker, making⟩, opened⟩ :
      ∃ sounding, Speaker.ofTone 440 (1 / 4 : Rat) true = .ok sounding := by
    cases made : Speaker.ofTone 440 (1 / 4 : Rat) true with
    | ok sounding => exact ⟨sounding, rfl⟩
    | error fault =>
        rw [made] at opens
        cases opens
  refine ⟨machine, booted, speaker, making, opened, ?_⟩
  have runs : (started.toOption.map fun machine =>
      let ringing := machine.withCore
        (machine.core.modifyRegisters fun registers => { registers with sound := 1 })
      let first := ringing.run host.withSpeaker none 4
        (([], [0, 0, 1 / 60]), ⟨⟨true, false⟩, []⟩)
      (first.ending, ringing.tones host.withSpeaker none 4
          (([], [0, 0, 1 / 60]), ⟨⟨true, false⟩, []⟩),
        (ringing.run host.withSpeaker none 4
          (([[], [.key 16 true]], [0, 0]), first.world.2)).ending,
        ringing.tones host.withSpeaker none 4
          (([[], [.key 16 true]], [0, 0]), first.world.2))) =
      some (.interrupted, [true, false, false], .failed (.noSuchKey 16), [true, false]) := by
    decide +kernel
  rw [booted, ← Speaker.eq_of_audible opened] at runs
  obtain ⟨interrupted, beeps, failed, again⟩ : _ ∧ _ ∧ _ ∧ _ := by
    simpa only [Prod.mk.injEq] using Option.some.inj runs
  intro ringing host first second
  have earlier : Loudspeaker.Served Rat ⟨speaker, []⟩ _ first.world.2 :=
    .run host none 4 ringing _ .fresh (interrupted.trans_ne Ending.noConfusion)
  have follows := tone_follows_sound_timer.2 440 (1 / 4 : Rat) speaker making opened _ _ earlier
    host none 4 ringing ([[], [.key 16 true]], [0, 0])
  obtain ⟨given, _, _, _, _, off⟩ := follows
  refine ⟨interrupted, failed, given.trans ?_, off (failed.trans_ne Ending.noConfusion)⟩
  exact congrArg (changes false) (congr (congrArg List.append beeps) again)

end Runs

end Chip8
