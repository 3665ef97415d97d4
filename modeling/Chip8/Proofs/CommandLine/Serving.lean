import Chip8.CommandLine.Session
import Chip8.Proofs.FrontEnd.Closing
import Chip8.Proofs.FrontEnd.KeyHistory
import Chip8.Proofs.Machine.Ending
import Chip8.Proofs.Machine.Shown

/-!
Sessions and their front ends.

A console hands a run nothing but keys of the keypad, and asks its front end for nothing but
polls, frames and tones. So when the run is over, however it ends, the front end has been used
and has not been closed; the session closes it then, and does nothing else with it.
-/

namespace Chip8

/-! ### The console as a host -/

namespace FrontEnd.Keyboard

theorem translate_onKeypad (input : InputEvent) : ∀ event ∈ translate input, event.OnKeypad := by
  have reads := reads_translate input
  generalize translate input = requests at reads ⊢
  cases reads with
  | key key named =>
      have inside : (key.val : Int) < 16 := by omega
      exact List.forall_mem_singleton.mpr ⟨Int.natCast_nonneg key.val, inside⟩
  | quit | step | resume => exact List.forall_mem_singleton.mpr trivial
  | nothing idle => exact List.forall_mem_nil _

theorem translateAll_onKeypad (batch : List InputEvent) :
    ∀ event ∈ translateAll batch, event.OnKeypad := by
  intro event member
  obtain ⟨input, _, translated⟩ := List.mem_flatMap.mp member
  exact translate_onKeypad input event translated

end FrontEnd.Keyboard

namespace CommandLine

variable {Time Clock : Type}

/-- A console with a front end, or none, that has only been used since it was built: nothing of
it has been closed. -/
def Console.Serves (built : Option FrontEnd) (console : Console Clock) : Prop :=
  ∃ uses, (∀ call ∈ uses, ¬ call.Closes) ∧ console.frontEnd = built.map (·.useAll uses)

theorem Console.Serves.use {built : Option FrontEnd} {console : Console Clock}
    (serves : console.Serves built) {call : FrontEnd.Call} (keeps : ¬ call.Closes) :
    (console.changeFrontEnd (·.use call)).Serves built := by
  obtain ⟨uses, keep, used⟩ := serves
  refine ⟨uses ++ [call], ?_, ?_⟩
  · exact List.forall_mem_append.mpr ⟨keep, List.forall_mem_singleton.mpr keeps⟩
  · change console.frontEnd.map _ = _
    rw [used]
    cases built with
    | none => rfl
    | some frontEnd => exact congrArg some (frontEnd.useAll_concat uses call).symm

theorem Console.host_keeps (source : ClockSource Time Clock) (built : Option FrontEnd) :
    (host source).Keeps (Serves built) where
  poll console serves := by
    have keeps : ¬ FrontEnd.Call.poll.Closes := not_false
    have polled := serves.use keeps
    change (Console.poll console).2.Serves built
    unfold Console.poll
    unfold changeFrontEnd at polled
    cases isOpen : console.frontEnd with
    | none => exact serves
    | some frontEnd =>
        rw [isOpen] at polled
        exact polled
  readClock _ serves := serves
  perform effect console serves := by
    cases effect with
    | log record => exact serves
    | sleep duration => exact serves
    | render frame =>
        have keeps : ¬ (FrontEnd.Call.render frame).Closes := not_false
        exact serves.use keeps
    | tone active =>
        have keeps : ¬ (FrontEnd.Call.setTone active).Closes := not_false
        exact serves.use keeps

theorem Console.host_onKeypad (source : ClockSource Time Clock) (console : Console Clock) :
    ∀ event ∈ ((host source).poll console).1, event.OnKeypad := by
  change ∀ event ∈ (Console.poll console).1, _
  unfold Console.poll
  cases console.frontEnd with
  | none => exact List.forall_mem_nil _
  | some frontEnd =>
      dsimp only
      unfold FrontEnd.poll
      split
      · exact List.forall_mem_nil _
      · exact FrontEnd.Keyboard.translateAll_onKeypad _

/-! ### How sessions end -/

/-- A conclusion tells all that a front end was asked to do, and all the commands that it gave;
nothing of either without a front end. -/
def Conclusion.TellsOf (frontEnd : Option FrontEnd) (conclusion : Conclusion) : Prop :=
  conclusion.calls = (frontEnd.map FrontEnd.calls).getD [] ∧
    conclusion.commands = (frontEnd.map FrontEnd.commands).getD []

theorem conclude_tellsOf (options : Options) (console : Console Clock) (status : Status)
    (output : String) :
    (conclude options console status output).TellsOf console.frontEnd :=
  ⟨rfl, rfl⟩

namespace Session

theorem refuse_tellsOf (options : Options) (console : Console Clock) (fault : Fault) :
    (refuse options console fault).TellsOf console.frontEnd := by
  unfold refuse
  split <;> exact conclude_tellsOf options _ _ _

theorem refuse_status (options : Options) (console : Console Clock) (fault : Fault) :
    (refuse options console fault).status =
      if fault.isMachineFault then .exit exitProgram else .raised fault := by
  unfold refuse
  split <;> rfl

/-- A run that is over closes its front end, and nothing comes behind the closing. -/
theorem finish_tellsOf {session : Session Time Clock}
    {finished : Machine.Finished Time (Console Clock)}
    (ended : (session.finish finished).status ≠ .running) :
    (session.finish finished).TellsOf (finished.world.frontEnd.map FrontEnd.close) := by
  unfold finish at ended ⊢
  cases how : finished.ending with
  | finished => exact conclude_tellsOf _ finished.world.close _ _
  | interrupted => exact conclude_tellsOf _ (finished.world.tell _).close _ _
  | failed fault =>
      dsimp only
      split
      · exact conclude_tellsOf _ (finished.world.tell _).close _ _
      · exact conclude_tellsOf _ finished.world.close _ _
  | unfinished =>
      rw [how] at ended
      exact absurd rfl ended

variable [Scalar Time]

theorem run_eq_finish (source : ClockSource Time Clock) (passes : Nat)
    (session : Session Time Clock) {built : Option FrontEnd}
    (serves : session.console.Serves built) :
    ∃ finished, session.run source passes = session.finish finished ∧
      finished.world.Serves built := by
  have keeps := Console.host_keeps source built
  unfold Session.run
  cases session.limit with
  | ok limit => exact ⟨_, rfl, keeps.run limit passes session.machine serves⟩
  | error fault => exact ⟨_, rfl, keeps.abort fault session.machine serves⟩

/-- However a session ends, its front end has been used, and then closed. -/
theorem run_tellsOf {source : ClockSource Time Clock} {passes : Nat}
    {session : Session Time Clock} {built : Option FrontEnd}
    (serves : session.console.Serves built)
    (ended : (session.run source passes).status ≠ .running) :
    ∃ uses, (∀ call ∈ uses, ¬ call.Closes) ∧ (session.run source passes).TellsOf
      (built.map fun frontEnd => (frontEnd.useAll uses).close) := by
  obtain ⟨finished, left, uses, keep, used⟩ := run_eq_finish source passes session serves
  rw [left] at ended ⊢
  refine ⟨uses, keep, ?_⟩
  have told := finish_tellsOf ended
  rw [used, Option.map_map] at told
  exact told

end Session

end CommandLine

end Chip8
