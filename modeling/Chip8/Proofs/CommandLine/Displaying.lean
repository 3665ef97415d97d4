import Chip8.Proofs.CommandLine.Serving
import Chip8.Proofs.FrontEnd.Exhibit

/-!
What a session shows.

The front end of a session is its window and its speaker in one, so the commands of the window
stand among others that draw nothing. Its window is in step with the machine all the same: when
a session is left, the commands that it gave have drawn the screen that the machine was left
with.
-/

namespace Chip8

namespace FrontEnd

variable {frontEnd : FrontEnd} {scale : Int} {screen : Screen}

/-- A front end whose window is in step with all of its commands. -/
def InStep (scale : Int) (frontEnd : FrontEnd) (screen : Screen) : Prop :=
  frontEnd.window.InStep scale frontEnd.commands screen

theorem InStep.give (inStep : frontEnd.InStep scale screen) (magnified : 1 ≤ scale)
    {commands : List Command}
    (below : ∀ command ∈ commands, command.Below (Layout.displayHeight * scale)) :
    (frontEnd.give commands).InStep scale screen := by
  unfold InStep
  rw [frontEnd.commands_give]
  exact Window.InStep.append inStep magnified below

theorem InStep.note (inStep : frontEnd.InStep scale screen) (call : Call) :
    (frontEnd.note call).InStep scale screen :=
  inStep

theorem InStep.render (inStep : frontEnd.InStep scale screen) (magnified : 1 ≤ scale)
    (frame : Frame) : (frontEnd.render frame).InStep scale frame.screen := by
  obtain ⟨next, rendered, still⟩ :=
    Window.InStep.render inStep magnified frame.screen (some frame.registers)
  unfold FrontEnd.render
  simp only [rendered]
  have given := (frontEnd.note (.render frame)).commands_give
    (frontEnd.window.render frame.screen (some frame.registers)).commands
  change Window.InStep scale next (FrontEnd.commands _) frame.screen
  exact given.symm ▸ still

theorem setTone_below (speaker : Speaker) (active : Bool) (height : Int) :
    ∀ command ∈ (speaker.setTone active).2, command.Below height := by
  intro command member
  unfold Speaker.setTone at member
  split at member
  · cases member
  · dsimp only at member
    split at member
    · rw [List.mem_singleton.mp member]
      split <;> exact trivial
    · cases member

theorem InStep.setTone (inStep : frontEnd.InStep scale screen) (magnified : 1 ≤ scale)
    (active : Bool) : (frontEnd.setTone active).InStep scale screen :=
  (inStep.note (.setTone active)).give magnified (setTone_below frontEnd.speaker active _)

theorem InStep.poll (inStep : frontEnd.InStep scale screen) :
    frontEnd.poll.2.InStep scale screen := by
  unfold FrontEnd.poll
  split <;> exact inStep

theorem closeCommands_below (frontEnd : FrontEnd) (part : Collaborator) (height : Int) :
    ∀ command ∈ frontEnd.closeCommands part, command.Below height := by
  cases part with
  | input => exact List.forall_mem_nil _
  | renderer => exact List.forall_mem_singleton.mpr trivial
  | speaker =>
      unfold closeCommands Speaker.closeCommands
      dsimp only
      split
      · exact List.forall_mem_cons.mpr ⟨trivial, List.forall_mem_singleton.mpr trivial⟩
      · exact List.forall_mem_nil _

theorem InStep.closePart (inStep : frontEnd.InStep scale screen) (magnified : 1 ≤ scale)
    (part : Collaborator) : (frontEnd.closePart part).InStep scale screen :=
  (inStep.note (.close part)).give magnified (closeCommands_below frontEnd part _)

theorem InStep.close (inStep : frontEnd.InStep scale screen) (magnified : 1 ≤ scale) :
    frontEnd.close.InStep scale screen :=
  ((inStep.closePart magnified .input).closePart magnified .speaker).closePart magnified .renderer

theorem ofTone_below {Time : Type} [Scalar Time] {frequency : Int} {volume : Time} {device : Bool}
    {speaker : Speaker} {commands : List Command}
    (toned : Speaker.ofTone frequency volume device = .ok (speaker, commands)) (height : Int) :
    ∀ command ∈ commands, command.Below height := by
  unfold Speaker.ofTone at toned
  split at toned
  · obtain ⟨sound, _, same⟩ := of_bind_ok toned
    cases same
    exact List.forall_mem_cons.mpr ⟨trivial, List.forall_mem_singleton.mpr trivial⟩
  · cases toned
    exact List.forall_mem_singleton.mpr trivial

/-- A front end that has just been opened shows a dark screen. -/
theorem ofScale_inStep {Time : Type} [Scalar Time] {equipment : Equipment} {volume : Time}
    (magnified : 1 ≤ scale) (spaced : 0 ≤ equipment.lineHeight)
    (made : ofScale scale equipment volume = .ok frontEnd) :
    frontEnd.InStep scale Display.dark := by
  obtain ⟨⟨speaker, sounds⟩, toned, same⟩ := of_bind_ok made
  cases same
  have opened := Window.InStep.opened magnified spaced defaultCaption
  have keyboard : ∀ command ∈ Keyboard.openCommands,
      command.Below (Layout.displayHeight * scale) := List.forall_mem_singleton.mpr trivial
  have all := (opened.append magnified (ofTone_below toned _)).append magnified keyboard
  unfold InStep FrontEnd.commands
  rw [List.reverse_reverse]
  exact all

end FrontEnd

namespace CommandLine

variable {Time Clock : Type}

/-- A console whose front end shows a screen. -/
def Console.Displays (scale : Int) (screen : Screen) (console : Console Clock) : Prop :=
  ∃ frontEnd, console.frontEnd = some frontEnd ∧ frontEnd.InStep scale screen

theorem Console.host_displays (source : ClockSource Time Clock) {scale : Int}
    (magnified : 1 ≤ scale) : (host source).Displays (Console.Displays scale) where
  poll screen console before := by
    obtain ⟨frontEnd, isOpen, inStep⟩ := before
    refine ⟨frontEnd.poll.2, ?_, inStep.poll⟩
    change (Console.poll console).2.frontEnd = _
    unfold Console.poll
    rw [isOpen]
  readClock _ _ before := before
  perform screen effect console before := by
    obtain ⟨frontEnd, isOpen, inStep⟩ := before
    cases effect with
    | log record => exact ⟨frontEnd, isOpen, inStep⟩
    | sleep duration => exact ⟨frontEnd, isOpen, inStep⟩
    | render frame =>
        refine ⟨frontEnd.render frame, ?_, inStep.render magnified frame⟩
        exact congrArg (Option.map fun shown : FrontEnd => shown.render frame) isOpen
    | tone active =>
        refine ⟨frontEnd.setTone active, ?_, inStep.setTone magnified active⟩
        exact congrArg (Option.map fun shown : FrontEnd => shown.setTone active) isOpen

namespace Session

/-- Closing a front end draws nothing more. -/
theorem finish_shows {session : Session Time Clock}
    {finished : Machine.Finished Time (Console Clock)} {scale : Int} (magnified : 1 ≤ scale)
    {screen : Screen} (displays : finished.world.Displays scale screen) (ink : FrontEnd.Ink)
    (canvas : FrontEnd.Canvas) :
    (canvas.paintAll ink (session.finish finished).commands).Shows scale screen := by
  obtain ⟨frontEnd, isOpen, inStep⟩ := displays
  by_cases ended : (session.finish finished).status = .running
  · have same : (session.finish finished).commands = frontEnd.commands := by
      unfold finish at ended ⊢
      cases how : finished.ending with
      | unfinished =>
          change (finished.world.frontEnd.map FrontEnd.commands).getD [] = _
          rw [isOpen]
          rfl
      | finished | interrupted =>
          rw [how] at ended
          cases ended
      | failed fault =>
          rw [how] at ended
          dsimp only at ended
          split at ended <;> cases ended
    rw [same]
    exact inStep.shows ink canvas
  · rw [(finish_tellsOf ended).2, isOpen]
    exact (inStep.close magnified).shows ink canvas

variable [Scalar Time]

theorem openScaled_displays {scale : Int} (magnified : 1 ≤ scale) {equipment : Equipment}
    (spaced : 0 ≤ equipment.lineHeight) {console equipped : Console Clock}
    (opened : openScaled Time scale equipment console = .ok equipped) :
    equipped.Displays scale Display.dark := by
  unfold openScaled at opened
  dsimp only at opened
  split at opened
  · cases opened
  · split at opened
    · cases opened
    · next frontEnd made =>
        cases opened
        exact ⟨frontEnd, rfl, FrontEnd.ofScale_inStep magnified spaced made⟩

/-- What a session is opened with, if it gets to a machine. -/
theorem of_openMachine_ready {options : Options} {path : String} {program : List UInt8}
    {seed : Int} {console : Console Clock} {session : Session Time Clock}
    (ready : openMachine options path program seed console = .ready session) :
    session.options = options ∧ session.console.frontEnd = console.frontEnd := by
  unfold openMachine at ready
  split at ready
  · cases ready
  · dsimp only at ready
    split at ready
    · cases ready
    · cases ready
      exact ⟨rfl, rfl⟩

theorem openProgram_displays {options : Options} {path : String} {program : List UInt8}
    {surroundings : Surroundings Clock} {console : Console Clock} {session : Session Time Clock}
    (ready : openProgram options path program surroundings console = .ready session)
    (windowed : session.options.headless = false) {scale : Int}
    (scaled : session.options.scale = some scale) (magnified : 1 ≤ scale)
    (spaced : 0 ≤ surroundings.equipment.lineHeight) :
    session.console.Displays scale Display.dark := by
  unfold openProgram at ready
  split at ready
  · cases ready
  · cases opened : openFrontEnd Time options surroundings.equipment console with
    | error failure =>
        rw [opened] at ready
        cases ready
    | ok equipped =>
        rw [opened] at ready
        obtain ⟨same, kept⟩ := of_openMachine_ready ready
        rw [same] at windowed scaled
        unfold openFrontEnd at opened
        rw [windowed, if_neg Bool.false_ne_true, scaled] at opened
        unfold Console.Displays
        rw [kept]
        exact openScaled_displays magnified spaced opened

/-- A session with a window begins with a dark screen. -/
theorem start_displays {arguments : List String} {surroundings : Surroundings Clock}
    {session : Session Time Clock} (ready : start arguments surroundings = .ready session)
    (windowed : session.options.headless = false) {scale : Int}
    (scaled : session.options.scale = some scale) (magnified : 1 ≤ scale)
    (spaced : 0 ≤ surroundings.equipment.lineHeight) :
    session.console.Displays scale Display.dark := by
  unfold start at ready
  split at ready
  · cases ready
  · unfold openOptions at ready
    split at ready
    · cases ready
    · dsimp only at ready
      split at ready
      · cases ready
      · exact openProgram_displays ready windowed scaled magnified spaced

end Session

variable [Scalar Time]

/-- What the run of a session left before the session was finished. -/
def Session.finished (source : ClockSource Time Clock) (passes : Nat)
    (session : Session Time Clock) : Machine.Finished Time (Console Clock) :=
  match session.limit with
  | .ok limit => session.machine.run (Console.host source) limit passes session.console
  | .error fault => session.machine.abort (Console.host source) fault session.console

/-- However a session with a window is left, the commands that it gave have drawn the screen of
the machine it was left with. -/
theorem outcome_shows {source : ClockSource Time Clock} {arguments : List String}
    {surroundings : Surroundings Clock} {session : Session Time Clock}
    (ready : Session.start arguments surroundings = .ready session)
    (windowed : session.options.headless = false) {scale : Int}
    (scaled : session.options.scale = some scale) (magnified : 1 ≤ scale)
    (spaced : 0 ≤ surroundings.equipment.lineHeight) (passes : Nat) (ink : FrontEnd.Ink)
    (canvas : FrontEnd.Canvas) :
    (canvas.paintAll ink (outcome source passes arguments surroundings).commands).Shows scale
      (session.finished source passes).machine.core.screen := by
  have shows := Console.host_displays source magnified
  have dark := Session.start_displays ready windowed scaled magnified spaced
  have left : outcome source passes arguments surroundings =
      session.finish (session.finished source passes) := by
    unfold outcome
    rw [ready]
    rfl
  rw [left]
  refine Session.finish_shows magnified ?_ ink canvas
  unfold Session.finished
  cases session.limit with
  | ok limit => exact shows.run limit passes session.machine _ dark
  | error fault => exact shows.abort fault session.machine _ dark

end CommandLine

end Chip8
