import Chip8.Proofs.FrontEnd.Canvas
import Chip8.Proofs.Machine.Drawing
import Chip8.Proofs.Machine.Pause
import Chip8.Proofs.Machine.Shown
import Chip8.Scalar.Exact

/-!
A machine with a window.

A window can be set up beside any host: it is given the frames of a run and nothing else, and
every rendering is written down with the commands that it led to. Whatever frames it is given,
it draws the pixels that differ from the frame before, and all its commands together draw the
frame it was given last. So a run keeps the window in step with the screen of its machine.
-/

namespace Chip8

namespace FrontEnd

/-- One rendering: the screen, and the commands that were given for it. -/
structure Shot where
  screen : Screen
  commands : List Command

/-- A window with its renderings, from the opening of the window, which shows a dark screen, up
to the latest one. -/
structure Exhibit where
  window : Window
  latest : Shot
  /-- The renderings before, the last one first. -/
  earlier : List Shot

namespace Exhibit

def shots (exhibit : Exhibit) : List Shot :=
  exhibit.latest :: exhibit.earlier

/-- All commands that the window has given, in order. -/
def commands (exhibit : Exhibit) : List Command :=
  exhibit.shots.reverse.flatMap Shot.commands

def opened (scale lineHeight : Int) (caption : String) : Exhibit :=
  let window := Window.ofScale scale lineHeight
  ⟨window, ⟨Display.dark, window.openCommands caption⟩, []⟩

/-- Render a frame, with the registers that the panel has for it if there is a panel. -/
def render (panel : Frame → Option Registers) (exhibit : Exhibit) (frame : Frame) : Exhibit :=
  let rendered := exhibit.window.render frame.screen (panel frame)
  let window := match rendered.window with
    | .ok window => window
    | .error _ => exhibit.window
  ⟨window, ⟨frame.screen, rendered.commands⟩, exhibit.shots⟩

def perform {Time : Type} (panel : Frame → Option Registers) (exhibit : Exhibit) :
    Effect Time → Exhibit
  | .render frame => exhibit.render panel frame
  | _ => exhibit

/-! ### Sequences of frames -/

/-- A rendering draws one rectangle for each pixel that differs from the rendering before, and
no others. -/
def Follows (scale : Int) (later earlier : Shot) : Prop :=
  rectangles later.commands = redrawn scale earlier.screen later.screen

/-- What holds of a window, whatever frames it has been given. -/
structure Faithful (scale : Int) (exhibit : Exhibit) : Prop where
  inStep : exhibit.window.InStep scale exhibit.commands exhibit.latest.screen
  follows : exhibit.shots.IsChain (Follows scale)

variable {scale : Int} {exhibit : Exhibit}

theorem faithful_opened {lineHeight : Int} (magnified : 1 ≤ scale) (spaced : 0 ≤ lineHeight)
    (caption : String) : (opened scale lineHeight caption).Faithful scale := by
  have commands_eq : (opened scale lineHeight caption).commands =
      (Window.ofScale scale lineHeight).openCommands caption := List.append_nil _
  constructor
  · rw [commands_eq]
    exact .opened magnified spaced caption
  · exact List.isChain_singleton _

theorem commands_render (panel : Frame → Option Registers) (exhibit : Exhibit) (frame : Frame) :
    (exhibit.render panel frame).commands =
      exhibit.commands ++ (exhibit.window.render frame.screen (panel frame)).commands := by
  change ((⟨frame.screen, _⟩ :: exhibit.shots).reverse).flatMap Shot.commands = _
  rw [List.reverse_cons, List.flatMap_append, List.flatMap_singleton]
  rfl

theorem Faithful.render (faithful : exhibit.Faithful scale) (magnified : 1 ≤ scale)
    (panel : Frame → Option Registers) (frame : Frame) :
    (exhibit.render panel frame).Faithful scale := by
  obtain ⟨inStep, follows⟩ := faithful
  constructor
  · obtain ⟨next, rendered, still⟩ := inStep.render magnified frame.screen (panel frame)
    have window_eq : (exhibit.render panel frame).window = next := by
      unfold Exhibit.render
      simp only [rendered]
    rw [window_eq, commands_render]
    exact still
  · have drawn := Window.rectangles_render inStep.remembers frame.screen (panel frame)
    rw [inStep.scale_eq] at drawn
    exact follows.cons_cons drawn

/-- Whatever frames a window is given, it stays faithful. -/
theorem Faithful.renderAll (faithful : exhibit.Faithful scale) (magnified : 1 ≤ scale)
    (panel : Frame → Option Registers) (frames : List Frame) :
    (frames.foldl (Exhibit.render panel) exhibit).Faithful scale := by
  induction frames generalizing exhibit with
  | nil => exact faithful
  | cons frame rest ih => exact ih (faithful.render magnified panel frame)

end Exhibit

end FrontEnd

/-! ### Runs with a window -/

section Runs

open FrontEnd

variable {Time World : Type}

/-- A host with a window at its side. -/
def Host.withWindow (host : Host Time World) (panel : Frame → Option Registers) :
    Host Time (World × Exhibit) where
  poll := fun (world, exhibit) =>
    let (events, polled) := host.poll world
    (events, (polled, exhibit))
  readClock := fun (world, exhibit) =>
    let (reading, left) := host.readClock world
    (reading, (left, exhibit))
  perform := fun effect (world, exhibit) =>
    (host.perform effect world, exhibit.perform panel effect)

/-- A host with a window at its side displays what the window was given last. -/
theorem Host.withWindow_displays (host : Host Time World) (panel : Frame → Option Registers)
    {scale : Int} (magnified : 1 ≤ scale) :
    (host.withWindow panel).Displays fun screen state =>
      state.2.Faithful scale ∧ state.2.latest.screen = screen where
  poll _ _ before := before
  readClock _ _ before := before
  perform screen effect state before := by
    cases effect with
    | render frame => exact ⟨before.1.render magnified panel frame, rfl⟩
    | log record => exact before
    | tone active => exact before
    | sleep duration => exact before

variable [Scalar Time]

/-- A window always shows the screen of the machine that runs with it. Whatever frames it was
given before the run, and wherever the run is left, the canvas has the blocks of the pixels of
that screen; and each rendering drew one rectangle for each pixel that differs from the one
before. -/
theorem Machine.run_shows_screen {scale lineHeight : Int} (magnified : 1 ≤ scale)
    (spaced : 0 ≤ lineHeight) (caption : String) (panel : Frame → Option Registers)
    (frames : List Frame) (host : Host Time World) (limit : Option Int) (passes : ℕ)
    (machine : Machine Time) (world : World) :
    let before := frames.foldl (Exhibit.render panel) (Exhibit.opened scale lineHeight caption)
    let finished := machine.run (host.withWindow panel) limit passes (world, before)
    (∀ (ink : Ink) (canvas : Canvas),
        (canvas.paintAll ink finished.world.2.commands).Shows scale
          finished.machine.core.screen) ∧
      finished.world.2.shots.IsChain (Exhibit.Follows scale) := by
  intro before finished
  have faithful : before.Faithful scale :=
    (Exhibit.faithful_opened magnified spaced caption).renderAll magnified panel frames
  have displayed : finished.world.2.Faithful scale ∧
      finished.world.2.latest.screen = finished.machine.core.screen :=
    (host.withWindow_displays panel magnified).run limit passes machine _ ⟨faithful, rfl⟩
  obtain ⟨left, latest⟩ := displayed
  rw [← latest]
  exact ⟨left.inStep.shows, left.follows⟩

/-- A program whose second instruction draws one row at the origin, and that row is the first byte
of the instruction itself. -/
theorem Machine.steps_of_drawn_instruction {settings : Settings} {machine : Machine Time}
    (started : boot settings [0xA2, 0x02, 0xD0, 0x01] = .ok machine) :
    ∃ aimed drawn : Core, machine.core.step = .ok true aimed ∧ aimed.step = .ok true drawn ∧
      aimed.cycles = 1 ∧ drawn.cycles = 2 ∧
      drawn.screen.pixel (0 : ℕ) (0 : ℕ) = .ok true ∧
      drawn.screen.pixel (2 : ℕ) (0 : ℕ) = .ok false := by
  have start : machine.core.waiting = none ∧ machine.core.screen = Display.dark ∧
      machine.core.byte 0 = 0 ∧ machine.core.registers.counter = 0x200 ∧
      machine.core.cycles = 0 := by
    obtain ⟨timers, interval, memory, _, _, _, rfl⟩ := boot_eq_ok_iff.mp started
    exact ⟨rfl, rfl, rfl, rfl, rfl⟩
  obtain ⟨idle, isDark, isZero, counter, uncounted⟩ := start
  have image := boot_byteAt started
  let aimed : Core := (machine.core.setIndex 0x202).advance.counted
  have aims : machine.core.step = .ok true aimed := by
    have fetched : machine.core.fetch = .ok (Instruction.loadIndex 0x202).assemble :=
      (boot_fetch started).trans (congrArg Except.ok (by decide))
    exact Core.step_of_execute idle fetched
      (machine.core.execute_assembled (.loadIndex 0x202))
  have bounded : aimed.Bounded := by
    have kept := ((boot_wellFormed started).act .step).toBounded
    unfold Core.act at kept
    rw [aims, Attempt.state_ok] at kept
    exact kept
  have fetched : aimed.fetch = .ok (Instruction.draw 0 0 1).assemble :=
    (bounded.fetch_of_bytes (congrArg (· + 2) counter) (by decide) (image 2 rfl)
      (image 3 rfl)).trans (congrArg Except.ok (by decide))
  obtain ⟨after, performed, screen, -⟩ := bounded.perform_draw 0 0 1
  have row : aimed.spriteRows 1 = [0xD0] := by
    change [((machine.core.memory.byteAt (0x200 + (2 : ℕ))).toNat : Int)] = _
    rw [image 2 rfl]
    rfl
  have pixel : ∀ column : ℕ, column < 64 → after.screen.pixel column (0 : ℕ) =
      .ok (decide (Odd (Sprite.hits [0xD0] 64 32 0 0 column 0).card)) := by
    intro column inRow
    have places : aimed.spritePlaces 0 0 1 =
        Display.places Layout.displayWidth_pos Layout.displayHeight_pos 0 0 [0xD0] := by
      have zero : aimed.byte 0 = 0 := isZero
      have rows : aimed.spriteRows (1 : Digit).val = [0xD0] := row
      unfold Core.spritePlaces
      rw [zero, rows]
      rfl
    obtain ⟨lit, before, flipped⟩ := Display.pixel_flipAll_places Layout.displayWidth_pos
      Layout.displayHeight_pos aimed.screen 0 0 [0xD0] inRow Layout.displayHeight_pos
    have wasDark : aimed.screen = Display.dark := isDark
    rw [wasDark, Display.pixel_dark (by decide) (by decide)] at before
    cases before
    rw [screen, places, flipped, Bool.false_xor]
    rfl
  refine ⟨aimed, after.counted, aims, ?_, ?_, ?_, ?_, ?_⟩
  · exact Core.step_of_execute idle fetched ((aimed.execute_assembled _).trans performed)
  · exact congrArg (· + 1) uncounted
  · have uncountedStill : after.cycles = machine.core.cycles + 1 :=
      (Core.kept_of_perform performed).1
    change after.cycles + 1 = 2
    rw [uncountedStill, uncounted]
  · exact (pixel 0 (by decide)).trans (congrArg Except.ok (by decide))
  · exact (pixel 2 (by decide)).trans (congrArg Except.ok (by decide))

/-- A window that was lit throughout shows the one row that the machine has drawn. -/
theorem run_shows_screen_anew :
    ∃ machine : Machine ℚ,
      Machine.boot ⟨0, false, 0, [], false, "row"⟩ [0xA2, 0x02, 0xD0, 0x01] = .ok machine ∧
        let lit : Frame := ⟨⟨Vector.replicate _ true⟩, machine.core.registers⟩
        let panel := fun frame : Frame => some frame.registers
        let before := (Exhibit.opened 8 18 "row").render panel lit
        let host : Host ℚ Unit := ⟨fun _ => ([], ()), fun _ => (some 0, ()), fun _ _ => ()⟩
        let finished := machine.run (host.withWindow panel) (some 2) 3 ((), before)
        let screen := finished.machine.core.screen
        (finished.ending, finished.machine.core.cycles) = (.finished, 2) ∧
          (screen.pixel (0 : ℕ) (0 : ℕ), screen.pixel (2 : ℕ) (0 : ℕ)) = (.ok true, .ok false) ∧
          (∀ (ink : Ink) (canvas : Canvas),
            (canvas.paintAll ink finished.world.2.commands).Shows 8 screen) ∧
          finished.world.2.shots.IsChain (Exhibit.Follows 8) := by
  obtain ⟨machine, started⟩ : ∃ machine : Machine ℚ,
      Machine.boot ⟨0, false, 0, [], false, "row"⟩ [0xA2, 0x02, 0xD0, 0x01] = .ok machine :=
    ⟨_, rfl⟩
  refine ⟨machine, started, ?_⟩
  intro lit panel before host finished screen
  obtain ⟨aimed, drawn, aims, draws, once, twice, lights, darkens⟩ :=
    Machine.steps_of_drawn_instruction started
  obtain ⟨timers, interval, memory, ticking, paced, _, same⟩ := Machine.boot_eq_ok_iff.mp started
  cases ticking
  cases paced
  let holding (core : Core) : Machine ℚ :=
    ⟨core, ⟨1 / 60, some 0⟩, 0, [], false, false, false, false, none⟩
  have due : ∀ core, (holding core).nextDue 0 0 = 0 := by
    intro core
    change Scalar.later ((0 : ℚ) + 0) (0 - Scalar.ratio 1 10) = 0
    decide +kernel
  -- Time stands still, so every pass is on time, and only the first one starts the timers.
  have passes : ∀ (running : Machine ℚ) {core after : Core} (world : Unit × Exhibit),
      (running.halted || running.limitReached (some 2)) = false →
        running.catchUp 0 = .ok (holding core) → core.step = .ok true after →
          ∃ left, Machine.pass (host.withWindow panel) (some 2) ⟨running, 0, world⟩ =
            .again ⟨holding after, 0, left⟩ := by
    intro running core after world goes caughtUp taken
    have isDue : Scalar.less (0 : ℚ) 0 = false := by decide +kernel
    have allowed : (holding core).ready.attempt = .ok true (holding core) :=
      Machine.ready_of_unmarked rfl rfl
    have passed : Machine.pass (host.withWindow panel) (some 2) ⟨running, 0, world⟩ = _ :=
      Machine.pass_of_step goes rfl rfl caughtUp isDue allowed taken
    rw [passed, due]
    exact ⟨_, rfl⟩
  let launched : Unit × Exhibit := ((), before.render panel machine.core.frame)
  obtain ⟨world, first⟩ := passes machine launched (by rw [same]; rfl) (by rw [same]; rfl) aims
  have below : ((holding aimed).halted || (holding aimed).limitReached (some 2)) = false := by
    refine decide_eq_false ?_
    change ¬ (aimed.cycles : Int) ≥ 2
    rw [once]
    decide
  have still : (holding aimed).catchUp 0 = .ok (holding aimed) :=
    Machine.catchUp_again rfl (show (1 / 60 : ℚ) ≠ 0 by decide +kernel)
  obtain ⟨left, second⟩ := passes (holding aimed) world below still draws
  have reached : ((holding drawn).halted || (holding drawn).limitReached (some 2)) = true := by
    refine decide_eq_true ?_
    change (drawn.cycles : Int) ≥ 2
    rw [twice]
    decide
  have third : Machine.pass (host.withWindow panel) (some 2) ⟨holding drawn, 0, left⟩ = _ :=
    (Machine.Course.stop reached).sound.1
  have ran : finished =
      Machine.settle (host.withWindow panel) .finished (holding drawn) left := by
    change Machine.runFrom (host.withWindow panel) (some 2) 3 ⟨machine, 0, launched⟩ = _
    rw [Machine.runFrom_of_again first, Machine.runFrom_of_again second,
      Machine.runFrom_of_over third]
  have shown := Machine.run_shows_screen (by decide : (1 : Int) ≤ 8)
    (by decide : (0 : Int) ≤ 18) "row" panel [lit] host (some 2) 3 machine ()
  refine ⟨?_, ?_, shown⟩
  · rw [ran]
    exact Prod.ext rfl twice
  · change (finished.machine.core.screen.pixel _ _, finished.machine.core.screen.pixel _ _) = _
    rw [ran]
    exact Prod.ext lights darkens

end Runs

end Chip8
