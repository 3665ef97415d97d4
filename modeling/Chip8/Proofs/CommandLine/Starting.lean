import Chip8.CommandLine.Session
import Chip8.Proofs.Machine.Binary64

/-!
Starting a session.

A session that is to run a program opens its front end first, if it is to have one. That fails
when there is no number for the scale, or when the log cannot name the sizes of the window. Then
a machine starts with every program that fits into memory, unless there is no number for the
speed or the seed.
-/

namespace Chip8.CommandLine

variable {Clock : Type}

/-- A window can be opened: there is a number for its scale, and its sizes are not too long for
the log. -/
def Openable (options : Options) (equipment : Equipment) : Prop :=
  ∃ scale, options.scale = some scale ∧
    (FrontEnd.Window.ofScale scale equipment.lineHeight).stopped? FrontEnd.defaultCaption = none

/-- Neither the speed nor the seed of a machine was given the separator in place of its number. -/
structure Numbered (options : Options) : Prop where
  speed : options.speed ≠ none
  seed : options.seed ≠ some none

/-- The front end that options ask for: none, or one of the scale that they give. -/
def Builds (options : Options) (equipment : Equipment) : Option FrontEnd → Prop
  | none => options.headless = true
  | some frontEnd => options.headless = false ∧ ∃ scale, options.scale = some scale ∧
      FrontEnd.ofScale scale equipment (FrontEnd.defaultVolume : Float) = .ok frontEnd

/-! ### The front end -/

/-- The samples of the tone fit into their sixteen bits. -/
theorem samples_default :
    ∃ sound, FrontEnd.Speaker.samples FrontEnd.defaultFrequency
      (FrontEnd.defaultVolume : Float) = .ok sound := by
  have loud : Scalar.integerPart
      (Scalar.ofInt FrontEnd.fullAmplitude * FrontEnd.defaultVolume : Float) = .ok 8191 := rfl
  have fits : (FrontEnd.Speaker.cycle
      (Int.fdiv FrontEnd.sampleRate FrontEnd.defaultFrequency) 8191).all
        FrontEnd.Speaker.fits = true := by decide
  have small : ¬ (!Capacity.fits FrontEnd.defaultFrequency) = true := by decide
  unfold FrontEnd.Speaker.samples
  rw [if_neg (by decide), loud]
  simp only [bind, Except.bind]
  rw [if_neg small, fits, if_neg (by decide)]
  split <;> exact ⟨_, rfl⟩

theorem ofScale_default (scale : Int) (equipment : Equipment) :
    ∃ frontEnd, FrontEnd.ofScale scale equipment (FrontEnd.defaultVolume : Float) =
      .ok frontEnd := by
  have toned : ∃ speaker, FrontEnd.Speaker.ofTone FrontEnd.defaultFrequency
      (FrontEnd.defaultVolume : Float) equipment.device = .ok speaker := by
    obtain ⟨sound, made⟩ := samples_default
    unfold FrontEnd.Speaker.ofTone
    split
    · rw [made]
      exact ⟨_, rfl⟩
    · exact ⟨_, rfl⟩
  obtain ⟨speaker, made⟩ := toned
  unfold FrontEnd.ofScale
  rw [made]
  exact ⟨_, rfl⟩

namespace Session

theorem openScaled_cases (scale : Int) (equipment : Equipment) (console : Console Clock)
    (bare : console.frontEnd = none) :
    ((FrontEnd.Window.ofScale scale equipment.lineHeight).stopped? FrontEnd.defaultCaption = none ∧
      ∃ frontEnd records,
        FrontEnd.ofScale scale equipment (FrontEnd.defaultVolume : Float) = .ok frontEnd ∧
        openScaled Float scale equipment console =
          .ok { console.tell records with frontEnd := some frontEnd }) ∨
      ((FrontEnd.Window.ofScale scale equipment.lineHeight).stopped? FrontEnd.defaultCaption ≠
          none ∧
        ∃ failure, openScaled Float scale equipment console = .error failure ∧
          failure.console.frontEnd = none) := by
  obtain ⟨frontEnd, made⟩ := ofScale_default scale equipment
  unfold openScaled
  dsimp only
  cases stops : (FrontEnd.Window.ofScale scale equipment.lineHeight).stopped?
      FrontEnd.defaultCaption with
  | none =>
      dsimp only
      rw [made]
      exact Or.inl ⟨rfl, frontEnd, _, rfl, rfl⟩
  | some told => exact Or.inr ⟨Option.some_ne_none told, _, rfl, bare⟩

/-- A front end is opened as it was asked for, unless one is asked for that cannot be opened. -/
theorem openFrontEnd_cases (options : Options) (equipment : Equipment) (console : Console Clock)
    (bare : console.frontEnd = none) :
    ((options.headless = false → Openable options equipment) ∧ ∃ built equipped,
        openFrontEnd Float options equipment console = .ok equipped ∧
          equipped.clock = console.clock ∧ equipped.frontEnd = built ∧
          Builds options equipment built) ∨
      (options.headless = false ∧ ¬ Openable options equipment ∧ ∃ failure,
        openFrontEnd Float options equipment console = .error failure ∧
          failure.console.frontEnd = none) := by
  unfold openFrontEnd
  cases headless : options.headless with
  | true =>
      refine Or.inl ⟨?_, none, console, rfl, rfl, bare, headless⟩
      intro wanted
      cases wanted
  | false =>
      rw [if_neg Bool.false_ne_true]
      cases isScale : options.scale with
      | none =>
          refine Or.inr ⟨rfl, ?_, _, rfl, bare⟩
          rintro ⟨scale, given, _⟩
          rw [isScale] at given
          cases given
      | some scale =>
          rcases openScaled_cases scale equipment
              (console.tell [.info "Initialise display engine"]) bare with
            ⟨goesOn, frontEnd, records, made, opened⟩ | ⟨stops, failure, failed, nothing⟩
          · left
            dsimp only
            rw [opened]
            exact ⟨fun _ => ⟨scale, isScale, goesOn⟩, some frontEnd, _, rfl, rfl, rfl, headless,
              scale, isScale, made⟩
          · refine Or.inr ⟨rfl, ?_, failure, failed, nothing⟩
            rintro ⟨other, given, goesOn⟩
            rw [isScale] at given
            cases given
            exact stops goesOn

/-! ### The machine -/

theorem prepare_cases {options : Options}
    (small : ∀ speed, options.speed = some speed → speed < 2 ^ 1000) (path : String)
    (seed : Int) :
    (Numbered options ∧ ∃ prepared : Settings,
        prepare Float options path seed = .ok prepared ∧ prepared.speed < 2 ^ 1000) ∨
      (¬ Numbered options ∧ prepare Float options path seed = .error .missingNumber) := by
  unfold prepare required
  cases isSpeed : options.speed with
  | none => exact Or.inr ⟨fun numbered => numbered.speed isSpeed, rfl⟩
  | some speed =>
      have slow := small speed isSpeed
      have there : options.speed ≠ none := by
        rw [isSpeed]
        exact Option.some_ne_none speed
      obtain ⟨interval, paced⟩ := Machine.intervalOf_of_small slow (by norm_num)
      simp only [paced, bind, Except.bind, pure, Except.pure]
      cases given : options.seed with
      | none =>
          refine Or.inl ⟨⟨there, ?_⟩, _, rfl, slow⟩
          rw [given]
          exact (Option.some_ne_none _).symm
      | some number =>
          cases number with
          | none => exact Or.inr ⟨fun numbered => numbered.seed given, rfl⟩
          | some number =>
              refine Or.inl ⟨⟨there, ?_⟩, _, rfl, slow⟩
              rw [given]
              exact fun same => by cases same

/-- With a number for its speed and its seed, a machine is ready and sound if the program fits.
Otherwise the session is over with the front end closed. -/
theorem openMachine_cases {options : Options}
    (small : ∀ speed, options.speed = some speed → speed < 2 ^ 1000) (path : String)
    (program : List UInt8) (seed : Int) (console : Console Clock) :
    (Numbered options ∧ program.length ≤ 3584 ∧
        ∃ (machine : Machine Float) (records : List Record),
          machine.Sound (Timers.Steady 1000) ∧
            openMachine options path program seed console =
              .ready ⟨options, machine, console.tell records⟩) ∨
      (∃ fault records, (openMachine options path program seed console : Opened Float Clock) =
          .over (refuse options (console.tell records).close fault) ∧
        ((Numbered options ∧ 3584 < program.length ∧ fault.isMachineFault = true) ∨
          (¬ Numbered options ∧ fault.isMachineFault = false))) := by
  unfold openMachine
  rcases prepare_cases small path seed with
    ⟨numbered, prepared, isPrepared, slow⟩ | ⟨missing, failed⟩
  · rw [isPrepared]
    rcases Machine.boot_cases slow program with
      ⟨fits, machine, started, sound⟩ | ⟨long, refused⟩
    · left
      simp only [started]
      exact ⟨numbered, fits, machine, _, sound, rfl⟩
    · right
      simp only [refused]
      exact ⟨_, _, rfl, Or.inl ⟨numbered, long, rfl⟩⟩
  · right
    rw [failed]
    exact ⟨_, _, rfl, Or.inr ⟨missing, rfl⟩⟩

end Session

end Chip8.CommandLine
