import Chip8.Proofs.CommandLine.Serving
import Chip8.Proofs.CommandLine.Starting

/-!
What a command line leads to.

Every command line that can be read leads to an exit, unless a machine is to be started and an
option for a number that is needed was given the separator, or the window asked for has sizes
that the log cannot name. The exit code says what became of the program: there was none, it could
not be used, it made the machine fail, or none of these. Wherever a session ends, the front end
that it built is asked to close its keyboard, its speaker and its window, once each and in this
order, behind everything else.
-/

namespace Chip8.CommandLine

variable {Clock : Type}

namespace Session

/-! ### Running a session -/

theorem limit_cases (session : Session Float Clock) :
    (session.options.cycles ≠ some none ∧ ∃ limit, session.limit = .ok limit) ∨
      (session.options.cycles = some none ∧ session.limit = .error .missingNumber) := by
  unfold limit
  cases session.options.cycles with
  | none => exact Or.inl ⟨(Option.some_ne_none none).symm, none, rfl⟩
  | some number =>
      cases number with
      | none => exact Or.inr ⟨rfl, rfl⟩
      | some count =>
          have there : some (some count) ≠ some none :=
            fun same => Option.some_ne_none count (Option.some.inj same)
          exact Or.inl ⟨there, some count, rfl⟩

/-- A limit that was not given its number is met behind the first reading of the clock. An
interruption comes ahead of it. -/
theorem run_unlimited {source : ClockSource Float Clock} {passes : Nat}
    {session : Session Float Clock} (unlimited : session.limit = .error .missingNumber) :
    (session.run source passes).status =
      match (source.read session.console.clock).1 with
      | none => .exit exitDone
      | some _ => .raised .missingNumber := by
  unfold run
  rw [unlimited]
  dsimp only
  have reads : (Machine.launch (Console.host source) session.machine session.console).1 =
      (source.read session.console.clock).1 := rfl
  unfold Machine.abort
  rw [← reads]
  cases Machine.launch (Console.host source) session.machine session.console with
  | mk reading left => cases reading <;> rfl

/-- A session with a sound machine ends well, unless its program makes the machine fail. -/
theorem run_status {source : ClockSource Float Clock} {passes : Nat}
    {session : Session Float Clock} {limit : Option Int} (isLimit : session.limit = .ok limit)
    (sound : session.machine.Sound (Timers.Steady 1000))
    (times : ∀ now ∈ session.machine.times (Console.host source) limit passes session.console,
      Binary64.Within 1000 now)
    (ended : (session.run source passes).status ≠ .running) :
    ((session.run source passes).status = .exit exitDone ∧ ∀ fault,
        (session.machine.run (Console.host source) limit passes session.console).ending ≠
          .failed fault) ∨
      ((session.run source passes).status = .exit exitFault ∧ ∃ fault,
        (session.machine.run (Console.host source) limit passes session.console).ending =
          .failed fault ∧ fault.ByProgram) := by
  have byProgram : ∀ fault,
      (session.machine.run (Console.host source) limit passes session.console).ending =
        .failed fault → fault.ByProgram := by
    intro fault failed
    exact Machine.run_failed_byProgram (Timers.steady_lasting (by norm_num) (by norm_num))
      (Console.host_onKeypad source) sound times failed
  unfold Session.run at ended ⊢
  rw [isLimit] at ended ⊢
  dsimp only at ended ⊢
  unfold finish at ended ⊢
  cases how : (session.machine.run (Console.host source) limit passes session.console).ending with
  | finished =>
      refine Or.inl ⟨rfl, ?_⟩
      intro fault failed
      cases failed
  | interrupted =>
      refine Or.inl ⟨rfl, ?_⟩
      intro fault failed
      cases failed
  | unfinished =>
      rw [how] at ended
      exact absurd rfl ended
  | failed fault =>
      have caused := byProgram fault how
      refine Or.inr ⟨?_, fault, rfl, caused⟩
      dsimp only
      rw [if_pos caused.isMachineFault]
      rfl

end Session

/-! ### Exit codes -/

/-- A program that is not run or listed: its file cannot be read or holds nothing, or it is
longer than the memory it is to be run in. -/
def Refused (options : Options) (surroundings : Surroundings Clock) : Prop :=
  ∃ path, options.program = some path ∧
    ((∃ failure, surroundings.fileAt path = .error failure) ∨
      ∃ program, surroundings.fileAt path = .ok program ∧
        (program = [] ∨ options.disassemble = false ∧ 3584 < program.length))

/-- A command line leads to a run that its program makes fail. -/
def Faulted (source : ClockSource Float Clock) (passes : Nat) (arguments : List String)
    (surroundings : Surroundings Clock) : Prop :=
  ∃ (session : Session Float Clock) (limit : Option Int) (fault : Fault),
    Session.start arguments surroundings = .ready session ∧ session.limit = .ok limit ∧
      (session.machine.run (Console.host source) limit passes session.console).ending =
        .failed fault ∧
      fault.ByProgram

/-- A machine is to be started: there is a program, and it is to be run. -/
def Starts (options : Options) (surroundings : Surroundings Clock) : Prop :=
  options.disassemble = false ∧ ∃ path program, options.program = some path ∧
    surroundings.fileAt path = .ok program ∧ program ≠ []

/-- A front end is built for the machine: one is wanted, and it can be opened. -/
def Shows (options : Options) (surroundings : Surroundings Clock) : Prop :=
  options.headless = false ∧ Openable options surroundings.equipment ∧ Starts options surroundings

/-- A front end that was built, used, and then closed: the last things it was asked for are to
close its keyboard, its speaker and its window, and nothing was closed before. The commands that
take away the sound and the window come behind all others as well. -/
def ClosedAtEnd (options : Options) (equipment : Equipment) (conclusion : Conclusion) : Prop :=
  ∃ scale built uses, options.scale = some scale ∧
    FrontEnd.ofScale scale equipment (FrontEnd.defaultVolume : Float) = .ok built ∧
    (∀ call ∈ uses, ¬ call.Closes) ∧
    conclusion.calls = uses ++ [.close .input, .close .speaker, .close .renderer] ∧
    (∀ command ∈ (built.useAll uses).commands, ¬ command.Closes) ∧
    conclusion.commands = (built.useAll uses).commands ++ (FrontEnd.Keyboard.closeCommands ++
      (if equipment.device then [.stop, .closeMixer] else []) ++ [.closeDisplay])

/-- What became of the front end when a session is over: one that was built has been closed, and
without one nothing was asked for. -/
structure Closed (options : Options) (surroundings : Surroundings Clock)
    (conclusion : Conclusion) : Prop where
  shown : Shows options surroundings → ClosedAtEnd options surroundings.equipment conclusion
  hidden : ¬ Shows options surroundings → conclusion.calls = []
  silent : options.headless = true ∨ ¬ Starts options surroundings → conclusion.commands = []

/-- All that a machine has to be given to be started and run is there. A limit without its number
goes unnoticed when the program is too long, or when the run is interrupted at once. -/
structure Supplied (source : ClockSource Float Clock) (options : Options)
    (surroundings : Surroundings Clock) : Prop where
  numbered : Numbered options
  openable : options.headless = false → Openable options surroundings.equipment
  cycles : options.cycles = some none →
    Refused options surroundings ∨ (source.read surroundings.clock).1 = none

/-- An exit code that says what became of the program. -/
def ExitsFor (options : Options) (surroundings : Surroundings Clock) (faulted : Prop)
    (status : Status) : Prop :=
  ∃ code, status = .exit code ∧ code ≤ 3 ∧ (code = 1 ↔ options.program = none) ∧
    (code = 2 ↔ Refused options surroundings) ∧ (code = 3 ↔ faulted)

/-- A session that is over has left an exit code that says why, exactly if nothing was missing
for the machine that it was to start. Either way no front end is left open. -/
structure Proper (source : ClockSource Float Clock) (options : Options)
    (surroundings : Surroundings Clock) (faulted : Prop) (conclusion : Conclusion) : Prop where
  exits : (Starts options surroundings → Supplied source options surroundings) →
    ExitsFor options surroundings faulted conclusion.status
  raises : Starts options surroundings → ¬ Supplied source options surroundings →
    ∃ fault, conclusion.status = .raised fault
  closed : Closed options surroundings conclusion

/-! ### Ordinary sessions -/

/-- A session is ordinary when its file is named by text that can name one, and its speed is
far below the largest number. -/
structure Ordinary (options : Options) (surroundings : Surroundings Clock) : Prop where
  named : ∀ path, options.program = some path → '\x00' ∉ path.toList
  files : ∀ path, surroundings.fileAt path = .error .embeddedNul → '\x00' ∈ path.toList
  speed : ∀ speed, options.speed = some speed → speed < 2 ^ 1000

/-- The times that the run of a session catches up with are far below the largest number. -/
def Timely (source : ClockSource Float Clock) (passes : Nat) (arguments : List String)
    (surroundings : Surroundings Clock) : Prop :=
  ∀ (session : Session Float Clock) (limit : Option Int),
    Session.start arguments surroundings = .ready session → session.limit = .ok limit →
      ∀ now ∈ session.machine.times (Console.host source) limit passes session.console,
        Binary64.Within 1000 now

/-- A clock that shows nothing but times of a moderate size does so in every session. -/
theorem timely_of_readings {source : ClockSource Float Clock}
    (readings : ∀ clock now, (source.read clock).1 = some now → Binary64.Within 1000 now)
    (passes : Nat) (arguments : List String) (surroundings : Surroundings Clock) :
    Timely source passes arguments surroundings := by
  intro session limit _ _ now member
  obtain ⟨moment, inside, found⟩ := List.mem_filterMap.mp member
  have brought := Machine.history_from limit passes session.machine session.console moment inside
  obtain ⟨before, action⟩ := moment
  cases action with
  | update read =>
      cases found
      obtain ⟨console, isRead⟩ := brought
      exact readings console.clock _ isRead
  | _ => cases found

/-! ### The front end at the end -/

section Leading

variable {arguments : List String} {options : Options} {source : ClockSource Float Clock}
  {surroundings : Surroundings Clock} {passes : Nat} {conclusion : Conclusion}

theorem closedAtEnd_of_built {equipment : Equipment} {built : FrontEnd}
    (builds : Builds options equipment (some built)) {uses : List FrontEnd.Call}
    (keep : ∀ call ∈ uses, ¬ call.Closes)
    (told : conclusion.TellsOf (some (built.useAll uses).close)) :
    ClosedAtEnd options equipment conclusion := by
  obtain ⟨_, scale, isScale, made⟩ := builds
  obtain ⟨unasked, isOpen, audible⟩ := FrontEnd.ofScale_open made
  obtain ⟨still, same⟩ := FrontEnd.useAll_open isOpen keep
  obtain ⟨calls, commands⟩ := told
  refine ⟨scale, built, uses, isScale, made, keep, ?_, ?_, ?_⟩
  · rw [calls]
    change (built.useAll uses).close.calls = _
    rw [FrontEnd.close_eq, FrontEnd.calls_useAll, FrontEnd.calls_useAll, unasked, List.nil_append]
    rfl
  · intro command member
    exact still command (List.mem_reverse.mp member)
  · rw [commands]
    change (built.useAll uses).close.commands = _
    rw [FrontEnd.commands_close, FrontEnd.Speaker.closeCommands, same, audible]
    rfl

theorem closed_of_builds {built : Option FrontEnd} (starts : Starts options surroundings)
    (openable : options.headless = false → Openable options surroundings.equipment)
    (builds : Builds options surroundings.equipment built) {uses : List FrontEnd.Call}
    (keep : ∀ call ∈ uses, ¬ call.Closes)
    (told : conclusion.TellsOf (built.map fun frontEnd => (frontEnd.useAll uses).close)) :
    Closed options surroundings conclusion := by
  cases built with
  | none =>
      refine ⟨?_, fun _ => told.1, fun _ => told.2⟩
      rintro ⟨wanted, _⟩
      have unwanted : options.headless = true := builds
      rw [unwanted] at wanted
      cases wanted
  | some frontEnd =>
      have wanted : options.headless = false := builds.1
      refine ⟨fun _ => closedAtEnd_of_built builds keep told, ?_, ?_⟩
      · exact fun hidden => absurd ⟨wanted, openable wanted, starts⟩ hidden
      · rintro (unwanted | idle)
        · rw [wanted] at unwanted
          cases unwanted
        · exact absurd starts idle

/-- A session that is refused once its front end is built closes it unused. -/
theorem closed_of_refusal {built : Option FrontEnd} {console : Console Clock} {fault : Fault}
    (isBuilt : console.frontEnd = built) (starts : Starts options surroundings)
    (openable : options.headless = false → Openable options surroundings.equipment)
    (builds : Builds options surroundings.equipment built) :
    Closed options surroundings (Session.refuse options console.close fault) := by
  have told := Session.refuse_tellsOf options console.close fault
  change Conclusion.TellsOf (console.frontEnd.map FrontEnd.close) _ at told
  rw [isBuilt] at told
  have unused : Conclusion.TellsOf
      (built.map fun frontEnd => (frontEnd.useAll []).close) _ := told
  exact closed_of_builds starts openable builds (List.forall_mem_nil _) unused

/-- Where no machine is started, no front end is built. -/
theorem closed_of_idle (idle : ¬ Starts options surroundings) (told : conclusion.TellsOf none) :
    Closed options surroundings conclusion :=
  ⟨fun shows => absurd shows.2.2 idle, fun _ => told.1, fun _ => told.2⟩

theorem closed_of_unopened (starts : Starts options surroundings)
    (wanted : options.headless = false)
    (shut : ¬ Openable options surroundings.equipment) (unasked : conclusion.calls = []) :
    Closed options surroundings conclusion := by
  refine ⟨fun shows => absurd shows.2.1 shut, fun _ => unasked, ?_⟩
  rintro (unwanted | idle)
  · rw [wanted] at unwanted
    cases unwanted
  · exact absurd starts idle

/-! ### Sessions that are over before a machine is ready -/

theorem ne_none_of_path {path : String} (isPath : options.program = some path) :
    options.program ≠ none := by
  rw [isPath]
  exact Option.some_ne_none path

theorem outcome_of_over
    (isOver : (Session.start arguments surroundings : Opened Float Clock) = .over conclusion) :
    outcome source passes arguments surroundings = conclusion := by
  unfold outcome
  rw [isOver]

theorem exitsFor_of_over {code : Nat}
    (isOver : (Session.start arguments surroundings : Opened Float Clock) = .over conclusion)
    (status : conclusion.status = .exit code) (small : code ≤ 2)
    (missing : code = 1 ↔ options.program = none)
    (refused : code = 2 ↔ Refused options surroundings) :
    ExitsFor options surroundings (Faulted source passes arguments surroundings)
      conclusion.status := by
  refine ⟨code, status, by omega, missing, refused, ?_⟩
  constructor
  · intro three
    omega
  · rintro ⟨session, _, _, ready, _⟩
    rw [isOver] at ready
    cases ready

theorem proper_of_idle {code : Nat}
    (isOver : (Session.start arguments surroundings : Opened Float Clock) = .over conclusion)
    (idle : ¬ Starts options surroundings) (told : conclusion.TellsOf none)
    (status : conclusion.status = .exit code) (small : code ≤ 2)
    (missing : code = 1 ↔ options.program = none)
    (refused : code = 2 ↔ Refused options surroundings) :
    Proper source options surroundings (Faulted source passes arguments surroundings)
      (outcome source passes arguments surroundings) := by
  rw [outcome_of_over isOver]
  refine ⟨fun _ => ?_, fun starts => absurd starts idle, closed_of_idle idle told⟩
  exact exitsFor_of_over isOver status small missing refused

/-- A file that cannot be read, or that holds nothing, is refused before anything is opened. -/
theorem openOptions_unreadable {path : String} (isPath : options.program = some path)
    (named : surroundings.fileAt path ≠ .error .embeddedNul)
    (nothing : ∀ first rest, surroundings.fileAt path ≠ .ok (first :: rest)) :
    ∃ conclusion, (Session.openOptions options surroundings : Opened Float Clock) =
        .over conclusion ∧ conclusion.status = .exit exitProgram ∧ conclusion.TellsOf none := by
  obtain ⟨fault, failed, isMachineFault⟩ : ∃ fault,
      ProgramFile.program path (surroundings.fileAt path) = .error fault ∧
        fault.isMachineFault = true := by
    cases content : surroundings.fileAt path with
    | error failure =>
        cases failure with
        | embeddedNul => exact absurd content named
        | _ => exact ⟨_, rfl, rfl⟩
    | ok program =>
        cases program with
        | nil => exact ⟨_, rfl, rfl⟩
        | cons first rest => exact absurd content (nothing first rest)
  have status := Session.refuse_status options (Session.freshConsole surroundings) fault
  rw [if_pos isMachineFault] at status
  refine ⟨_, ?_, status, Session.refuse_tellsOf options (Session.freshConsole surroundings) fault⟩
  unfold Session.openOptions
  rw [isPath]
  dsimp only
  rw [failed]

section Read

variable (parsed : CommandLine.read arguments = .ok options)

include parsed

theorem start_eq : (Session.start arguments surroundings : Opened Float Clock) =
    Session.openOptions options surroundings := by
  unfold Session.start
  rw [parsed]

theorem proper_without_program (missing : options.program = none) :
    Proper source options surroundings (Faulted source passes arguments surroundings)
      (outcome source passes arguments surroundings) := by
  have nowhere : ∀ path, options.program ≠ some path := by
    intro path isPath
    rw [missing] at isPath
    cases isPath
  have isOver : (Session.openOptions options surroundings : Opened Float Clock) =
      .over ⟨.exit exitUsage, "",
        complaint "the following arguments are required: program", [], [], none⟩ := by
    unfold Session.openOptions
    rw [missing]
  have accepted : ¬ Refused options surroundings := by
    rintro ⟨path, isPath, _⟩
    exact nowhere path isPath
  have idle : ¬ Starts options surroundings := by
    rintro ⟨_, path, _, isPath, _⟩
    exact nowhere path isPath
  exact proper_of_idle ((start_eq parsed).trans isOver) idle ⟨rfl, rfl⟩ rfl (by decide)
    (iff_of_true rfl missing) (iff_of_false (by decide) accepted)

variable {path : String} (isPath : options.program = some path)

include isPath

theorem proper_of_unreadable (named : surroundings.fileAt path ≠ .error .embeddedNul)
    (nothing : ∀ first rest, surroundings.fileAt path ≠ .ok (first :: rest)) :
    Proper source options surroundings (Faulted source passes arguments surroundings)
      (outcome source passes arguments surroundings) := by
  obtain ⟨conclusion, isOver, status, told⟩ := openOptions_unreadable isPath named nothing
  have refused : Refused options surroundings := by
    refine ⟨path, isPath, ?_⟩
    cases content : surroundings.fileAt path with
    | error failure => exact Or.inl ⟨failure, rfl⟩
    | ok program =>
        cases program with
        | nil => exact Or.inr ⟨[], rfl, Or.inl rfl⟩
        | cons first rest => exact absurd content (nothing first rest)
  have idle : ¬ Starts options surroundings := by
    rintro ⟨_, other, program, isOther, content, some⟩
    obtain ⟨first, rest, rfl⟩ := List.exists_cons_of_ne_nil some
    rw [isPath] at isOther
    cases isOther
    exact nothing first rest content
  exact proper_of_idle ((start_eq parsed).trans isOver) idle told status (le_refl 2)
    (iff_of_false (by decide) (ne_none_of_path isPath)) (iff_of_true rfl refused)

variable {first : UInt8} {rest : List UInt8}
  (content : surroundings.fileAt path = .ok (first :: rest))

include content

theorem start_of_content : (Session.start arguments surroundings : Opened Float Clock) =
    Session.openProgram options path (first :: rest) surroundings
      ((Session.freshConsole surroundings).tell [ProgramFile.record (first :: rest)]) := by
  rw [start_eq parsed]
  unfold Session.openOptions
  rw [isPath]
  dsimp only
  rw [content]
  rfl

omit parsed in
theorem refused_iff_of_content : Refused options surroundings ↔
    options.disassemble = false ∧ 3584 < (first :: rest).length := by
  constructor
  · rintro ⟨other, isOther, refused⟩
    rw [isPath] at isOther
    cases isOther
    rw [content] at refused
    rcases refused with ⟨failure, impossible⟩ | ⟨program, same, refused⟩
    · cases impossible
    · cases same
      rcases refused with impossible | long
      · cases impossible
      · exact long
  · intro long
    exact ⟨path, isPath, Or.inr ⟨_, content, Or.inr long⟩⟩

theorem proper_of_listing (lists : options.disassemble = true) :
    Proper source options surroundings (Faulted source passes arguments surroundings)
      (outcome source passes arguments surroundings) := by
  have isOver : (Session.openProgram options path (first :: rest) surroundings
      ((Session.freshConsole surroundings).tell [ProgramFile.record (first :: rest)]) :
        Opened Float Clock) = .over _ := if_pos lists
  have idle : ¬ Starts options surroundings := by
    rintro ⟨runs, _⟩
    rw [lists] at runs
    cases runs
  have accepted : ¬ Refused options surroundings := by
    rw [refused_iff_of_content isPath content, lists]
    exact fun runs => Bool.noConfusion runs.1
  exact proper_of_idle ((start_of_content parsed isPath content).trans isOver) idle
    (conclude_tellsOf options _ _ _) rfl (by decide)
    (iff_of_false (by decide) (ne_none_of_path isPath)) (iff_of_false (by decide) accepted)

end Read

/-! ### Sessions that run -/

section Ready

variable {session : Session Float Clock}
  (ready : Session.start arguments surroundings = .ready session)

include ready

theorem outcome_of_ready :
    outcome source passes arguments surroundings = session.run source passes := by
  unfold outcome
  rw [ready]

/-- A limited session leads to a fault if its own run does. -/
theorem faulted_iff_of_limit {limit : Option Int} (isLimit : session.limit = .ok limit) :
    Faulted source passes arguments surroundings ↔ ∃ fault,
      (session.machine.run (Console.host source) limit passes session.console).ending =
        .failed fault ∧ fault.ByProgram := by
  constructor
  · rintro ⟨_, _, fault, isReady, isLimited, failed, caused⟩
    rw [ready] at isReady
    cases isReady
    rw [isLimit] at isLimited
    cases isLimited
    exact ⟨fault, failed, caused⟩
  · rintro ⟨fault, failed, caused⟩
    exact ⟨session, limit, fault, ready, isLimit, failed, caused⟩

theorem not_faulted_of_unlimited {fault : Fault} (unlimited : session.limit = .error fault) :
    ¬ Faulted source passes arguments surroundings := by
  rintro ⟨_, _, _, isReady, isLimited, _⟩
  rw [ready] at isReady
  cases isReady
  rw [unlimited] at isLimited
  cases isLimited

end Ready

theorem exitsFor_of_run {code : Nat} {faulted : Prop} {status : Status}
    (starts : Starts options surroundings) (accepted : ¬ Refused options surroundings)
    (exits : status = .exit code) (either : code = exitDone ∨ code = exitFault)
    (fails : code = exitFault ↔ faulted) : ExitsFor options surroundings faulted status := by
  obtain ⟨_, path, _, isPath, _⟩ := starts
  have there := ne_none_of_path isPath
  unfold exitDone exitFault at either
  exact ⟨code, exits, by omega, iff_of_false (by omega) there, iff_of_false (by omega) accepted,
    fails⟩

/-- A session whose machine is ready, with the front end that was asked for. -/
theorem proper_of_ready {session : Session Float Clock} {built : Option FrontEnd}
    (ready : Session.start arguments surroundings = .ready session)
    (same : session.options = options) (onTime : session.console.clock = surroundings.clock)
    (starts : Starts options surroundings) (accepted : ¬ Refused options surroundings)
    (numbered : Numbered options)
    (openable : options.headless = false → Openable options surroundings.equipment)
    (builds : Builds options surroundings.equipment built)
    (timely : Timely source passes arguments surroundings)
    (sound : session.machine.Sound (Timers.Steady 1000)) (serves : session.console.Serves built)
    (ended : (outcome source passes arguments surroundings).status ≠ .running) :
    Proper source options surroundings (Faulted source passes arguments surroundings)
      (outcome source passes arguments surroundings) := by
  rw [outcome_of_ready ready] at ended ⊢
  obtain ⟨uses, keep, told⟩ := Session.run_tellsOf serves ended
  have closed := closed_of_builds starts openable builds keep told
  rcases session.limit_cases with ⟨limited, limit, isLimit⟩ | ⟨unlimited, isLimit⟩
  · rw [same] at limited
    have supplied : Supplied source options surroundings :=
      ⟨numbered, openable, fun missing => absurd missing limited⟩
    refine ⟨fun _ => ?_, fun _ missing => absurd supplied missing, closed⟩
    have faulted : Faulted source passes arguments surroundings ↔ _ :=
      faulted_iff_of_limit ready isLimit
    rcases Session.run_status isLimit sound (timely session limit ready isLimit) ended with
      ⟨status, well⟩ | ⟨status, failed⟩
    · apply exitsFor_of_run starts accepted status (Or.inl rfl)
      rw [faulted]
      exact iff_of_false (by decide) fun ⟨fault, failed, _⟩ => well fault failed
    · exact exitsFor_of_run starts accepted status (Or.inr rfl)
        (iff_of_true rfl (faulted.mpr failed))
  · rw [same] at unlimited
    have status : (session.run source passes).status = _ := Session.run_unlimited isLimit
    rw [onTime] at status
    cases reading : (source.read surroundings.clock).1 with
    | none =>
        rw [reading] at status
        have supplied : Supplied source options surroundings :=
          ⟨numbered, openable, fun _ => Or.inr reading⟩
        refine ⟨fun _ => ?_, fun _ missing => absurd supplied missing, closed⟩
        exact exitsFor_of_run starts accepted status (Or.inl rfl)
          (iff_of_false (by decide) (not_faulted_of_unlimited ready isLimit))
    | some now =>
        rw [reading] at status
        refine ⟨fun supplied => ?_, fun _ _ => ⟨_, status⟩, closed⟩
        rcases (supplied starts).cycles unlimited with refused | interrupted
        · exact absurd refused accepted
        · rw [reading] at interrupted
          cases interrupted

/-- A session that fails before a machine is ready, for want of something it needs. -/
theorem proper_of_raised {fault : Fault}
    (isOver : (Session.start arguments surroundings : Opened Float Clock) = .over conclusion)
    (starts : Starts options surroundings) (missing : ¬ Supplied source options surroundings)
    (status : conclusion.status = .raised fault)
    (closed : Closed options surroundings conclusion) :
    Proper source options surroundings (Faulted source passes arguments surroundings)
      (outcome source passes arguments surroundings) := by
  rw [outcome_of_over isOver]
  exact ⟨fun supplied => absurd (supplied starts) missing, fun _ _ => ⟨fault, status⟩, closed⟩

/-- A session that is supplied with all it needs, but whose program does not fit. -/
theorem proper_of_long {path : String}
    (isOver : (Session.start arguments surroundings : Opened Float Clock) = .over conclusion)
    (isPath : options.program = some path) (refused : Refused options surroundings)
    (supplied : Supplied source options surroundings)
    (status : conclusion.status = .exit exitProgram)
    (closed : Closed options surroundings conclusion) :
    Proper source options surroundings (Faulted source passes arguments surroundings)
      (outcome source passes arguments surroundings) := by
  rw [outcome_of_over isOver]
  refine ⟨fun _ => ?_, fun _ missing => absurd supplied missing, closed⟩
  exact exitsFor_of_over isOver status (le_refl 2)
    (iff_of_false (by decide) (ne_none_of_path isPath)) (iff_of_true rfl refused)

theorem proper_of_program (parsed : CommandLine.read arguments = .ok options) {path : String}
    (isPath : options.program = some path) {first : UInt8} {rest : List UInt8}
    (content : surroundings.fileAt path = .ok (first :: rest))
    (ordinary : Ordinary options surroundings)
    (timely : Timely source passes arguments surroundings) (runs : options.disassemble = false)
    (ended : (outcome source passes arguments surroundings).status ≠ .running) :
    Proper source options surroundings (Faulted source passes arguments surroundings)
      (outcome source passes arguments surroundings) := by
  have starts : Starts options surroundings :=
    ⟨runs, path, _, isPath, content, List.cons_ne_nil _ _⟩
  have refused := refused_iff_of_content isPath content
  have start := start_of_content parsed isPath content
  let console : Console Clock :=
    (Session.freshConsole surroundings).tell [ProgramFile.record (first :: rest)]
  change _ = Session.openProgram options path (first :: rest) surroundings console at start
  unfold Session.openProgram at start
  rw [if_neg (by rw [runs]; decide)] at start
  rcases Session.openFrontEnd_cases options surroundings.equipment console rfl with
    ⟨openable, built, equipped, opened, onTime, isBuilt, builds⟩ |
      ⟨wanted, shut, failure, failed, nothing⟩
  · rw [opened] at start
    dsimp only at start
    rcases Session.openMachine_cases ordinary.speed path (first :: rest) surroundings.seed equipped
      with ⟨numbered, fits, machine, records, sound, ready⟩ | ⟨fault, records, isOver, cause⟩
    · refine proper_of_ready (start.trans ready) rfl onTime starts ?_ numbered openable builds
        timely sound ⟨[], List.forall_mem_nil _, ?_⟩ ended
      · rw [refused]
        exact fun long => absurd long.2 (not_lt.mpr fits)
      · change equipped.frontEnd = _
        rw [isBuilt]
        cases built <;> rfl
    · have early := start.trans isOver
      have status := Session.refuse_status options (equipped.tell records).close fault
      have closed : Closed options surroundings
          (Session.refuse options (equipped.tell records).close fault) :=
        closed_of_refusal isBuilt starts openable builds
      rcases cause with ⟨numbered, long, isMachineFault⟩ | ⟨unnumbered, isOther⟩
      · rw [if_pos isMachineFault] at status
        have tooLong : Refused options surroundings := refused.mpr ⟨runs, long⟩
        exact proper_of_long early isPath tooLong
          ⟨numbered, openable, fun _ => Or.inl tooLong⟩ status closed
      · rw [if_neg (by rw [isOther]; decide)] at status
        exact proper_of_raised early starts (fun supplied => unnumbered supplied.numbered) status
          closed
  · rw [failed] at start
    refine proper_of_raised start starts (fun supplied => shut (supplied.openable wanted)) rfl ?_
    refine closed_of_unopened starts wanted shut ?_
    change (failure.console.frontEnd.map FrontEnd.calls).getD [] = []
    rw [nothing]
    rfl

end Leading

/-! ### All command lines -/

/-- A clock that stands at zero for some readings, and is interrupted at the next one. -/
def stoppedClock (readings : Nat) : ClockSource Float Nat where
  read made := (if made < readings then some (Scalar.ofInt 0) else none, made + 1)
  sleep made _ := made

def oneFile (program : List UInt8) : Surroundings Nat where
  fileAt path := if path = "data" then .ok program else .error .noSuchFile
  equipment := ⟨18, true, []⟩
  seed := 0
  clock := 0

theorem oneFile_ordinary {options : Options} (named : options.program = some "data")
    (speed : options.speed = some 500) (program : List UInt8) :
    Ordinary options (oneFile program) where
  named path isPath := by
    rw [named] at isPath
    cases isPath
    decide
  files path nul := by
    change (if path = "data" then Except.ok program else .error ReadFailure.noSuchFile) = _ at nul
    split at nul <;> cases nul
  speed given isSpeed := by
    rw [speed] at isSpeed
    cases isSpeed
    exact Machine.defaultSpeed_small

theorem stoppedClock_timely (readings passes : Nat) (arguments : List String)
    (surroundings : Surroundings Nat) :
    Timely (stoppedClock readings) passes arguments surroundings := by
  apply timely_of_readings
  intro made now read
  change (if made < readings then some (Scalar.ofInt 0 : Float) else none) = some now at read
  split at read
  · cases read
    refine ⟨0, rfl, ?_⟩
    rw [abs_zero]
    exact zpow_pos two_pos _
  · cases read

/-- A command line that has been read leads to an exit, with a code that says why, unless a
machine was to be started that lacks something. Whatever the program does, wherever the run is
interrupted and whether there is an exit or not, a front end that was built is closed behind
everything else. -/
theorem outcome_proper {arguments : List String} {options : Options}
    {source : ClockSource Float Clock} {surroundings : Surroundings Clock} {passes : Nat}
    (parsed : CommandLine.read arguments = .ok options)
    (ordinary : Ordinary options surroundings)
    (timely : Timely source passes arguments surroundings)
    (ended : (outcome source passes arguments surroundings).status ≠ .running) :
    Proper source options surroundings (Faulted source passes arguments surroundings)
      (outcome source passes arguments surroundings) := by
  cases isPath : options.program with
  | none => exact proper_without_program parsed isPath
  | some path =>
      have named : surroundings.fileAt path ≠ .error .embeddedNul :=
        fun nul => ordinary.named path isPath (ordinary.files path nul)
      by_cases readable : ∃ first rest, surroundings.fileAt path = .ok (first :: rest)
      · obtain ⟨first, rest, content⟩ := readable
        cases runs : options.disassemble with
        | true => exact proper_of_listing parsed isPath content runs
        | false => exact proper_of_program parsed isPath content ordinary timely runs ended
      · exact proper_of_unreadable parsed isPath named
          fun first rest content => readable ⟨first, rest, content⟩

/-- A run that a breakpoint pauses at once, and that is interrupted while it is paused. -/
theorem outcome_proper_at_breakpoint :
    ∃ options, CommandLine.read ["data", "--breakpoint=0x200"] = .ok options ∧
      Shows options (oneFile [0x12, 0x00]) ∧
      Supplied (stoppedClock 2) options (oneFile [0x12, 0x00]) ∧
      Proper (stoppedClock 2) options (oneFile [0x12, 0x00])
        (Faulted (stoppedClock 2) 2 ["data", "--breakpoint=0x200"] (oneFile [0x12, 0x00]))
        (outcome (stoppedClock 2) 2 ["data", "--breakpoint=0x200"] (oneFile [0x12, 0x00])) := by
  have parsed : CommandLine.read ["data", "--breakpoint=0x200"] =
      .ok { Options.default with program := some "data", breakpoints := [0x200] } := by
    decide +kernel
  have openable : Openable
      { Options.default with program := some "data", breakpoints := [0x200] }
      (oneFile [0x12, 0x00]).equipment := ⟨_, rfl, by decide +kernel⟩
  refine ⟨_, parsed, ⟨rfl, openable, rfl, "data", _, rfl, rfl, List.cons_ne_nil _ _⟩, ?_, ?_⟩
  · refine ⟨⟨Option.some_ne_none _, by decide⟩, fun _ => openable, fun missing => ?_⟩
    cases missing
  · apply outcome_proper parsed
    · exact oneFile_ordinary rfl rfl _
    · exact stoppedClock_timely 2 2 _ _
    · decide +kernel

/-- An option for a number that was given the separator instead makes a session end with a fault
that is no exit, though everything else is in order. -/
theorem outcome_raised_without_seed :
    ∃ options, CommandLine.read ["data", "--headless", "--seed=--"] = .ok options ∧
      Ordinary options (oneFile [0x12, 0x00]) ∧
      Timely (stoppedClock 2) 2 ["data", "--headless", "--seed=--"] (oneFile [0x12, 0x00]) ∧
      (outcome (stoppedClock 2) 2 ["data", "--headless", "--seed=--"]
        (oneFile [0x12, 0x00])).status = .raised .missingNumber ∧
      ¬ ExitsFor options (oneFile [0x12, 0x00])
        (Faulted (stoppedClock 2) 2 ["data", "--headless", "--seed=--"] (oneFile [0x12, 0x00]))
        (outcome (stoppedClock 2) 2 ["data", "--headless", "--seed=--"]
          (oneFile [0x12, 0x00])).status := by
  have parsed : CommandLine.read ["data", "--headless", "--seed=--"] =
      .ok { Options.default with program := some "data", headless := true, seed := some none } := by
    decide +kernel
  have raised : (outcome (stoppedClock 2) 2 ["data", "--headless", "--seed=--"]
      (oneFile [0x12, 0x00])).status = .raised .missingNumber := by
    decide +kernel
  refine ⟨_, parsed, oneFile_ordinary rfl rfl _, stoppedClock_timely 2 2 _ _, raised, ?_⟩
  rintro ⟨code, exits, _⟩
  rw [raised] at exits
  cases exits

end Chip8.CommandLine
