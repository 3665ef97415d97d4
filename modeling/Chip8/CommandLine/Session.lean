import Chip8.CommandLine.Arguments
import Chip8.FrontEnd
import Chip8.Listing
import Chip8.Machine.Run
import Chip8.ProgramFile

/-!
A session: everything that a command line leads to.

A session opens by reading the arguments and the program; then it is over, because
only a text was asked for or something is wrong, or a machine stands ready to run.
However the run ends, the front end is closed, and a fault of the machine is reported
with the state it left.
-/

namespace Chip8.CommandLine

inductive Status
  | exit (code : Nat)
  | raised (fault : Fault)
  | running
deriving DecidableEq, Repr

def exitDone : Nat := 0

def exitUsage : Nat := 1

def exitProgram : Nat := 2

def exitFault : Nat := 3

/-- What a session leaves behind: its status, its output and error output, what its front end
was asked to do and the commands that it gave, and the input that the front end had left, if
one was open. -/
structure Conclusion where
  status : Status
  output : String
  errorOutput : String
  calls : List FrontEnd.Call
  commands : List FrontEnd.Command
  unread : Option (List (List FrontEnd.InputEvent))
deriving Repr

/-- The world of a session: its clock, its front end, and its log with the last record
first. -/
structure Console (Clock : Type) where
  clock : Clock
  frontEnd : Option FrontEnd
  log : List Record
deriving Repr

namespace Console

variable {Time Clock : Type}

def tell (console : Console Clock) (records : List Record) : Console Clock :=
  { console with log := records.reverse ++ console.log }

def changeFrontEnd (console : Console Clock) (change : FrontEnd → FrontEnd) : Console Clock :=
  { console with frontEnd := console.frontEnd.map change }

/-- The events of the front end, and none without one. -/
def poll (console : Console Clock) : List Event × Console Clock :=
  match console.frontEnd with
  | none => ([], console)
  | some frontEnd =>
      let (events, polled) := frontEnd.poll
      (events, { console with frontEnd := some polled })

def perform (source : ClockSource Time Clock) (effect : Effect Time) (console : Console Clock) :
    Console Clock :=
  match effect with
  | .log record => console.tell [record]
  | .render frame => console.changeFrontEnd (·.render frame)
  | .tone active => console.changeFrontEnd (·.setTone active)
  | .sleep duration => { console with clock := source.sleep console.clock duration }

def host (source : ClockSource Time Clock) : Host Time (Console Clock) where
  poll := poll
  readClock console :=
    let (reading, clock) := source.read console.clock
    (reading, { console with clock })
  perform := perform source

def close (console : Console Clock) : Console Clock :=
  console.changeFrontEnd FrontEnd.close

end Console

def threshold (options : Options) : Level :=
  if options.debug then .debug else .info

def recordLine (record : Record) : String :=
  record.level.name ++ ":root:" ++ record.text ++ "\n"

def conclude {Clock : Type} (options : Options) (console : Console Clock) (status : Status)
    (output : String) : Conclusion where
  status := status
  output := output
  errorOutput := String.join
    ((console.log.reverse.filter (Record.reaches (threshold options))).map recordLine)
  calls := (console.frontEnd.map FrontEnd.calls).getD []
  commands := (console.frontEnd.map FrontEnd.commands).getD []
  unread := console.frontEnd.map FrontEnd.batches

structure Session (Time Clock : Type) where
  options : Options
  machine : Machine Time
  console : Console Clock

inductive Opened (Time Clock : Type)
  | over (conclusion : Conclusion)
  | ready (session : Session Time Clock)

structure Surroundings (Clock : Type) where
  fileAt : String → Except ReadFailure (List UInt8)
  equipment : Equipment
  /-- The seed of the random generator where none is given. -/
  seed : Int
  clock : Clock

namespace Session

variable {Time Clock : Type} [Scalar Time]

def listingText (program : List UInt8) : String :=
  lines ((Listing.ofProgram program Layout.programStart).map Listing.Line.render)

def settings (options : Options) (path : String) (speed seed : Int) : Settings where
  speed := speed
  shiftsSecond := options.shiftVy
  seed := seed
  breakpoints := options.breakpoints
  trace := options.debug
  name := path

def required (given : Given) : Except Fault Int :=
  match given with
  | some value => .ok value
  | none => .error .missingNumber

/-- End a session with a fault: one of the program file has an exit code of its own, any
other is handed on. -/
def refuse (options : Options) (console : Console Clock) (fault : Fault) : Conclusion :=
  if fault.isMachineFault then
    conclude options (console.tell [.error fault.message]) (.exit exitProgram) ""
  else conclude options console (.raised fault) ""

/-- The settings of a machine. The pace is settled before the seed. -/
def prepare (Time : Type) [Scalar Time] (options : Options) (path : String)
    (seedInstead : Int) : Except Fault Settings := do
  let speed ← required options.speed
  let _ ← (Machine.intervalOf speed : Except Fault Time)
  let seed ← match options.seed with
    | some given => required given
    | none => .ok seedInstead
  return settings options path speed seed

/-- Start the machine. The front end is closed again if the start fails. -/
def openMachine (options : Options) (path : String) (program : List UInt8)
    (seedInstead : Int) (console : Console Clock) : Opened Time Clock :=
  match prepare Time options path seedInstead with
  | .error fault =>
      .over (refuse options (console.tell Machine.creationRecords).close fault)
  | .ok settings =>
      let started : Except Fault (Machine Time) := Machine.boot settings program
      let told := console.tell (Machine.bootRecords settings program started)
      match started with
      | .error fault => .over (refuse options told.close fault)
      | .ok machine => .ready ⟨options, machine, told⟩

/-- A front end that could not be opened: what it told and did up to then, and why. -/
structure Unopened (Clock : Type) where
  console : Console Clock
  commands : List FrontEnd.Command
  fault : Fault

def openScaled (Time : Type) [Scalar Time] (scale : Int) (equipment : Equipment)
    (console : Console Clock) : Except (Unopened Clock) (Console Clock) :=
  let window := FrontEnd.Window.ofScale scale equipment.lineHeight
  match window.stopped? FrontEnd.defaultCaption with
  | some (commands, records) => .error ⟨console.tell records, commands, .tooManyDigits⟩
  | none =>
      match FrontEnd.ofScale scale equipment (FrontEnd.defaultVolume : Time) with
      | .error fault => .error ⟨console, [], fault⟩
      | .ok frontEnd =>
          .ok { console.tell (FrontEnd.openRecords scale equipment) with
            frontEnd := some frontEnd }

/-- Open the front end unless the session is to go without one. -/
def openFrontEnd (Time : Type) [Scalar Time] (options : Options) (equipment : Equipment)
    (console : Console Clock) : Except (Unopened Clock) (Console Clock) :=
  if options.headless then .ok console
  else
    let told := console.tell [.info "Initialise display engine"]
    match options.scale with
    | none =>
        let (commands, records, fault) :=
          FrontEnd.Window.unscaled equipment.lineHeight FrontEnd.defaultCaption
        .error ⟨told.tell records, commands, fault⟩
    | some scale => openScaled Time scale equipment told

def openProgram (options : Options) (path : String) (program : List UInt8)
    (surroundings : Surroundings Clock) (console : Console Clock) : Opened Time Clock :=
  if options.disassemble then
    .over (conclude options console (.exit exitDone) (listingText program))
  else match openFrontEnd Time options surroundings.equipment console with
    | .error failure =>
        .over { conclude options failure.console (.raised failure.fault) "" with
          commands := failure.commands }
    | .ok equipped => openMachine options path program surroundings.seed equipped

def freshConsole (surroundings : Surroundings Clock) : Console Clock :=
  ⟨surroundings.clock, none, [.info "Notch8 - a Chip-8 virtual machine"]⟩

def openOptions (options : Options) (surroundings : Surroundings Clock) : Opened Time Clock :=
  match options.program with
  | none =>
      .over ⟨.exit exitUsage, "",
        complaint "the following arguments are required: program", [], [], none⟩
  | some path =>
      let console := freshConsole surroundings
      match ProgramFile.program path (surroundings.fileAt path) with
      | .error fault => .over (refuse options console fault)
      | .ok program =>
          openProgram options path program surroundings
            (console.tell [ProgramFile.record program])

def start (arguments : List String) (surroundings : Surroundings Clock) : Opened Time Clock :=
  match CommandLine.read arguments with
  | .error stop =>
      let (code, output, errorOutput) := stop.outcome
      .over ⟨.exit code, output, errorOutput, [], [], none⟩
  | .ok options => openOptions options surroundings

def limit (session : Session Time Clock) : Except Fault (Option Int) :=
  match session.options.cycles with
  | some given => (required given).map some
  | none => .ok none

/-- The state of a machine and its screen, as they are printed at the end. -/
def stateText (machine : Machine Time) : String :=
  lines (machine.core.report ++ [machine.core.screen.render])

def closingText (session : Session Time Clock) (machine : Machine Time) : String :=
  if session.options.cycles.isSome then stateText machine else ""

def faultRecords (machine : Machine Time) (fault : Fault) : List Record :=
  [.error fault.message,
   .error ("Machine state:\n" ++ "\n".intercalate machine.core.report)]

def finish (session : Session Time Clock) (finished : Machine.Finished Time (Console Clock)) :
    Conclusion :=
  let console := finished.world
  let machine := finished.machine
  match finished.ending with
  | .finished =>
      conclude session.options console.close (.exit exitDone) (session.closingText machine)
  | .interrupted =>
      conclude session.options (console.tell [.info "Interrupted"]).close (.exit exitDone)
        (session.closingText machine)
  | .failed fault =>
      if fault.isMachineFault then
        conclude session.options (console.tell (faultRecords machine fault)).close
          (.exit exitFault) ""
      else conclude session.options console.close (.raised fault) ""
  | .unfinished => conclude session.options console .running ""

def run (source : ClockSource Time Clock) (passes : Nat) (session : Session Time Clock) :
    Conclusion :=
  let host := Console.host source
  session.finish <| match session.limit with
    | .ok limit => session.machine.run host limit passes session.console
    | .error fault => session.machine.abort host fault session.console

end Session

/-- Everything that a command line leads to, within a number of passes. -/
def outcome {Time Clock : Type} [Scalar Time] (source : ClockSource Time Clock) (passes : Nat)
    (arguments : List String) (surroundings : Surroundings Clock) : Conclusion :=
  match (Session.start arguments surroundings : Opened Time Clock) with
  | .over conclusion => conclusion
  | .ready session => session.run source passes

end Chip8.CommandLine
