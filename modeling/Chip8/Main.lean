import Chip8.CommandLine.Session
import Chip8.FrontEnd.Wire
import Chip8.Scalar.Binary64

/-!
The program: a session in real time.

The display and the keyboard are at the other end of a pipe. The commands of the front
end go to standard output, a line for each, ahead of what the session prints; input
events are asked for there, and come from standard input. The log goes to the error
output as it grows.
-/

namespace Chip8.Main

/-! ### Time -/

/-- The clock of one pass: what it shows, and how long to sleep behind the pass. -/
structure PassClock where
  now : Float
  rest : Float

def PassClock.source : ClockSource Float PassClock where
  read clock := (some clock.now, clock)
  sleep clock duration := { clock with rest := clock.rest + duration }

abbrev Session : Type := CommandLine.Session Float PassClock

abbrev Console : Type := CommandLine.Console PassClock

def host : Host Float Console :=
  CommandLine.Console.host PassClock.source

def readTime : IO Float := do
  return (← IO.monoNanosNow).toFloat / 1000000000.0

def sleepBehind (clock : PassClock) : IO Unit :=
  if clock.rest > 0.0 then IO.sleep (min clock.rest 60.0 * 1000.0).toUInt32 else pure ()

/-! ### Files -/

def failureOf : IO.Error → ReadFailure
  | .noFileOrDirectory .. => .noSuchFile
  | .inappropriateType .. => .isDirectory
  | .resourceExhausted .. => .nameTooLong
  | failure => .other (toString failure)

def readFile (path : String) : IO (Except ReadFailure (List UInt8)) := do
  if path.toList.contains '\x00' then return .error .embeddedNul
  try return .ok (← IO.FS.readBinFile path).toList
  catch failure => return .error (failureOf failure)

def readProgram (arguments : List String) : IO (Except ReadFailure (List UInt8)) :=
  match CommandLine.read arguments with
  | .ok options => (options.program.map readFile).getD (return .error .noSuchFile)
  | .error _ => return .error .noSuchFile

/-! ### Input and output -/

def bringEvents (console : Console) : IO Console := do
  if console.frontEnd.isNone then return console
  IO.println FrontEnd.pollLine
  (← IO.getStdout).flush
  let events := FrontEnd.InputEvent.ofLine (← (← IO.getStdin).getLine)
  return console.changeFrontEnd ({ · with batches := [events] })

/-- Write what a console has told and commanded, and go on without it. -/
def flush (options : CommandLine.Options) (console : Console) : IO Console := do
  let said := CommandLine.conclude options console .running ""
  IO.eprint said.errorOutput
  said.commands.forM fun command => IO.println command.line
  (← IO.getStdout).flush
  return { console.changeFrontEnd ({ · with asked := [], given := [] }) with log := [] }

/-! ### Running -/

partial def drive (session : Session) (limit : Option Int)
    (running : Machine.Running Float Console) : IO (Machine.Finished Float Console) := do
  let told ← flush session.options running.world
  sleepBehind told.clock
  let console ← bringEvents told
  let world := { console with clock := ⟨← readTime, 0.0⟩ }
  match Machine.pass host limit { running with world } with
  | .over ending machine left => return Machine.settle host ending machine left
  | .again next => drive session limit next

def runSession (session : Session) : IO CommandLine.Conclusion := do
  let console := { session.console with clock := ⟨← readTime, 0.0⟩ }
  let finished ← match session.limit with
    | .error fault => pure (session.machine.abort host fault console)
    | .ok limit =>
        match Machine.launch host session.machine console with
        | (none, left) => pure ⟨.interrupted, session.machine, left⟩
        | (some now, left) => drive session limit ⟨session.machine, now, left⟩
  return session.finish finished

def report (conclusion : CommandLine.Conclusion) : IO UInt32 := do
  IO.eprint conclusion.errorOutput
  conclusion.commands.forM fun command => IO.println command.line
  IO.print conclusion.output
  match conclusion.status with
  | .exit code => return code.toUInt32
  | .raised fault =>
      IO.eprintln ((fault.message?).getD "The program cannot go on.")
      return 1
  | .running => return 0

def runProgram (arguments : List String) : IO UInt32 := do
  let content ← readProgram arguments
  let surroundings : CommandLine.Surroundings PassClock := {
    fileAt := fun _ => content
    equipment := ⟨18, true, []⟩
    seed := ← IO.rand 0 0xFFFFFFFFFFFFFFFF
    clock := ⟨0.0, 0.0⟩ }
  match (CommandLine.Session.start arguments surroundings : CommandLine.Opened Float _) with
  | .over conclusion => report conclusion
  | .ready session => report (← runSession session)

end Chip8.Main

def main (arguments : List String) : IO UInt32 :=
  Chip8.Main.runProgram arguments
