import Chip8.Core.Report
import Chip8.Event
import Chip8.Timers

/-!
The machine: a core together with what paces and debugs it.

The machine adds the timers, the speed, the breakpoints and the pause to the core.
An operator reaches it through events; a breakpoint pauses it before the
instruction there, and it stays paused until it is resumed, except for the single
instructions it is told to run.
-/

namespace Chip8

structure Settings where
  /-- Instructions per second; none or fewer run as fast as they can. -/
  speed : Int
  shiftsSecond : Bool
  seed : Int
  breakpoints : List Int
  trace : Bool
  name : String
deriving DecidableEq, Repr

structure Machine (Time : Type) where
  core : Core
  timers : Timers Time
  /-- The time between two instructions; zero when nothing holds them back. -/
  interval : Time
  breakpoints : List Int
  trace : Bool
  halted : Bool
  paused : Bool
  /-- Whether one instruction may run in spite of the pause. -/
  stepPending : Bool
  /-- The address that was let go last; no breakpoint stops the machine there. -/
  resumedAt : Option Int
deriving Repr

namespace Machine

variable {Time : Type}

/-! ### Starting -/

def intervalOf [Scalar Time] (speed : Int) : Except Fault Time :=
  if speed > 0 then do
    let rate ← Scalar.ofInteger speed
    Scalar.quotient (Scalar.ofInt 1) rate
  else .ok (Scalar.ofInt 0)

def blank [Scalar Time] (settings : Settings) : Except Fault (Machine Time) := do
  let timers ← Timers.ofRate (Scalar.ofInt Layout.timerRate)
  let interval ← intervalOf settings.speed
  return {
    core := Core.blank settings.seed settings.shiftsSecond
    timers := timers
    interval := interval
    breakpoints := settings.breakpoints
    trace := settings.trace
    halted := false
    paused := false
    stepPending := false
    resumedAt := none }

def boot [Scalar Time] (settings : Settings) (program : List UInt8) :
    Except Fault (Machine Time) := do
  let machine ← blank settings
  let memory ← machine.core.memory.load program Layout.programStart settings.name
  return { machine with core := { machine.core with memory } }

def creationRecords : List Record :=
  Memory.creationRecords Layout.memorySize ++ Registers.creationRecords

/-- What the log says while a machine starts; it breaks off where the start fails. -/
def bootRecords (settings : Settings) (program : List UInt8)
    (started : Except Fault (Machine Time)) : List Record :=
  let loading := Record.info
    ("Loading program " ++ settings.name ++ " at 0x" ++ Text.hex 4 Layout.programStart)
  match started with
  | .ok _ => creationRecords ++ [loading, Memory.loadRecord program Layout.programStart]
  | .error (.unusableProgram ..) => creationRecords ++ [loading]
  | .error _ => creationRecords

/-! ### Requests that concern the core alone -/

def withCore (machine : Machine Time) (core : Core) : Machine Time :=
  { machine with core }

def execute (machine : Machine Time) (word : Int) : Response (Machine Time) Time Unit :=
  let attempt := machine.core.execute word
  ⟨attempt.within machine.withCore, machine.core.executionEffects word attempt⟩

def step (machine : Machine Time) : Response (Machine Time) Time Bool :=
  let attempt := machine.core.step
  ⟨attempt.within machine.withCore, machine.core.stepEffects machine.trace attempt⟩

def tick (machine : Machine Time) : Machine Time :=
  machine.withCore (machine.core.modifyRegisters Registers.tick)

/-! ### Operating -/

def counter (machine : Machine Time) : Int :=
  machine.core.registers.counter

def halt (machine : Machine Time) : Machine Time :=
  { machine with halted := true }

def handle (machine : Machine Time) : Event → Response (Machine Time) Time Unit
  | .key number pressed =>
      match machine.core.keypad.set number pressed with
      | .ok keypad => ⟨.ok () (machine.withCore { machine.core with keypad }), []⟩
      | .error fault => ⟨.error fault machine, []⟩
  | .quit => ⟨.ok () machine.halt, [.log (.info "Close requested")]⟩
  | .step =>
      ⟨.ok () { machine with stepPending := machine.stepPending || machine.paused }, []⟩
  | .resume =>
      if machine.paused then
        ⟨.ok () { machine with paused := false, resumedAt := some machine.counter },
          [.log (.info ("Resuming at 0x" ++ Text.hex 4 machine.counter))]⟩
      else ⟨.ok () machine, []⟩
  | .unknown => ⟨.ok () machine, []⟩

def receive (machine : Machine Time) : List Event → Response (Machine Time) Time Unit
  | [] => ⟨.ok () machine, []⟩
  | event :: rest =>
      let first := machine.handle event
      match first.attempt with
      | .error .. => first
      | .ok _ next =>
          let others := next.receive rest
          ⟨others.attempt, first.effects ++ others.effects⟩

/-- Whether the machine has arrived at a breakpoint that is to stop it. -/
def atBreakpoint (machine : Machine Time) : Bool :=
  !machine.paused && machine.core.waiting.isNone
    && machine.breakpoints.contains machine.counter
    && machine.resumedAt != some machine.counter

def breakpointRecords (machine : Machine Time) : List Record :=
  [.info ("Breakpoint at 0x" ++ Text.hex 4 machine.counter),
   .info ("\n".intercalate machine.core.report)]

def pauseIfArrived (machine : Machine Time) : Machine Time :=
  { machine with paused := machine.paused || machine.atBreakpoint }

/-- Whether an instruction may run now. A pending single step is used up by this. -/
def ready (machine : Machine Time) : Response (Machine Time) Time Bool :=
  let arrived := machine.pauseIfArrived
  let effects := if machine.atBreakpoint then machine.breakpointRecords.map .log else []
  if !arrived.paused then ⟨.ok true arrived, effects⟩
  else if arrived.stepPending then
    ⟨.ok true { arrived with stepPending := false, resumedAt := some arrived.counter }, effects⟩
  else ⟨.ok false arrived, effects⟩

def forgetResumed (machine : Machine Time) : Machine Time :=
  { machine with
    resumedAt := if machine.resumedAt = some machine.counter then machine.resumedAt else none }

end Machine

end Chip8
