import Chip8.Host
import Chip8.Machine

/-!
Running a machine.

A run is a sequence of passes. Each pass polls the host, lets the timers catch up
with the clock, sets the tone and then, if the next instruction is due, spends one
slot on it. Slots are spaced by the speed of the machine; a host that stalled makes
up for a tenth of a second at most. The timers follow the clock alone. However a
run ends, the tone is off afterwards.
-/

namespace Chip8

inductive Ending
  | finished
  | failed (fault : Fault)
  | interrupted
  | unfinished
deriving DecidableEq, Repr

namespace Machine

variable {Time World : Type} [Scalar Time]

def maxLag : Time :=
  Scalar.ratio 1 10

def idleDelay : Time :=
  Scalar.ratio 2 1000

def catchUp (machine : Machine Time) (now : Time) : Except Fault (Machine Time) := do
  let (_, timers, registers) ← machine.timers.update machine.core.registers now
  return { machine with core := { machine.core with registers }, timers }

/-- Spend a slot: take a step if one may be taken. The answer says whether the machine
got anywhere. -/
def slot (machine : Machine Time) : Response (Machine Time) Time Bool :=
  let checked := machine.ready
  match checked.attempt with
  | .ok true arrived =>
      let stepped := arrived.step
      let effects := checked.effects ++ stepped.effects
      match stepped.attempt with
      | .ok true after => ⟨.ok true after.forgetResumed, effects⟩
      | .ok false after => ⟨.ok false after, effects⟩
      | .error fault after => ⟨.error fault after, effects⟩
  | _ => checked

/-- A run under way: the machine, the time its next slot is due, and the world. -/
structure Running (Time World : Type) where
  machine : Machine Time
  due : Time
  world : World

inductive Passed (Time World : Type)
  | again (running : Running Time World)
  | over (ending : Ending) (machine : Machine Time) (world : World)

/-- Whether the run has carried out the instructions it was limited to. -/
def limitReached (machine : Machine Time) (limit : Option Int) : Bool :=
  match limit with
  | some count => machine.core.cycles ≥ count
  | none => false

def nextDue (machine : Machine Time) (due now : Time) : Time :=
  Scalar.later (due + machine.interval) (now - maxLag)

def spendSlot (host : Host Time World) (running : Running Time World) : Passed Time World :=
  let spent := running.machine.slot
  let world := host.performAll spent.effects running.world
  match spent.attempt with
  | .error fault machine => .over (.failed fault) machine world
  | .ok true machine => .again { running with machine, world }
  | .ok false machine =>
      let rested :=
        if Scalar.isZero machine.interval then host.perform (.sleep idleDelay) world else world
      .again { running with machine, world := rested }

def passAt (host : Host Time World) (running : Running Time World) (now : Time) :
    Passed Time World :=
  match running.machine.catchUp now with
  | .error fault => .over (.failed fault) running.machine running.world
  | .ok machine =>
      let world := host.perform (.tone machine.core.registers.toneActive) running.world
      if Scalar.less now running.due then
        .again ⟨machine, running.due, host.perform (.sleep (running.due - now)) world⟩
      else spendSlot host ⟨machine, machine.nextDue running.due now, world⟩

def pass (host : Host Time World) (limit : Option Int) (running : Running Time World) :
    Passed Time World :=
  let machine := running.machine
  if machine.halted || machine.limitReached limit then .over .finished machine running.world
  else
    let (events, polled) := host.poll running.world
    let received := machine.receive events
    let world := host.performAll received.effects polled
    match received.attempt with
    | .error fault after => .over (.failed fault) after world
    | .ok _ after =>
        if after.halted then .over .finished after world
        else match host.readClock world with
          | (none, left) => .over .interrupted after left
          | (some now, left) => passAt host ⟨after, running.due, left⟩ now

structure Finished (Time World : Type) where
  ending : Ending
  machine : Machine Time
  world : World

def endingEffects (machine : Machine Time) : Ending → List (Effect Time)
  | .finished =>
      [.log (.info ("Emulation halted after " ++ toString machine.core.cycles ++ " instructions"))]
  | _ => []

/-- The end of a run that got past its first clock reading: the tone is turned off. -/
def settle (host : Host Time World) (ending : Ending) (machine : Machine Time) (world : World) :
    Finished Time World :=
  ⟨ending, machine, host.performAll (.tone false :: machine.endingEffects ending) world⟩

def runFrom (host : Host Time World) (limit : Option Int) :
    (passes : Nat) → Running Time World → Finished Time World
  | 0, running => ⟨.unfinished, running.machine, running.world⟩
  | passes + 1, running =>
      match pass host limit running with
      | .again next => runFrom host limit passes next
      | .over ending machine world => settle host ending machine world

/-- The beginning of a run: the first frame, and the reading that the first slot is due
at. -/
def launch (host : Host Time World) (machine : Machine Time) (world : World) :
    Option Time × World :=
  host.readClock <| host.performAll
    [.log (.info "Emulation starting"), .render machine.core.frame] world

/-- Run a machine until it halts, fails, is interrupted or has carried out as many
instructions as the limit says, within a number of passes. -/
def run (host : Host Time World) (limit : Option Int) (passes : Nat)
    (machine : Machine Time) (world : World) : Finished Time World :=
  match launch host machine world with
  | (none, left) => ⟨.interrupted, machine, left⟩
  | (some now, left) => runFrom host limit passes ⟨machine, now, left⟩

def abort (host : Host Time World) (fault : Fault) (machine : Machine Time) (world : World) :
    Finished Time World :=
  match launch host machine world with
  | (none, left) => ⟨.interrupted, machine, left⟩
  | (some _, left) => settle host (.failed fault) machine left

end Machine

end Chip8
