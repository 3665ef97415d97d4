import Chip8.Host

/-!
Rehearsals: hosts that follow a script.

The clock of a rehearsal shows a time that moves on by a fixed amount at every
reading, and by the length of every sleep. The events of each poll are written down
beforehand, and a reading can be chosen at which the run is interrupted. What the
effects amount to is collected by a note taker.
-/

namespace Chip8

structure StagedClock (Time : Type) where
  now : Time
  tick : Time
  readings : Nat
  interruptedAt : Option Nat
deriving Repr

namespace StagedClock

variable {Time : Type} [Scalar Time]

def startingAt (start tick : Time) (interruptedAt : Option Nat) : StagedClock Time :=
  ⟨start, tick, 0, interruptedAt⟩

def read (clock : StagedClock Time) : Option Time × StagedClock Time :=
  let readings := clock.readings + 1
  if clock.interruptedAt = some readings then (none, { clock with readings })
  else (some clock.now, { clock with readings, now := clock.now + clock.tick })

def sleep (clock : StagedClock Time) (duration : Time) : StagedClock Time :=
  { clock with now := clock.now + duration }

/-- Let an effect pass the clock: only a sleep moves it. -/
def pass (clock : StagedClock Time) : Effect Time → StagedClock Time
  | .sleep duration => clock.sleep duration
  | _ => clock

def source : ClockSource Time (StagedClock Time) :=
  ⟨read, sleep⟩

end StagedClock

/-- The world of a rehearsal: its clock, the polls made so far and the notes taken. -/
structure Rehearsal (Time Notes : Type) where
  clock : StagedClock Time
  polls : Nat
  notes : Notes
deriving Repr

/-- A host that plays a script: the events of poll `k`, counted from one, are
`script k`. -/
def Rehearsal.host {Time Notes : Type} [Scalar Time] (script : Nat → List Event)
    (note : Effect Time → Notes → Notes) : Host Time (Rehearsal Time Notes) where
  poll world := (script (world.polls + 1), { world with polls := world.polls + 1 })
  readClock world :=
    let (reading, clock) := world.clock.read
    (reading, { world with clock })
  perform effect world :=
    { world with clock := world.clock.pass effect, notes := note effect world.notes }

end Chip8
