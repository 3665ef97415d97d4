import Chip8.Effect
import Chip8.Event
import Chip8.Scalar

/-!
Hosts: the world a machine runs in.

A host hands over events and clock readings, and brings effects about. Its own
state is threaded through all of these, so a run is a function of the machine, the
host and the state the host starts in. Reading the clock is also where an operator
can interrupt a run from outside.
-/

namespace Chip8

structure Host (Time World : Type) where
  poll : World → List Event × World
  /-- A reading of the clock, or none when the run is interrupted here. -/
  readClock : World → Option Time × World
  perform : Effect Time → World → World

/-- A clock: what reads its time, or interrupts the run instead, and what sleeps. -/
structure ClockSource (Time Clock : Type) where
  read : Clock → Option Time × Clock
  sleep : Clock → Time → Clock

namespace Host

variable {Time World : Type}

def performAll (host : Host Time World) (effects : List (Effect Time)) (world : World) : World :=
  effects.foldl (fun reached effect => host.perform effect reached) world

end Host

end Chip8
