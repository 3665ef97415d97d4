import Chip8.Registers
import Chip8.Scalar

/-!
The timers: what counts the two timer registers down.

Ticks fall due at a fixed rate by the clock, whatever the speed of the machine.
Time that is left over from one update is carried into the next.
-/

namespace Chip8

structure Timers (Time : Type) where
  interval : Time
  last : Option Time
deriving Repr

namespace Timers

variable {Time : Type} [Scalar Time]

def ofRate (rate : Time) : Except Fault (Timers Time) := do
  let interval ← Scalar.quotient (Scalar.ofInt 1) rate
  return ⟨interval, none⟩

/-- The registers after a number of ticks. Both timers hold a byte, so ticks beyond
the 255th change nothing. -/
def tickAll (registers : Registers) (due : Int) : Registers :=
  (min due 255).toNat.repeat Registers.tick registers

/-- Count the ticks that have fallen due since the last update, and apply them. -/
def update (timers : Timers Time) (registers : Registers) (now : Time) :
    Except Fault (Int × Timers Time × Registers) :=
  match timers.last with
  | none => .ok (0, { timers with last := some now }, registers)
  | some last => do
      let elapsed ← Scalar.quotient (now - last) timers.interval
      let due ← Scalar.integerPart elapsed
      if due ≤ 0 then return (0, timers, registers)
      else
        return (due, { timers with last := some (last + Scalar.ofInt due * timers.interval) },
          tickAll registers due)

end Timers

end Chip8
