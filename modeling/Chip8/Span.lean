/-!
Spans of a growable array.

A span is given by two positions, its start and its end. A negative position is
counted from the end of the array; then both are moved to the nearest position
that exists, and an end before the start is moved up to it. What a span holds
can be read, and can be replaced by other cells: the array grows when there are
more of them than the span had.
-/

namespace Chip8.Span

/-- The position of an array of `length` cells that `position` stands for. -/
def bound (length : Nat) (position : Int) : Nat :=
  if position < 0 then (position + length).toNat else min position.toNat length

variable {Cell : Type}

def read (cells : Array Cell) (start stop : Int) : Array Cell :=
  cells.extract (bound cells.size start) (bound cells.size stop)

/-- The array with the cells from `start` up to `stop` replaced by `content`. -/
def replace (cells : Array Cell) (start stop : Int) (content : Array Cell) : Array Cell :=
  let first := bound cells.size start
  let last := max first (bound cells.size stop)
  cells.extract 0 first ++ content ++ cells.extract last cells.size

theorem bound_le (length : Nat) (position : Int) : bound length position ≤ length := by
  unfold bound
  split <;> omega

theorem bound_of_le {length : Nat} {position : Int} (lower : 0 ≤ position)
    (upper : position ≤ length) : bound length position = position.toNat := by
  unfold bound
  split <;> omega

end Chip8.Span
