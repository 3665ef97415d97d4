/-!
Events: what an operator does to a running machine.
-/

namespace Chip8

inductive Event
  | key (number : Int) (pressed : Bool)
  | quit
  | step
  | resume
  | unknown
deriving DecidableEq, Repr

end Chip8
