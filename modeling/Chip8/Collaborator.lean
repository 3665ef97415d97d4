import Chip8.Event
import Chip8.Fault

/-!
The collaborators of a machine and the requests each of them answers.

A collaborator that has not been filled in refuses its request, but can be closed.
A silent one does nothing and reports no events; with silent collaborators a
machine runs without a window.
-/

namespace Chip8

inductive Collaborator
  | renderer
  | speaker
  | input
deriving DecidableEq, Repr

inductive Request
  | render
  | setTone
  | poll
  | close
deriving DecidableEq, Repr

inductive Provision
  | missing
  | silent
deriving DecidableEq, Repr

def Collaborator.requests : Collaborator → List Request
  | renderer => [.render, .close]
  | speaker => [.setTone, .close]
  | input => [.poll, .close]

/-- The answer to a request: events for a poll, and nothing for the others. -/
def Provision.answer : Provision → Request → Except Fault (Option (List Event))
  | _, .close => .ok none
  | missing, _ => .error .unanswered
  | silent, .poll => .ok (some [])
  | silent, _ => .ok none

end Chip8
