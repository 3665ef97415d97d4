import Chip8.Attempt
import Chip8.Core
import Chip8.Log

/-!
Effects: what a machine asks of the world around it.

A machine never acts on the world. It answers a request with a new state and the
list of effects that its host is to bring about, in order.
-/

namespace Chip8

/-- What a window shows: the screen, and the registers as they were when it was
rendered. -/
structure Frame where
  screen : Screen
  registers : Registers
deriving DecidableEq, Repr

def Core.frame (core : Core) : Frame :=
  ⟨core.screen, core.registers⟩

inductive Effect (Time : Type)
  | log (record : Record)
  | render (frame : Frame)
  | tone (active : Bool)
  | sleep (duration : Time)
deriving Repr

structure Response (State Time Answer : Type) where
  attempt : Attempt State Answer
  effects : List (Effect Time)

namespace Response

variable {State Time Answer : Type}

def state (response : Response State Time Answer) : State :=
  response.attempt.state

def result (response : Response State Time Answer) : Except Fault Answer :=
  response.attempt.result

variable {response : Response State Time Answer} {answer : Answer} {fault : Fault} {left : State}

theorem state_of_ok (went : response.attempt = .ok answer left) : response.state = left := by
  rw [state, went, Attempt.state_ok]

theorem state_of_error (failed : response.attempt = .error fault left) :
    response.state = left := by
  rw [state, failed, Attempt.state_error]

theorem result_of_ok (went : response.attempt = .ok answer left) :
    response.result = .ok answer := by
  rw [result, went, Attempt.result_ok]

theorem result_of_error (failed : response.attempt = .error fault left) :
    response.result = .error fault := by
  rw [result, failed, Attempt.result_error]

end Response

end Chip8
