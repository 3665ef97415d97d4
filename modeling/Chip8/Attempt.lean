import Chip8.Fault

/-!
Attempts: operations that can fail and still leave a state behind.

Both outcomes carry the state. A failed operation keeps what it changed before
it failed, so the caller can look at the machine as the fault found it.
-/

namespace Chip8

/-- The outcome of an operation on a state: `ok` with its answer or `error` with
its fault, each with the state that is left. -/
abbrev Attempt (State Answer : Type) : Type :=
  EStateM.Result Fault State Answer

/-- What is left of a sequence that came to an end: both of its halves did. -/
theorem of_bind_ok {First Second : Type} {first : Except Fault First}
    {next : First → Except Fault Second} {result : Second}
    (done : first >>= next = .ok result) :
    ∃ value, first = .ok value ∧ next value = .ok result := by
  cases first with
  | error fault => cases done
  | ok value => exact ⟨value, rfl, done⟩

/-- What is left of a sequence that failed: its first half did, or else its second. -/
theorem of_bind_error {First Second : Type} {first : Except Fault First}
    {next : First → Except Fault Second} {fault : Fault}
    (failed : first >>= next = .error fault) :
    first = .error fault ∨ ∃ value, first = .ok value ∧ next value = .error fault := by
  cases first with
  | error found =>
      cases failed
      exact Or.inl rfl
  | ok value => exact Or.inr ⟨value, rfl, failed⟩

namespace Attempt

variable {State Whole Answer Part : Type}

def state : Attempt State Answer → State
  | .ok _ left => left
  | .error _ left => left

def result : Attempt State Answer → Except Fault Answer
  | .ok answer _ => .ok answer
  | .error fault _ => .error fault

def within (wrap : State → Whole) : Attempt State Answer → Attempt Whole Answer
  | .ok answer left => .ok answer (wrap left)
  | .error fault left => .error fault (wrap left)

/-- An operation that answers without a fault, or fails and changes nothing. -/
def ofExcept (before : State) : Except Fault (Answer × State) → Attempt State Answer
  | .ok (answer, after) => .ok answer after
  | .error fault => .error fault before

def forEach (take : State → Part → Attempt State Unit) (state : State) :
    List Part → Attempt State Unit
  | [] => .ok () state
  | part :: rest =>
      match take state part with
      | .ok _ next => forEach take next rest
      | .error fault left => .error fault left

@[simp] theorem state_ok (answer : Answer) (left : State) :
    state (.ok answer left : Attempt State Answer) = left := rfl

@[simp] theorem state_error (fault : Fault) (left : State) :
    state (.error fault left : Attempt State Answer) = left := rfl

@[simp] theorem result_ok (answer : Answer) (left : State) :
    result (.ok answer left : Attempt State Answer) = .ok answer := rfl

@[simp] theorem result_error (fault : Fault) (left : State) :
    result (.error fault left : Attempt State Answer) = .error fault := rfl

@[simp] theorem state_within (wrap : State → Whole) (attempt : Attempt State Answer) :
    state (attempt.within wrap) = wrap attempt.state := by
  cases attempt <;> rfl

@[simp] theorem result_within (wrap : State → Whole) (attempt : Attempt State Answer) :
    result (attempt.within wrap) = attempt.result := by
  cases attempt <;> rfl

@[simp] theorem forEach_nil (take : State → Part → Attempt State Unit) (state : State) :
    forEach take state [] = .ok () state := rfl

/-- What was taken before a part that fails stays; what follows it is not reached. -/
theorem forEach_cons_error {take : State → Part → Attempt State Unit} {state left : State}
    {part : Part} {fault : Fault} (rest : List Part)
    (failed : take state part = .error fault left) :
    forEach take state (part :: rest) = .error fault left := by
  simp only [forEach, failed]

theorem forEach_cons_ok {take : State → Part → Attempt State Unit} {state next : State}
    {part : Part} (rest : List Part) (taken : take state part = .ok () next) :
    forEach take state (part :: rest) = forEach take next rest := by
  simp only [forEach, taken]

/-! ### Operations that change nothing when they fail -/

variable {Value : Type} {before left : State}

theorem eq_of_ofExcept_error {found : Except Fault (Answer × State)} {fault : Fault}
    (failed : ofExcept before found = .error fault left) : left = before := by
  cases found with
  | error first =>
      cases failed
      rfl
  | ok outcome => cases failed

/-- An operation that only looks at a state leaves it as it was. -/
theorem state_ofExcept_map (before : State) (found : Except Fault Value) (say : Value → Answer) :
    (ofExcept before (found.map fun value => (say value, before))).state = before := by
  cases found <;> rfl

theorem eq_of_ofExcept_map_ok {found : Except Fault Value} {say : Value → Answer} {answer : Answer}
    (went : ofExcept before (found.map fun value => (say value, before)) = .ok answer left) :
    left = before := by
  have same := state_ofExcept_map before found say
  rw [went] at same
  exact same

end Attempt

end Chip8
