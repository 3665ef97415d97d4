import Chip8.Registers

/-!
The return stack as a bounded list.

What lies below the pointer is a list, and pushing and popping do to it what they would do to a
list of at most as many addresses as there are slots: one appends unless the list is full, the
other hands out the last address unless there is none. Old values above the pointer have no part
in it, whatever was pushed, popped and refused before, and nothing else in the registers has.
-/

namespace Chip8

inductive StackCall
  | push (address : Int)
  | pop
deriving DecidableEq, Repr

/-- What a call does to a list that can hold `depth` addresses. -/
def StackCall.onList (depth : Nat) (stored : List Int) :
    StackCall → Attempt (List Int) (Option Int)
  | push address =>
      if stored.length = depth then .error (.stackOverflow stored.length) stored
      else .ok none (stored ++ [address])
  | pop =>
      match stored.getLast? with
      | none => .error .stackUnderflow stored
      | some address => .ok (some address) stored.dropLast

/-- What a list holds after some calls, whether or not they fail. -/
def StackCall.listAfter (depth : Nat) (stored : List Int) (calls : List StackCall) : List Int :=
  calls.foldl (fun reached call => (call.onList depth reached).state) stored

namespace ReturnStack

def take (stack : ReturnStack) : StackCall → Attempt ReturnStack (Option Int)
  | .push address =>
      match stack.push address with
      | .ok _ left => .ok none left
      | .error fault left => .error fault left
  | .pop =>
      match stack.pop with
      | .ok address left => .ok (some address) left
      | .error fault left => .error fault left

section Taking

variable {stack : ReturnStack}

theorem take_push_full (address : Int) (full : stack.slots.size ≤ stack.pointer) :
    stack.take (.push address) = .error (.stackOverflow stack.pointer) stack := by
  rw [take, push_full address full]

theorem take_push_of_room (address : Int) (nonneg : 0 ≤ stack.pointer)
    (room : stack.pointer.toNat < stack.slots.size) :
    stack.take (.push address) =
      .ok none ⟨stack.slots.set stack.pointer.toNat address, stack.pointer + 1⟩ := by
  rw [take, push_of_room address nonneg room]

theorem take_pop_empty (empty : stack.pointer = 0) :
    stack.take .pop = .error .stackUnderflow stack := by
  rw [take, pop_empty empty]

theorem take_pop_of_filled (positive : 0 < stack.pointer)
    (inside : (stack.pointer - 1).toNat < stack.slots.size) :
    stack.take .pop =
      .ok (some stack.slots[(stack.pointer - 1).toNat])
        { stack with pointer := stack.pointer - 1 } := by
  rw [take, pop_of_filled positive inside]

end Taking

/-- A stack with so many slots whose pointer stands at one of them or behind the last. -/
structure OfDepth (depth : Nat) (stack : ReturnStack) : Prop where
  slots : stack.slots.size = depth
  nonneg : 0 ≤ stack.pointer
  inside : stack.pointer ≤ depth

theorem ofDepth_ofDepth (depth : Nat) : (ofDepth depth).OfDepth depth where
  slots := Array.size_replicate
  nonneg := Int.le_refl 0
  inside := Int.natCast_nonneg depth

theorem addresses_ofDepth (depth : Nat) : (ofDepth depth).addresses = [] := by
  rw [ofDepth, addresses_of_nonneg (Int.le_refl 0)]
  exact List.take_zero

/-- What a call makes of a stack, seen as the list of the addresses below its pointer. -/
structure Takes (depth : Nat) (stack : ReturnStack) (call : StackCall) : Prop where
  onList : (stack.take call).within addresses = call.onList depth stack.addresses
  sized : (stack.take call).state.OfDepth depth
  unchanged : ∀ fault left, stack.take call = .error fault left → left = stack

namespace OfDepth

variable {depth : Nat} {stack : ReturnStack}

theorem length_addresses (sized : stack.OfDepth depth) :
    (stack.addresses.length : Int) = stack.pointer := by
  obtain ⟨slots, nonneg, inside⟩ := sized
  rw [addresses_of_nonneg nonneg, List.length_take, Array.length_toList]
  omega

/-- A call that the stack refuses leaves it as it was; the list refuses it too. -/
theorem takes_of_refused (sized : stack.OfDepth depth) {call : StackCall} {fault : Fault}
    (refused : stack.take call = .error fault stack)
    (onList : call.onList depth stack.addresses = .error fault stack.addresses) :
    Takes depth stack call where
  onList := by
    rw [refused, onList]
    rfl
  sized := by
    rw [refused]
    exact sized
  unchanged := by
    intro found left failed
    rw [refused] at failed
    cases failed
    rfl

theorem takes_push (sized : stack.OfDepth depth) (address : Int) :
    Takes depth stack (.push address) := by
  have length := sized.length_addresses
  have slots := sized.slots
  have nonneg := sized.nonneg
  by_cases full : stack.addresses.length = depth
  · apply sized.takes_of_refused (take_push_full address (by omega))
    rw [StackCall.onList, if_pos full, length]
  · have inside := sized.inside
    have room : stack.pointer.toNat < stack.slots.size := by omega
    have taken := take_push_of_room address nonneg room
    obtain ⟨pushed, pushes, appended⟩ := addresses_push address nonneg (by omega)
    rw [push_of_room address nonneg room] at pushes
    cases pushes
    refine ⟨?_, ⟨?_, ?_, ?_⟩, ?_⟩
    · rw [taken, StackCall.onList, if_neg full, ← appended]
      rfl
    · rw [taken, Attempt.state_ok, Array.size_set, slots]
    · rw [taken, Attempt.state_ok]
      change 0 ≤ stack.pointer + 1
      omega
    · rw [taken, Attempt.state_ok]
      change stack.pointer + 1 ≤ depth
      omega
    · intro fault left failed
      rw [taken] at failed
      cases failed

theorem takes_pop (sized : stack.OfDepth depth) : Takes depth stack .pop := by
  have slots := sized.slots
  have nonneg := sized.nonneg
  have inside := sized.inside
  by_cases empty : stack.pointer = 0
  · have nothing : stack.addresses = [] := by
      apply List.length_eq_zero_iff.mp
      have length := sized.length_addresses
      omega
    apply sized.takes_of_refused (take_pop_empty empty)
    rw [nothing]
    rfl
  · have filled : 0 < stack.pointer := by omega
    have place : (stack.pointer - 1).toNat < stack.slots.size := by omega
    have taken := take_pop_of_filled filled place
    obtain ⟨newest, popped, pops, ends⟩ := addresses_pop filled (by omega)
    rw [pop_of_filled filled place] at pops
    cases pops
    refine ⟨?_, ⟨?_, ?_, ?_⟩, ?_⟩
    · rw [taken, ends, StackCall.onList, List.getLast?_concat, List.dropLast_concat]
      rfl
    · rw [taken]
      exact slots
    · rw [taken, Attempt.state_ok]
      change 0 ≤ stack.pointer - 1
      omega
    · rw [taken, Attempt.state_ok]
      change stack.pointer - 1 ≤ depth
      omega
    · intro fault left failed
      rw [taken] at failed
      cases failed

/-- Every call does to the addresses below the pointer what it does to a list. -/
theorem takes (sized : stack.OfDepth depth) (call : StackCall) : Takes depth stack call := by
  cases call with
  | push address => exact sized.takes_push address
  | pop => exact sized.takes_pop

end OfDepth

end ReturnStack

/-! ### The stack among the registers -/

namespace Registers

def take (registers : Registers) : StackCall → Attempt Registers (Option Int)
  | .push address =>
      match registers.push address with
      | .ok _ left => .ok none left
      | .error fault left => .error fault left
  | .pop =>
      match registers.pop with
      | .ok address left => .ok (some address) left
      | .error fault left => .error fault left

/-- The registers after some calls, whether or not they fail. -/
def after (registers : Registers) (calls : List StackCall) : Registers :=
  calls.foldl (fun reached call => (reached.take call).state) registers

variable {depth : Nat} {registers : Registers}

/-- A call concerns the stack and no other register. -/
theorem take_eq (registers : Registers) (call : StackCall) :
    registers.take call =
      (registers.stack.take call).within fun stack => { registers with stack } := by
  cases call with
  | push address =>
      rw [take, push, ReturnStack.take]
      cases registers.stack.push address <;> rfl
  | pop =>
      rw [take, pop, ReturnStack.take]
      cases registers.stack.pop <;> rfl

theorem after_eq (sized : registers.stack.OfDepth depth) (calls : List StackCall) :
    (registers.after calls).stack.OfDepth depth ∧
      (registers.after calls).stack.addresses =
        StackCall.listAfter depth registers.stack.addresses calls ∧
      registers.after calls = { registers with stack := (registers.after calls).stack } := by
  induction calls generalizing registers with
  | nil => exact ⟨sized, rfl, rfl⟩
  | cons call later ih =>
      have takes := sized.takes call
      have left : (registers.take call).state =
          { registers with stack := (registers.stack.take call).state } := by
        rw [registers.take_eq call, Attempt.state_within]
      have listed : (registers.take call).state.stack.addresses =
          (call.onList depth registers.stack.addresses).state := by
        rw [left, ← takes.onList, Attempt.state_within]
      have others : ∀ stack, { (registers.take call).state with stack } =
          { registers with stack } := by
        intro stack
        rw [left]
      have kept : (registers.take call).state.stack.OfDepth depth := by
        rw [left]
        exact takes.sized
      obtain ⟨sizedLater, listedLater, othersLater⟩ := ih kept
      rw [listed] at listedLater
      exact ⟨sizedLater, listedLater, othersLater.trans (others _)⟩

theorem eq_of_take_error (sized : registers.stack.OfDepth depth) {call : StackCall} {fault : Fault}
    {left : Registers} (failed : registers.take call = .error fault left) : left = registers := by
  rw [registers.take_eq call] at failed
  cases taken : registers.stack.take call with
  | ok answer stack =>
      rw [taken] at failed
      cases failed
  | error found stack =>
      have same := (sized.takes call).unchanged found stack taken
      rw [taken, same] at failed
      cases failed
      rfl

theorem take_within_addresses (sized : registers.stack.OfDepth depth) (call : StackCall) :
    (registers.take call).within (fun left => left.stack.addresses) =
      call.onList depth registers.stack.addresses := by
  rw [registers.take_eq call, ← (sized.takes call).onList]
  cases registers.stack.take call <;> rfl

/-- New registers of any depth, after any pushes and pops: what lies below the pointer of the
stack is what a list of at most so many addresses holds after them, and nothing but the stack has
changed. The next call goes on the stack as it does on the list: it answers the same, fails for
the same reason, and leaves the same behind. One that fails leaves the registers as they were. -/
theorem stack_refines_bounded_list (depth : Nat) (calls : List StackCall) :
    let registers := (ofDepth depth).after calls
    let stored := StackCall.listAfter depth [] calls
    registers.stack.pointer = stored.length ∧
      registers.stack.addresses = stored ∧
      registers.stack.slots.size = depth ∧
      registers = { ofDepth depth with stack := registers.stack } ∧
      ∀ call,
        (registers.take call).within (fun left => left.stack.addresses) =
            call.onList depth stored ∧
          ∀ fault left, registers.take call = .error fault left → left = registers := by
  intro registers stored
  have new : (ofDepth depth).stack.OfDepth depth := ReturnStack.ofDepth_ofDepth depth
  have empty : (ofDepth depth).stack.addresses = [] := ReturnStack.addresses_ofDepth depth
  obtain ⟨sized, listed, others⟩ := after_eq new calls
  rw [empty] at listed
  refine ⟨?_, listed, sized.slots, others, ?_⟩
  · rw [← sized.length_addresses, listed]
  · intro call
    refine ⟨?_, fun fault left failed => eq_of_take_error sized failed⟩
    rw [take_within_addresses sized call, listed]

end Registers

end Chip8
