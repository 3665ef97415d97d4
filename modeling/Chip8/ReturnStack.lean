import Chip8.Attempt

/-!
The return stack: a row of slots and a pointer to the first free one.

What lies below the pointer are the stored return addresses. Slots above it keep
old values, which no operation hands out. The pointer can be placed anywhere from
outside; a slot below zero is then counted from the end, and one that does not
exist is a fault.
-/

namespace Chip8

structure ReturnStack where
  slots : Array Int
  pointer : Int
deriving DecidableEq, Repr

namespace ReturnStack

def ofDepth (depth : Nat) : ReturnStack :=
  ⟨Array.replicate depth 0, 0⟩

def slot? (stack : ReturnStack) (index : Int) : Option (Fin stack.slots.size) :=
  let position := if index < 0 then index + stack.slots.size else index
  if inside : 0 ≤ position ∧ position.toNat < stack.slots.size then
    some ⟨position.toNat, inside.2⟩
  else none

def addresses (stack : ReturnStack) : List Int :=
  (stack.slots.extract 0 (if stack.pointer < 0 then (stack.pointer + stack.slots.size).toNat
    else stack.pointer.toNat)).toList

/-- Put addresses into the first slots; those without a slot are dropped. -/
def fill (stack : ReturnStack) (addresses : List Int) : ReturnStack :=
  { stack with
    slots := stack.slots.mapIdx fun place old => addresses[place]?.getD old }

/-- Store an address, unless every slot is taken. -/
def push (stack : ReturnStack) (address : Int) : Attempt ReturnStack Unit :=
  if stack.slots.size ≤ stack.pointer then .error (.stackOverflow stack.pointer) stack
  else match stack.slot? stack.pointer with
    | some slot => .ok () ⟨stack.slots.set slot address, stack.pointer + 1⟩
    | none => .error .indexOutOfRange stack

/-- Hand out the newest address, unless there is none. -/
def pop (stack : ReturnStack) : Attempt ReturnStack Int :=
  if stack.pointer = 0 then .error .stackUnderflow stack
  else
    let lowered := { stack with pointer := stack.pointer - 1 }
    match lowered.slot? lowered.pointer with
    | some slot => .ok lowered.slots[slot] lowered
    | none => .error .indexOutOfRange lowered

/-! ### The stack as a list -/

theorem slot?_of_lt {stack : ReturnStack} {index : Int} (nonneg : 0 ≤ index)
    (inside : index.toNat < stack.slots.size) :
    stack.slot? index = some ⟨index.toNat, inside⟩ := by
  unfold slot?
  simp only [if_neg (Int.not_lt.mpr nonneg)]
  rw [dif_pos ⟨nonneg, inside⟩]

theorem push_full {stack : ReturnStack} (address : Int) (full : stack.slots.size ≤ stack.pointer) :
    stack.push address = .error (.stackOverflow stack.pointer) stack := by
  unfold push
  rw [if_pos full]

theorem push_of_room {stack : ReturnStack} (address : Int) (nonneg : 0 ≤ stack.pointer)
    (room : stack.pointer.toNat < stack.slots.size) :
    stack.push address =
      .ok () ⟨stack.slots.set stack.pointer.toNat address, stack.pointer + 1⟩ := by
  unfold push
  rw [if_neg (by omega), slot?_of_lt nonneg room]

/-- An empty stack has nothing to hand out and stays as it is. -/
theorem pop_empty {stack : ReturnStack} (empty : stack.pointer = 0) :
    stack.pop = .error .stackUnderflow stack := by
  unfold pop
  rw [if_pos empty]

theorem pop_of_filled {stack : ReturnStack} (positive : 0 < stack.pointer)
    (inside : (stack.pointer - 1).toNat < stack.slots.size) :
    stack.pop =
      .ok stack.slots[(stack.pointer - 1).toNat] { stack with pointer := stack.pointer - 1 } := by
  have found : slot? { stack with pointer := stack.pointer - 1 } (stack.pointer - 1) =
      some ⟨(stack.pointer - 1).toNat, inside⟩ := slot?_of_lt (by omega) inside
  unfold pop
  rw [if_neg (by omega)]
  simp only [found]
  rfl

theorem addresses_of_nonneg {slots : Array Int} {pointer : Int} (nonneg : 0 ≤ pointer) :
    addresses ⟨slots, pointer⟩ = slots.toList.take pointer.toNat := by
  unfold addresses
  rw [if_neg (Int.not_lt.mpr nonneg), Array.toList_extract, List.extract_eq_take_drop,
    List.drop_zero, Nat.sub_zero]

theorem addresses_push {stack : ReturnStack} (address : Int) (nonneg : 0 ≤ stack.pointer)
    (room : stack.pointer < stack.slots.size) :
    ∃ pushed, stack.push address = .ok () pushed ∧
      pushed.addresses = stack.addresses ++ [address] := by
  have place : stack.pointer.toNat < stack.slots.size := by omega
  have next : (stack.pointer + 1).toNat = stack.pointer.toNat + 1 := by omega
  refine ⟨_, push_of_room address nonneg place, ?_⟩
  rw [addresses_of_nonneg (by omega), addresses_of_nonneg nonneg, next, Array.toList_set,
    List.take_add_one, List.take_set_of_le (Nat.le_refl _),
    List.getElem?_set_self (by simpa using place)]
  rfl

theorem addresses_pop {stack : ReturnStack} (positive : 0 < stack.pointer)
    (inside : stack.pointer ≤ stack.slots.size) :
    ∃ address popped, stack.pop = .ok address popped ∧
      stack.addresses = popped.addresses ++ [address] := by
  have place : (stack.pointer - 1).toNat < stack.slots.size := by omega
  have next : stack.pointer.toNat = (stack.pointer - 1).toNat + 1 := by omega
  refine ⟨_, _, pop_of_filled positive place, ?_⟩
  rw [addresses_of_nonneg (by omega), addresses_of_nonneg (by omega), next,
    List.take_add_one, List.getElem?_eq_getElem (by simpa using place)]
  rfl

end ReturnStack

end Chip8
