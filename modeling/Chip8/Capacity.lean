import Chip8.Fault

/-!
Capacity: how many cells a store can be asked for.

A number of cells may be any integer until a store is made. One that does not fit
a signed word of 64 bits is too large to be used at all, one beyond what a host has
room for is refused for want of memory, and a negative one is a mistake where cells
are counted one by one.
-/

namespace Chip8.Capacity

/-- The least number above those that fit a word; its negative is the least that does. -/
def range : Int := 0x8000000000000000

def limit : Int := 0x100000000

def fits (number : Int) : Bool :=
  -range ≤ number && number < range

/-- A number of cells that a host can be asked for; a negative one asks for none. -/
def room? (number : Int) : Except Fault Nat :=
  if !fits number then .error .tooLarge
  else if limit < number then .error .outOfMemory
  else .ok number.toNat

def cells? (number : Int) : Except Fault Nat := do
  let count ← room? number
  if number < 0 then .error .negativeCount else return count

theorem fits_iff {number : Int} : fits number = true ↔ -range ≤ number ∧ number < range := by
  unfold fits
  rw [Bool.and_eq_true, decide_eq_true_iff, decide_eq_true_iff]

/-- There can be as many cells as a number says exactly if a host has room for them. -/
theorem cells?_eq_ok_iff {number : Int} {count : Nat} :
    cells? number = .ok count ↔ number = count ∧ number ≤ limit := by
  unfold cells? room?
  by_cases fitting : fits number = true
  · have bounds := fits_iff.mp fitting
    simp only [fitting, Bool.not_true, Bool.false_eq_true, if_false]
    by_cases large : limit < number
    · simp only [large, if_true, bind, Except.bind, reduceCtorEq, false_iff]
      omega
    · by_cases negative : number < 0
      · simp only [large, negative, if_true, if_false, bind, Except.bind, reduceCtorEq, false_iff]
        omega
      · simp only [large, negative, if_false, bind, Except.bind, pure, Except.pure,
          Except.ok.injEq]
        omega
  · simp only [fitting, Bool.not_false, if_true, bind, Except.bind, reduceCtorEq, false_iff]
    intro small
    apply fitting
    rw [fits_iff]
    unfold range
    unfold limit at small
    omega

end Chip8.Capacity
