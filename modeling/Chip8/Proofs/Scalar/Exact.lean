import Mathlib.Data.Rat.Floor
import Mathlib.Tactic.Linarith
import Mathlib.Tactic.FieldSimp
import Mathlib.Tactic.Ring
import Chip8.Scalar.Exact

/-!
Exact scalars.

On rational numbers the operations on time are those of the numbers themselves: quotients by
anything but zero, integer parts, comparisons.
-/

namespace Chip8.Exact

theorem quotient_eq (dividend : ℚ) {divisor : ℚ} (nonzero : divisor ≠ 0) :
    Scalar.quotient dividend divisor = .ok (dividend / divisor) := by
  have positive : Scalar.isZero divisor = false := beq_eq_false_iff_ne.mpr nonzero
  unfold Scalar.quotient
  rw [positive]
  rfl

theorem less_iff (first second : ℚ) : Scalar.less first second = true ↔ first < second :=
  decide_eq_true_iff

theorem less_eq_false_iff (first second : ℚ) :
    Scalar.less first second = false ↔ second ≤ first := by
  rw [Bool.eq_false_iff, ne_eq, less_iff, not_lt]

theorem later_eq (first second : ℚ) : Scalar.later first second = max first second := by
  unfold Scalar.later
  split
  · next later => exact (max_eq_right ((less_iff first second).mp later).le).symm
  · next sooner =>
      rw [Bool.not_eq_true, less_eq_false_iff] at sooner
      exact (max_eq_left sooner).symm

theorem integerPart_of_nonneg {value : ℚ} (nonneg : 0 ≤ value) :
    Scalar.integerPart value = .ok ⌊value⌋ := by
  have floor : value.num.tdiv value.den = ⌊value⌋ := by
    rw [Int.tdiv_eq_ediv_of_nonneg (Rat.num_nonneg.mpr nonneg), Rat.floor_def']
  exact congrArg Except.ok floor

/-- Below one there is no positive integer part, however far below. -/
theorem integerPart_of_lt_one {value : ℚ} (small : value < 1) :
    ∃ whole, Scalar.integerPart value = .ok whole ∧ whole ≤ 0 := by
  by_cases nonneg : 0 ≤ value
  · refine ⟨_, integerPart_of_nonneg nonneg, ?_⟩
    exact Int.lt_add_one_iff.mp (Int.floor_lt.mpr (by exact_mod_cast small))
  · refine ⟨value.num.tdiv value.den, rfl, ?_⟩
    have down : 0 ≤ -value.num := neg_nonneg.mpr (Rat.num_nonpos.mpr (not_le.mp nonneg).le)
    have away := Int.tdiv_nonneg down (Int.natCast_nonneg value.den)
    rw [Int.neg_tdiv] at away
    exact neg_nonneg.mp away

end Chip8.Exact
