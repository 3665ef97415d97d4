import Mathlib.Algebra.Order.Field.Power
import Mathlib.Algebra.Order.Ring.Abs
import Mathlib.Tactic.FieldSimp
import Mathlib.Tactic.Linarith
import Mathlib.Tactic.Positivity
import Mathlib.Tactic.Ring
import Chip8.Scalar.Binary64

/-!
Rounding to binary64.

Whatever is rounded stays on its side of zero and of every magnitude that is a number itself, the
powers of two among them: of two neighbours the one is chosen that lies no further than the
magnitude. This is all that the timers ask of their arithmetic. It bounds every sum and every
quotient, and it does not depend on how ties are broken.
-/

namespace Chip8.Binary64

open Float.Model Float.Model.UnpackedFloat

/-- One number stands for another: it lies on the same side of zero and of every magnitude that has
a mantissa of 53 places, down to the least number above zero. -/
structure Near (exact rounded : ℚ) : Prop where
  nonneg : 0 ≤ exact → 0 ≤ rounded
  nonpos : exact ≤ 0 → rounded ≤ 0
  within : ∀ (m : ℕ) (e : ℤ), m < 2 ^ 53 → -1074 ≤ e →
    |exact| ≤ m * 2 ^ e → |rounded| ≤ m * 2 ^ e
  beyond : ∀ (m : ℕ) (e : ℤ), m < 2 ^ 53 → -1074 ≤ e →
    m * 2 ^ e ≤ |exact| → m * 2 ^ e ≤ |rounded|

namespace Near

variable {x y z : ℚ}

theorem refl (x : ℚ) : Near x x where
  nonneg := id
  nonpos := id
  within _ _ _ _ := id
  beyond _ _ _ _ := id

theorem trans (first : Near x y) (second : Near y z) : Near x z where
  nonneg nonneg := second.nonneg (first.nonneg nonneg)
  nonpos nonpos := second.nonpos (first.nonpos nonpos)
  within m e short low bound := second.within m e short low (first.within m e short low bound)
  beyond m e short low bound := second.beyond m e short low (first.beyond m e short low bound)

theorem neg (near : Near x y) : Near (-x) (-y) where
  nonneg nonneg := neg_nonneg.mpr (near.nonpos (neg_nonneg.mp nonneg))
  nonpos nonpos := neg_nonpos.mpr (near.nonneg (neg_nonpos.mp nonpos))
  within m e short low bound := by
    rw [abs_neg] at bound ⊢
    exact near.within m e short low bound
  beyond m e short low bound := by
    rw [abs_neg] at bound ⊢
    exact near.beyond m e short low bound

theorem below (near : Near x y) (k : ℤ) (low : -1074 ≤ k) (bound : |x| ≤ 2 ^ k) :
    |y| ≤ 2 ^ k := by
  have power := near.within 1 k (by norm_num) low
  rw [Nat.cast_one, one_mul] at power
  exact power bound

theorem above (near : Near x y) (k : ℤ) (low : -1074 ≤ k) (bound : 2 ^ k ≤ |x|) :
    2 ^ k ≤ |y| := by
  have power := near.beyond 1 k (by norm_num) low
  rw [Nat.cast_one, one_mul] at power
  exact power bound

theorem pos_of_pos (near : Near x y) (positive : 0 < y) : 0 < x :=
  lt_of_not_ge fun nonpos => absurd (near.nonpos nonpos) (not_le.mpr positive)

end Near

/-! ### Mantissas with residual bits -/

/-- A magnitude, counted in units of the last place, lies from a mantissa up to the next one,
and beyond the mantissa if a residual bit is left of it. -/
structure Covers (extended : ExtendedMantissa) (units : ℚ) : Prop where
  lower : extended.mantissa ≤ units
  upper : units < extended.mantissa + 1
  beyond : extended.roundBit = true ∨ extended.stickyBit = true → extended.mantissa < units

namespace Covers

variable {extended : ExtendedMantissa} {units : ℚ}

theorem exact (mantissa : ℕ) :
    Covers (ExtendedMantissa.ofMantissaAndAccuracy mantissa .exact) mantissa where
  lower := le_refl _
  upper := lt_add_one _
  beyond left := by rcases left with left | left <;> cases left

theorem shiftOne (covers : Covers extended units) : Covers extended.shiftRightOne (units / 2) := by
  obtain ⟨mantissa, round, sticky⟩ := extended
  obtain ⟨lower, upper, beyond⟩ := covers
  have split : (mantissa : ℚ) = 2 * (mantissa / 2 : ℕ) + (mantissa % 2 : ℕ) := by
    exact_mod_cast (Nat.div_add_mod mantissa 2).symm
  have last : (mantissa % 2 : ℕ) = (0 : ℚ) ∨ (mantissa % 2 : ℕ) = (1 : ℚ) := by
    exact_mod_cast Nat.mod_two_eq_zero_or_one mantissa
  dsimp only at lower upper beyond
  constructor
  · change ((mantissa / 2 : ℕ) : ℚ) ≤ units / 2
    rcases last with last | last <;> linarith
  · change units / 2 < ((mantissa / 2 : ℕ) : ℚ) + 1
    rcases last with last | last <;> linarith
  · intro left
    change ((mantissa / 2 : ℕ) : ℚ) < units / 2
    rcases left with odd | left
    · -- The bit that moved out makes up for the place that was lost.
      have odd : mantissa % 2 ≠ 0 := by simpa [ExtendedMantissa.shiftRightOne] using odd
      have last : ((mantissa % 2 : ℕ) : ℚ) = 1 := by
        exact_mod_cast (Nat.mod_two_eq_zero_or_one mantissa).resolve_left odd
      linarith
    · have above := beyond (by simpa [ExtendedMantissa.shiftRightOne] using left)
      rcases last with last | last <;> linarith

theorem shift (covers : Covers extended units) (places : ℕ) :
    Covers (extended >>> places) (units / 2 ^ places) := by
  change Covers (places.repeat ExtendedMantissa.shiftRightOne extended) _
  induction places with
  | zero => simpa [Nat.repeat] using covers
  | succ places ih =>
      rw [Nat.repeat, pow_succ, ← div_div]
      exact ih.shiftOne

/-- Rounding leads to the mantissa itself, or to the next one if the magnitude is beyond. -/
theorem rounded_cases (covers : Covers extended units) :
    extended.roundedMantissa = extended.mantissa ∨
      extended.roundedMantissa = extended.mantissa + 1 ∧ extended.mantissa < units := by
  obtain ⟨mantissa, round, sticky⟩ := extended
  cases round with
  | false => cases sticky <;> exact Or.inl rfl
  | true =>
      have above : (mantissa : ℚ) < units := covers.beyond (Or.inl rfl)
      cases sticky with
      | true => exact Or.inr ⟨rfl, above⟩
      | false =>
          change mantissa + mantissa % 2 = mantissa ∨ mantissa + mantissa % 2 = mantissa + 1 ∧ _
          rcases Nat.mod_two_eq_zero_or_one mantissa with even | odd
          · exact Or.inl (by omega)
          · exact Or.inr ⟨by omega, above⟩

theorem rounded_le (covers : Covers extended units) {bound : ℕ} (below : units ≤ bound) :
    extended.roundedMantissa ≤ bound := by
  rcases covers.rounded_cases with same | ⟨next, above⟩
  · rw [same]
    exact_mod_cast covers.lower.trans below
  · rw [next]
    exact_mod_cast above.trans_le below

theorem le_rounded (covers : Covers extended units) {bound : ℕ} (above : bound ≤ units) :
    bound ≤ extended.roundedMantissa := by
  have least : bound ≤ extended.mantissa := by
    have within : (bound : ℚ) < extended.mantissa + 1 := above.trans_lt covers.upper
    exact Nat.lt_succ_iff.mp (by exact_mod_cast within)
  rcases covers.rounded_cases with same | ⟨next, _⟩ <;> omega

end Covers

/-! ### Rounding a magnitude -/

/-- A mantissa that fills its 53 places, or one of fewer places at the least exponent. -/
structure Canonical (mantissa : ℕ) (exponent : ℤ) : Prop where
  small : mantissa < 2 ^ 53
  low : -1074 ≤ exponent
  full : 2 ^ 52 ≤ mantissa ∨ exponent = -1074

/-- The number with a mantissa that may be zero. -/
def number (sign : Sign) (mantissa : ℕ) (exponent : ℤ) : UnpackedFloat :=
  if positive : 0 < mantissa then .finite sign mantissa exponent positive else .zero sign

theorem number_of_pos (sign : Sign) {mantissa : ℕ} (exponent : ℤ) (positive : 0 < mantissa) :
    number sign mantissa exponent = .finite sign mantissa exponent positive :=
  dif_pos positive

theorem targetExponent_eq (mantissa : ℕ) (exponent : ℤ) :
    Format.binary64.targetExponent (totalExponent mantissa exponent) =
      max (mantissa.log2 + exponent - 52) (-1074) := by
  have least : Format.binary64.minExponent = -1074 := rfl
  have places : (Format.binary64.mantissaBits : ℤ) = 53 := rfl
  unfold Format.targetExponent totalExponent
  rw [least, places]
  omega

theorem shift_mantissa (extended : ExtendedMantissa) (places : ℕ) :
    (extended >>> places).mantissa = extended.mantissa / 2 ^ places := by
  change (places.repeat ExtendedMantissa.shiftRightOne extended).mantissa = _
  induction places with
  | zero => simp [Nat.repeat]
  | succ places ih =>
      change (places.repeat ExtendedMantissa.shiftRightOne extended).mantissa / 2 = _
      rw [ih, Nat.div_div_eq_div_mul, pow_succ]

theorem mantissa_ofMantissaAndAccuracy (mantissa : ℕ) (accuracy : Accuracy) :
    (ExtendedMantissa.ofMantissaAndAccuracy mantissa accuracy).mantissa = mantissa := by
  cases accuracy with
  | exact => rfl
  | inexact order => cases order <;> rfl

/-- What the first of the two shifts of a rounding leads to: at most 53 places, and as many
as that unless the exponent is the least one. -/
theorem shiftToTargetExponent_eq {mantissa : ℕ} {exponent : ℤ} (accuracy : Accuracy)
    (ample : 2 ^ 52 ≤ mantissa ∨ exponent ≤ -1074) :
    ∃ places : ℕ,
      shiftToTargetExponent Format.binary64 mantissa exponent accuracy =
          (ExtendedMantissa.ofMantissaAndAccuracy mantissa accuracy >>> places,
            exponent + places) ∧
        Canonical (mantissa / 2 ^ places) (exponent + places) := by
  refine ⟨(max (mantissa.log2 + exponent - 52) (-1074) - exponent).toNat, ?_, ?_⟩
  · unfold shiftToTargetExponent shiftToExponent
    rw [targetExponent_eq]
  · generalize isTarget : max (mantissa.log2 + exponent - 52) (-1074) = target
    generalize isPlaces : (target - exponent).toNat = places
    have fits : mantissa / 2 ^ places < 2 ^ 53 := by
      rw [Nat.div_lt_iff_lt_mul (by positivity), ← pow_add]
      exact Nat.lt_log2_self.trans_le (Nat.pow_le_pow_right two_pos (by omega))
    have filled : 2 ^ 52 ≤ mantissa → 52 ≤ mantissa.log2 := by
      intro large
      exact (Nat.le_log2 (by omega)).mpr large
    have reached : exponent + places = target := by
      rcases ample with large | low
      · have := filled large
        omega
      · omega
    refine ⟨fits, by omega, ?_⟩
    by_cases least : target = -1074
    · exact Or.inr (reached.trans least)
    · left
      have large : 52 + places = mantissa.log2 := by omega
      rw [Nat.le_div_iff_mul_le (by positivity), ← pow_add, large]
      apply Nat.log2_self_le
      rintro rfl
      rw [Nat.log2_zero] at large
      omega

/-- The second shift only takes up a carry out of the highest place. -/
theorem shift_carry {mantissa : ℕ} {exponent : ℤ} (fits : mantissa ≤ 2 ^ 53)
    (low : -1074 ≤ exponent) (full : 2 ^ 52 ≤ mantissa ∨ exponent = -1074) :
    ∃ extended carried,
      shiftToTargetExponent Format.binary64 mantissa exponent .exact = (extended, carried) ∧
        Canonical extended.mantissa carried ∧
        (extended.mantissa : ℚ) * 2 ^ carried = mantissa * 2 ^ exponent := by
  refine ⟨_, _, rfl, ?_⟩
  rw [targetExponent_eq, shift_mantissa, mantissa_ofMantissaAndAccuracy]
  rcases fits.lt_or_eq with small | carry
  · have places : mantissa.log2 ≤ 52 := by
      by_cases zero : mantissa = 0
      · simp [zero]
      · exact Nat.lt_succ_iff.mp ((Nat.log2_lt zero).mpr small)
    have none : (max (mantissa.log2 + exponent - 52) (-1074) - exponent).toNat = 0 := by omega
    rw [none, pow_zero, Nat.div_one, Nat.cast_zero, add_zero]
    exact ⟨⟨small, low, full⟩, rfl⟩
  · have one : (max (mantissa.log2 + exponent - 52) (-1074) - exponent).toNat = 1 := by
      rw [carry, Nat.log2_two_pow]
      omega
    rw [one, carry]
    refine ⟨⟨by norm_num, by omega, Or.inl (by norm_num)⟩, ?_⟩
    rw [Nat.cast_one, zpow_add_one₀ two_ne_zero]
    norm_num
    ring

/-- A mantissa that was rounded in its place lies on the same side of every number. -/
theorem Covers.rounded_number {extended : ExtendedMantissa} {units : ℚ}
    (covers : Covers extended units) {place e : ℤ} {m : ℕ}
    (full : 2 ^ 52 ≤ extended.mantissa ∨ place = -1074) (short : m < 2 ^ 53) (least : -1074 ≤ e) :
    (units * 2 ^ place ≤ m * 2 ^ e → (extended.roundedMantissa : ℚ) * 2 ^ place ≤ m * 2 ^ e) ∧
      (m * 2 ^ e ≤ units * 2 ^ place → m * 2 ^ e ≤ (extended.roundedMantissa : ℚ) * 2 ^ place) := by
  have unit : (0 : ℚ) < 2 ^ place := by positivity
  by_cases above : place ≤ e
  · -- The number is a whole number of units.
    obtain ⟨n, rfl⟩ : ∃ n : ℕ, e = n + place := ⟨(e - place).toNat, by omega⟩
    have whole : (m : ℚ) * 2 ^ ((n : ℤ) + place) = ((m * 2 ^ n : ℕ) : ℚ) * 2 ^ place := by
      rw [zpow_add₀ two_ne_zero, zpow_natCast]
      push_cast
      ring
    rw [whole, mul_le_mul_iff_left₀ unit, mul_le_mul_iff_left₀ unit, mul_le_mul_iff_left₀ unit,
      mul_le_mul_iff_left₀ unit]
    constructor
    · intro below
      exact_mod_cast covers.rounded_le below
    · intro above
      exact_mod_cast covers.le_rounded above
  · -- The number is less than the mantissa, which fills its places.
    have large : 2 ^ 52 ≤ extended.mantissa := full.resolve_right (by omega)
    have largeRounded : 2 ^ 52 ≤ extended.roundedMantissa :=
      covers.le_rounded (le_trans (by exact_mod_cast large) covers.lower)
    have under : (m : ℚ) * 2 ^ e < 2 ^ 52 * 2 ^ place :=
      calc (m : ℚ) * 2 ^ e < 2 ^ 53 * 2 ^ e :=
            mul_lt_mul_of_pos_right (by exact_mod_cast short) (by positivity)
        _ = 2 ^ 52 * 2 ^ (e + 1) := by
            rw [zpow_add_one₀ two_ne_zero]
            ring
        _ ≤ 2 ^ 52 * 2 ^ place :=
            mul_le_mul_of_nonneg_left (zpow_le_zpow_right₀ one_le_two (by omega)) (by positivity)
    have reaches : ∀ {mantissa : ℚ}, 2 ^ 52 ≤ mantissa → m * 2 ^ e < mantissa * 2 ^ place :=
      fun filled => under.trans_le (mul_le_mul_of_nonneg_right filled unit.le)
    constructor
    · intro below
      have beyond := reaches (le_trans (by exact_mod_cast large) covers.lower)
      exact absurd below (not_le.mpr beyond)
    · intro _
      exact (reaches (by exact_mod_cast largeRounded)).le

/-- A rounded magnitude is a number again, and on the same side of every number. -/
theorem roundWithAccuracy_eq (sign : Sign) {mantissa : ℕ} {exponent : ℤ} {accuracy : Accuracy}
    {units : ℚ} (covers : Covers (ExtendedMantissa.ofMantissaAndAccuracy mantissa accuracy) units)
    (ample : 2 ^ 52 ≤ mantissa ∨ exponent ≤ -1074) :
    ∃ rounded place,
      roundWithAccuracy Format.binary64 sign mantissa exponent accuracy =
          number sign rounded place ∧
        Canonical rounded place ∧
        ∀ (m : ℕ) (e : ℤ), m < 2 ^ 53 → -1074 ≤ e →
          (units * 2 ^ exponent ≤ m * 2 ^ e → (rounded : ℚ) * 2 ^ place ≤ m * 2 ^ e) ∧
            (m * 2 ^ e ≤ units * 2 ^ exponent → m * 2 ^ e ≤ (rounded : ℚ) * 2 ^ place) := by
  obtain ⟨places, shifted, fits, low, full⟩ := shiftToTargetExponent_eq accuracy ample
  have covered := covers.shift places
  generalize isFirst : ExtendedMantissa.ofMantissaAndAccuracy mantissa accuracy >>> places = first
    at shifted covered
  have floor : mantissa / 2 ^ places = first.mantissa := by
    rw [← isFirst, shift_mantissa, mantissa_ofMantissaAndAccuracy]
  rw [floor] at fits full
  generalize isReached : exponent + (places : ℤ) = reached at shifted low full
  -- The magnitude in units of the place that it is rounded to.
  generalize inUnits : units / 2 ^ places = y at covered
  have scaled : units * 2 ^ exponent = y * 2 ^ reached := by
    rw [← inUnits, ← isReached, zpow_add₀ two_ne_zero, zpow_natCast]
    field_simp
  have bounded : first.roundedMantissa ≤ 2 ^ 53 := by
    rcases covered.rounded_cases with same | ⟨next, _⟩ <;> omega
  have filled : 2 ^ 52 ≤ first.roundedMantissa ∨ reached = -1074 := by
    rcases full with large | least
    · left
      rcases covered.rounded_cases with same | ⟨next, _⟩ <;> omega
    · exact Or.inr least
  obtain ⟨settled, carried, isSettled, canonical, same⟩ := shift_carry bounded low filled
  refine ⟨settled.mantissa, carried, ?_, canonical, ?_⟩
  · unfold roundWithAccuracy number
    rw [shifted]
    dsimp only
    rw [isSettled]
    dsimp only
    by_cases zero : settled.mantissa = 0
    · rw [dif_pos zero, dif_neg (by omega)]
    · rw [dif_neg zero, dif_pos (by omega)]
  · intro m e short least
    rw [scaled, same]
    exact covered.rounded_number full short least

end Chip8.Binary64
