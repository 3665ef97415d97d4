import Chip8.Proofs.Scalar.Binary64

/-!
The order of binary64 numbers.

Every number but the one that is missing has an extent: the rational it stands for, or one beyond
all of these for an infinity. One number is less than another exactly when its extent is. What is
added to a number moves its extent in its own direction or not at all, however the sum is rounded
and wherever it overflows.
-/

namespace Chip8.Binary64

open Float.Model Float.Model.UnpackedFloat

/-- A number is zero, or it is finite and has the mantissa that it is made with. -/
theorem number_cases {motive : UnpackedFloat → Prop} (sign : Sign) (mantissa : ℕ) (exponent : ℤ)
    (zero : motive (.zero sign))
    (finite : ∀ positive, motive (.finite sign mantissa exponent positive)) :
    motive (number sign mantissa exponent) := by
  rcases Nat.eq_zero_or_pos mantissa with rfl | positive
  · exact zero
  · rw [number_of_pos sign exponent positive]
    exact finite positive

/-! ### Comparing canonical numbers -/

/-- Of two canonical numbers the one with the larger exponent is larger. -/
theorem Canonical.lt_of_exponent_lt {m₁ m₂ : ℕ} {e₁ e₂ : ℤ} (first : Canonical m₁ e₁)
    (second : Canonical m₂ e₂) (lower : e₁ < e₂) : (m₁ : ℚ) * 2 ^ e₁ < m₂ * 2 ^ e₂ := by
  have large : 2 ^ 52 ≤ m₂ := second.full.resolve_right (by have := first.low; omega)
  calc (m₁ : ℚ) * 2 ^ e₁ < 2 ^ 53 * 2 ^ e₁ :=
        mul_lt_mul_of_pos_right (by exact_mod_cast first.small) (by positivity)
    _ = 2 ^ 52 * 2 ^ (e₁ + 1) := by
        rw [zpow_add_one₀ two_ne_zero]
        ring
    _ ≤ 2 ^ 52 * 2 ^ e₂ :=
        mul_le_mul_of_nonneg_left (zpow_le_zpow_right₀ one_le_two (by omega)) (by positivity)
    _ ≤ m₂ * 2 ^ e₂ := mul_le_mul_of_nonneg_right (by exact_mod_cast large) (by positivity)

/-- Canonical magnitudes are ordered by their exponents, and then by their mantissas. -/
theorem Canonical.compare_eq_lt_iff {m₁ m₂ : ℕ} {e₁ e₂ : ℤ} (first : Canonical m₁ e₁)
    (second : Canonical m₂ e₂) :
    (compare e₁ e₂).then (compare m₁ m₂) = .lt ↔ (m₁ : ℚ) * 2 ^ e₁ < m₂ * 2 ^ e₂ := by
  rcases lt_trichotomy e₁ e₂ with lower | rfl | higher
  · rw [compare_lt_iff_lt.mpr lower]
    exact iff_of_true rfl (first.lt_of_exponent_lt second lower)
  · have unit : (0 : ℚ) < 2 ^ e₁ := by positivity
    rw [compare_eq_iff_eq.mpr rfl, mul_lt_mul_iff_left₀ unit, Nat.cast_lt]
    exact compare_lt_iff_lt
  · rw [compare_gt_iff_gt.mpr higher]
    exact iff_of_false Ordering.noConfusion (second.lt_of_exponent_lt first higher).le.not_gt

theorem compare_swap (m₁ m₂ : ℕ) (e₁ e₂ : ℤ) :
    ((compare e₁ e₂).then (compare m₁ m₂)).swap = (compare e₂ e₁).then (compare m₂ m₁) := by
  rw [Ordering.swap_then, Std.OrientedOrd.eq_swap (a := e₂), Std.OrientedOrd.eq_swap (a := m₂)]

theorem magnitude_pos {mantissa : ℕ} (positive : 0 < mantissa) (exponent : ℤ) :
    (0 : ℚ) < mantissa * 2 ^ exponent := by
  positivity

/-- One number is less than another exactly when the rational that it stands for is. -/
theorem number_lt_iff (s₁ s₂ : Sign) {m₁ m₂ : ℕ} {e₁ e₂ : ℤ} (first : Canonical m₁ e₁)
    (second : Canonical m₂ e₂) :
    (number s₁ m₁ e₁).lt (number s₂ m₂ e₂) = true ↔
      signed s₁ (m₁ * 2 ^ e₁) < signed s₂ (m₂ * 2 ^ e₂) := by
  have lt_iff : ∀ ordering : Ordering, (some ordering == some .lt) = true ↔ ordering = .lt := by
    intro ordering
    cases ordering <;> decide
  rcases Nat.eq_zero_or_pos m₁ with rfl | positive₁
  · rw [Nat.cast_zero, zero_mul, signed_zero]
    rcases Nat.eq_zero_or_pos m₂ with rfl | positive₂
    · rw [Nat.cast_zero, zero_mul, signed_zero]
      exact iff_of_false Bool.false_ne_true (lt_irrefl 0)
    · have some := magnitude_pos positive₂ e₂
      rw [number_of_pos s₂ e₂ positive₂]
      cases s₂ with
      | negative => exact iff_of_false Bool.false_ne_true (neg_neg_of_pos some).not_gt
      | positive => exact iff_of_true rfl some
  · have some := magnitude_pos positive₁ e₁
    rw [number_of_pos s₁ e₁ positive₁]
    rcases Nat.eq_zero_or_pos m₂ with rfl | positive₂
    · rw [Nat.cast_zero, zero_mul, signed_zero]
      cases s₁ with
      | negative => exact iff_of_true rfl (neg_neg_of_pos some)
      | positive => exact iff_of_false Bool.false_ne_true some.not_gt
    · have other := magnitude_pos positive₂ e₂
      rw [number_of_pos s₂ e₂ positive₂]
      cases s₁ with
      | negative =>
          cases s₂ with
          | negative =>
              refine (lt_iff _).trans ?_
              rw [compare_swap, second.compare_eq_lt_iff first]
              exact neg_lt_neg_iff.symm
          | positive => exact iff_of_true rfl ((neg_neg_of_pos some).trans other)
      | positive =>
          cases s₂ with
          | negative =>
              exact iff_of_false Bool.false_ne_true ((neg_neg_of_pos other).trans some).not_gt
          | positive => exact (lt_iff _).trans (first.compare_eq_lt_iff second)

/-! ### Extents -/

/-- Where an unpacked number lies among the others. -/
def extentOf? : UnpackedFloat → Option ℚ
  | .infinity sign => some (signed sign (2 ^ (1024 : ℤ)))
  | number => valueOf? number

/-- Where a number lies among the others. -/
def extent? (number : Float) : Option ℚ :=
  extentOf? number.toModel.unpack

theorem extentOf?_number (sign : Sign) (mantissa : ℕ) (exponent : ℤ) :
    extentOf? (number sign mantissa exponent) = some (signed sign (mantissa * 2 ^ exponent)) := by
  rw [← valueOf?_number]
  exact number_cases (motive := fun x => extentOf? x = valueOf? x) sign mantissa exponent rfl
    fun _ => rfl

/-- A number is missing, or infinite, or it has a canonical mantissa. -/
theorem unpack_kinds (float : Float) :
    float.toModel.unpack = .notANumber ∨ (∃ sign, float.toModel.unpack = .infinity sign) ∨
      ∃ sign mantissa exponent, Canonical mantissa exponent ∧ exponent ≤ 971 ∧
        float.toModel.unpack = number sign mantissa exponent := by
  cases present : value? float with
  | some x =>
      obtain ⟨sign, mantissa, exponent, canonical, fits, read, _⟩ := unpack_of_value? present
      exact Or.inr (Or.inr ⟨sign, mantissa, exponent, canonical, fits, read⟩)
  | none =>
      unfold value? at present
      cases read : float.toModel.unpack with
      | notANumber => exact Or.inl rfl
      | infinity sign => exact Or.inr (Or.inl ⟨sign, rfl⟩)
      | zero sign =>
          rw [read] at present
          cases present
      | finite sign mantissa exponent positive =>
          rw [read] at present
          cases present

theorem Canonical.below_infinity {mantissa : ℕ} {exponent : ℤ}
    (canonical : Canonical mantissa exponent) (fits : exponent ≤ 971) :
    (mantissa : ℚ) * 2 ^ exponent < 2 ^ (1024 : ℤ) :=
  calc (mantissa : ℚ) * 2 ^ exponent < 2 ^ 53 * 2 ^ exponent :=
        mul_lt_mul_of_pos_right (by exact_mod_cast canonical.small) (by positivity)
    _ ≤ 2 ^ 53 * 2 ^ (971 : ℤ) :=
        mul_le_mul_of_nonneg_left (zpow_le_zpow_right₀ one_le_two fits) (by positivity)
    _ = 2 ^ (1024 : ℤ) := by rw [← zpow_natCast, ← zpow_add₀ two_ne_zero]; norm_num

theorem Canonical.infinity_le {mantissa : ℕ} {exponent : ℤ}
    (canonical : Canonical mantissa exponent) (large : 971 < exponent) :
    (2 : ℚ) ^ (1024 : ℤ) ≤ mantissa * 2 ^ exponent := by
  have full : 2 ^ 52 ≤ mantissa := canonical.full.resolve_right (by omega)
  calc (2 : ℚ) ^ (1024 : ℤ) = 2 ^ 52 * 2 ^ (972 : ℤ) := by
        rw [← zpow_natCast, ← zpow_add₀ two_ne_zero]
        norm_num
    _ ≤ 2 ^ 52 * 2 ^ exponent :=
        mul_le_mul_of_nonneg_left (zpow_le_zpow_right₀ one_le_two large) (by positivity)
    _ ≤ mantissa * 2 ^ exponent :=
        mul_le_mul_of_nonneg_right (by exact_mod_cast full) (by positivity)

theorem abs_number_lt (sign : Sign) {mantissa : ℕ} {exponent : ℤ}
    (canonical : Canonical mantissa exponent) (fits : exponent ≤ 971) :
    |signed sign (mantissa * 2 ^ exponent)| < 2 ^ (1024 : ℤ) := by
  rw [abs_signed (magnitude_nonneg _ _)]
  exact canonical.below_infinity fits

theorem infinity_lt_number (s₁ s₂ : Sign) {mantissa : ℕ} {exponent : ℤ}
    (canonical : Canonical mantissa exponent) (fits : exponent ≤ 971) :
    (infinity s₁).lt (number s₂ mantissa exponent) = true ↔
      signed s₁ (2 ^ (1024 : ℤ)) < signed s₂ (mantissa * 2 ^ exponent) := by
  have inside := abs_lt.mp (abs_number_lt s₂ canonical fits)
  have unfolded : (infinity s₁).lt (number s₂ mantissa exponent) =
      (infinity s₁).lt (.zero s₂) := by
    refine number_cases (motive := fun x => (infinity s₁).lt x = _) s₂ mantissa exponent rfl ?_
    intro positive
    cases s₁ <;> rfl
  rw [unfolded]
  cases s₁ with
  | negative => exact iff_of_true rfl inside.1
  | positive => exact iff_of_false Bool.false_ne_true inside.2.not_gt

theorem number_lt_infinity (s₁ s₂ : Sign) {mantissa : ℕ} {exponent : ℤ}
    (canonical : Canonical mantissa exponent) (fits : exponent ≤ 971) :
    (number s₁ mantissa exponent).lt (infinity s₂) = true ↔
      signed s₁ (mantissa * 2 ^ exponent) < signed s₂ (2 ^ (1024 : ℤ)) := by
  have inside := abs_lt.mp (abs_number_lt s₁ canonical fits)
  have unfolded : (number s₁ mantissa exponent).lt (infinity s₂) =
      (UnpackedFloat.zero s₁).lt (infinity s₂) := by
    refine number_cases (motive := fun x => x.lt (infinity s₂) = _) s₁ mantissa exponent rfl ?_
    intro positive
    cases s₂ <;> rfl
  rw [unfolded]
  cases s₂ with
  | negative => exact iff_of_false Bool.false_ne_true inside.1.not_gt
  | positive => exact iff_of_true rfl inside.2

theorem infinity_lt_infinity (s₁ s₂ : Sign) :
    (infinity s₁).lt (infinity s₂) = true ↔
      signed s₁ (2 ^ (1024 : ℤ)) < signed s₂ (2 ^ (1024 : ℤ)) := by
  have positive : (0 : ℚ) < 2 ^ (1024 : ℤ) := by positivity
  have opposite := neg_neg_of_pos positive
  cases s₁ <;> cases s₂
  · exact iff_of_false (by decide) (lt_irrefl _)
  · exact iff_of_true (by decide) (opposite.trans positive)
  · exact iff_of_false (by decide) (opposite.trans positive).not_gt
  · exact iff_of_false (by decide) (lt_irrefl _)

theorem less_eq_lt (a b : Float) : Scalar.less a b = a.toModel.unpack.lt b.toModel.unpack := by
  change decide (decide (a.toModel.unpack.lt b.toModel.unpack = true) = true) = _
  rw [Bool.decide_eq_true, Bool.decide_eq_true]

/-- One number is less than another exactly when it lies before it. -/
theorem less_iff {a b : Float} :
    Scalar.less a b = true ↔ ∃ x y, extent? a = some x ∧ extent? b = some y ∧ x < y := by
  have both : ∀ {first second : UnpackedFloat} {x y : ℚ}, extentOf? first = some x →
      extentOf? second = some y → (first.lt second = true ↔ x < y) →
        (first.lt second = true ↔
          ∃ x y, extentOf? first = some x ∧ extentOf? second = some y ∧ x < y) := by
    intro first second x y isFirst isSecond same
    rw [same, isFirst, isSecond]
    constructor
    · exact fun order => ⟨x, y, rfl, rfl, order⟩
    · rintro ⟨_, _, ⟨⟩, ⟨⟩, order⟩
      exact order
  unfold extent?
  rw [less_eq_lt]
  rcases unpack_kinds a with missing | ⟨s₁, infinite⟩ | ⟨s₁, m₁, e₁, canonical₁, fits₁, read₁⟩
  · rw [missing]
    exact iff_of_false Bool.false_ne_true fun ⟨_, _, absent, _⟩ => Option.some_ne_none _ absent.symm
  · rw [infinite]
    rcases unpack_kinds b with missing | ⟨s₂, infinite⟩ | ⟨s₂, m₂, e₂, canonical₂, fits₂, read₂⟩
    · rw [missing]
      exact iff_of_false (by cases s₁ <;> exact Bool.false_ne_true)
        fun ⟨_, _, _, absent, _⟩ => Option.some_ne_none _ absent.symm
    · rw [infinite]
      exact both rfl rfl (infinity_lt_infinity s₁ s₂)
    · rw [read₂]
      exact both rfl (extentOf?_number ..) (infinity_lt_number s₁ s₂ canonical₂ fits₂)
  · rw [read₁]
    rcases unpack_kinds b with missing | ⟨s₂, infinite⟩ | ⟨s₂, m₂, e₂, canonical₂, fits₂, read₂⟩
    · rw [missing]
      refine iff_of_false ?_ fun ⟨_, _, _, absent, _⟩ => Option.some_ne_none _ absent.symm
      exact number_cases (motive := fun x => ¬ x.lt .notANumber = true) s₁ m₁ e₁
        Bool.false_ne_true fun _ => Bool.false_ne_true
    · rw [infinite]
      exact both (extentOf?_number ..) rfl (number_lt_infinity s₁ s₂ canonical₁ fits₁)
    · rw [read₂]
      exact both (extentOf?_number ..) (extentOf?_number ..)
        (number_lt_iff s₁ s₂ canonical₁ canonical₂)

/-- A number that is not less than another does not lie before it, if both are there. -/
theorem less_eq_false_iff {a b : Float} :
    Scalar.less a b = false ↔ ∀ x y, extent? a = some x → extent? b = some y → y ≤ x := by
  rw [← Bool.not_eq_true, less_iff]
  constructor
  · exact fun never x y first second => le_of_not_gt fun order => never ⟨x, y, first, second, order⟩
  · rintro always ⟨x, y, first, second, order⟩
    exact (always x y first second).not_gt order

/-! ### Sums -/

section Rounding

variable (sign : Sign) {mantissa : ℕ} {exponent : ℤ} {exact z : ℚ}

/-- Rounding does not go below a number that the exact result is not below. -/
theorem Near.ge_of_ge (near : Near exact z) (canonical : Canonical mantissa exponent)
    (above : signed sign (mantissa * 2 ^ exponent) ≤ exact) :
    signed sign (mantissa * 2 ^ exponent) ≤ z := by
  have nonneg := magnitude_nonneg mantissa exponent
  cases sign with
  | positive =>
      have grown : (mantissa : ℚ) * 2 ^ exponent ≤ |z| :=
        near.beyond mantissa exponent canonical.small canonical.low (le_abs.mpr (Or.inl above))
      rwa [abs_of_nonneg (near.nonneg (nonneg.trans above))] at grown
  | negative =>
      -- Below zero the magnitude of the exact result is the smaller one, so it must not grow.
      rcases le_total 0 exact with nonnegative | nonpositive
      · exact (neg_nonpos.mpr nonneg).trans (near.nonneg nonnegative)
      · have shrunk := near.within mantissa exponent canonical.small canonical.low
          (abs_le.mpr ⟨above, nonpositive.trans nonneg⟩)
        exact (abs_le.mp shrunk).1

/-- Rounding does not go above a number that the exact result is not above. -/
theorem Near.le_of_le (near : Near exact z) (canonical : Canonical mantissa exponent)
    (below : exact ≤ signed sign (mantissa * 2 ^ exponent)) :
    z ≤ signed sign (mantissa * 2 ^ exponent) := by
  have opposite := near.neg.ge_of_ge (-sign) canonical
    (by rw [signed_neg]; exact neg_le_neg below)
  rw [signed_neg] at opposite
  exact neg_le_neg_iff.mp opposite

/-- What is packed stays on its side of every number, also where it becomes an infinity. -/
theorem extent_pack (canonical : Canonical mantissa exponent) :
    ∃ z, extentOf? (Float.Model.pack (number sign mantissa exponent)).unpack = some z ∧
      ∀ x : ℚ, |x| < 2 ^ (1024 : ℤ) →
        (x ≤ signed sign (mantissa * 2 ^ exponent) → x ≤ z) ∧
          (signed sign (mantissa * 2 ^ exponent) ≤ x → z ≤ x) := by
  rcases le_or_gt exponent 971 with fits | large
  · rw [unpack_pack canonical fits, extentOf?_number]
    exact ⟨_, rfl, fun _ _ => ⟨id, id⟩⟩
  · have full : 2 ^ 52 ≤ mantissa := canonical.full.resolve_right (by omega)
    have positive : 0 < mantissa := by omega
    have packed : UnpackedFloat.pack Format.binary64 (number sign mantissa exponent) =
        packedInfinity Format.binary64 sign := by
      rw [number_of_pos sign exponent positive, pack_finite]
      dsimp only
      rw [if_pos (by omega)]
    have infinite : (Float.Model.pack (number sign mantissa exponent)).unpack = .infinity sign := by
      change UnpackedFloat.unpack Format.binary64 (UnpackedFloat.pack _ _) = _
      rw [packed]
      cases sign <;> rfl
    have beyond := canonical.infinity_le large
    rw [infinite]
    refine ⟨_, rfl, fun x inside => ?_⟩
    obtain ⟨lower, upper⟩ := abs_lt.mp inside
    cases sign with
    | positive => exact ⟨fun _ => upper.le, fun below => absurd (beyond.trans below) upper.not_ge⟩
    | negative =>
        have down := neg_le_neg beyond
        exact ⟨fun above => absurd (above.trans down) lower.not_ge, fun _ => lower.le⟩

end Rounding

/-- What a sum with a number that is there does to an extent. -/
theorem extent_sum {a : Float} {x : ℚ} (stands : extent? a = some x) (sign : Sign) {mantissa : ℕ}
    {exponent : ℤ} (canonical : Canonical mantissa exponent) :
    ∃ z, extentOf? (Float.Model.pack (UnpackedFloat.add Format.binary64 a.toModel.unpack
        (number sign mantissa exponent))).unpack = some z ∧
      (0 ≤ signed sign (mantissa * 2 ^ exponent) → x ≤ z) ∧
        (signed sign (mantissa * 2 ^ exponent) ≤ 0 → z ≤ x) := by
  unfold extent? at stands
  rcases unpack_kinds a with missing | ⟨s, infinite⟩ | ⟨s, m, e, here, fits, read⟩
  · rw [missing] at stands
    cases stands
  · have same : UnpackedFloat.add Format.binary64 (.infinity s)
        (number sign mantissa exponent) = .infinity s :=
      number_cases (motive := fun x => UnpackedFloat.add Format.binary64 (.infinity s) x = _)
        sign mantissa exponent rfl fun _ => rfl
    rw [infinite] at stands ⊢
    rw [same]
    refine ⟨x, ?_, fun _ => le_rfl, fun _ => le_rfl⟩
    rw [← stands]
    cases s <;> rfl
  · rw [read, extentOf?_number, Option.some.injEq] at stands
    obtain ⟨t, n, place, settled, result, near⟩ := add_rounded s sign here canonical
    obtain ⟨z, packed, sides⟩ := extent_pack t settled
    have inside := abs_number_lt s here fits
    rw [read, result, ← stands]
    refine ⟨z, packed, fun nonneg => ?_, fun nonpos => ?_⟩
    · exact (sides _ inside).1 (near.ge_of_ge s here (le_add_of_nonneg_right nonneg))
    · exact (sides _ inside).2 (near.le_of_le s here (add_le_of_nonpos_right nonpos))

section Arithmetic

variable {a b : Float} {x y : ℚ}

/-- Adding moves a number in the direction of what is added. -/
theorem extent_add (first : extent? a = some x) (second : value? b = some y) :
    ∃ z, extent? (a + b) = some z ∧ (0 ≤ y → x ≤ z) ∧ (y ≤ 0 → z ≤ x) := by
  obtain ⟨sign, mantissa, exponent, canonical, _, read, rfl⟩ := unpack_of_value? second
  have sum := extent_sum first sign canonical
  rw [← read] at sum
  exact sum

/-- Subtracting moves a number against the direction of what is subtracted. -/
theorem extent_sub (first : extent? a = some x) (second : value? b = some y) :
    ∃ z, extent? (a - b) = some z ∧ (0 ≤ y → z ≤ x) ∧ (y ≤ 0 → x ≤ z) := by
  obtain ⟨sign, mantissa, exponent, canonical, _, read, rfl⟩ := unpack_of_value? second
  obtain ⟨z, difference, up, down⟩ := extent_sum first (-sign) canonical
  rw [← neg_number, ← sub_eq_add, ← read] at difference
  rw [signed_neg] at up down
  exact ⟨z, difference, fun nonneg => down (neg_nonpos.mpr nonneg),
    fun nonpos => up (neg_nonneg.mpr nonpos)⟩

/-- What is added to a number that is missing is missing. -/
theorem extent_add_of_missing (missing : extent? a = none) (b : Float) :
    extent? (a + b) = none := by
  have read : a.toModel.unpack = .notANumber := by
    unfold extent? at missing
    rcases unpack_kinds a with read | ⟨s, infinite⟩ | ⟨s, m, e, _, _, read⟩
    · exact read
    · rw [infinite] at missing
      cases missing
    · rw [read, extentOf?_number] at missing
      cases missing
  have sum : extent? (a + b) = extentOf? (Float.Model.pack
      (UnpackedFloat.add Format.binary64 a.toModel.unpack b.toModel.unpack)).unpack := rfl
  have absent : UnpackedFloat.add Format.binary64 .notANumber b.toModel.unpack = .notANumber := by
    cases b.toModel.unpack <;> rfl
  rw [sum, read, absent]
  rfl

theorem short_small {n : ℤ} (nonneg : 0 ≤ n) (short : n ≤ 2 ^ 53) :
    |(n : ℚ)| ≤ 2 ^ (1023 : ℤ) := by
  rw [abs_of_nonneg (by exact_mod_cast nonneg)]
  calc (n : ℚ) ≤ 2 ^ (53 : ℤ) := by exact_mod_cast short
    _ ≤ 2 ^ (1023 : ℤ) := zpow_le_zpow_right₀ one_le_two (by norm_num)

/-- A ratio of short integers is there, and not below zero. -/
theorem ratio_nonneg {numerator denominator : ℤ} (nonneg : 0 ≤ numerator)
    (positive : 0 < denominator) (short : numerator ≤ 2 ^ 53) (otherShort : denominator ≤ 2 ^ 53) :
    ∃ z, value? (Scalar.ratio numerator denominator) = some z ∧ 0 ≤ z := by
  have small := short_small nonneg short
  obtain ⟨n, isNumerator, nearNumerator⟩ := ofInt_near numerator small
  obtain ⟨d, isDenominator, nearDenominator⟩ :=
    ofInt_near denominator (short_small positive.le otherShort)
  have nNonneg : 0 ≤ n := nearNumerator.nonneg (by exact_mod_cast nonneg)
  have dNonneg : 0 ≤ d := nearDenominator.nonneg (by exact_mod_cast positive.le)
  have whole : (1 : ℚ) ≤ denominator := by exact_mod_cast positive
  have least := nearDenominator.above 0 (by norm_num) (by
    rw [zpow_zero]
    exact whole.trans (le_abs_self _))
  rw [zpow_zero, abs_of_nonneg dNonneg] at least
  have bounded : |n / d| ≤ 2 ^ (1023 : ℤ) := by
    rw [abs_div, abs_of_nonneg dNonneg]
    exact (div_le_self (abs_nonneg n) least).trans (nearNumerator.below 1023 (by norm_num) small)
  obtain ⟨z, quotient, near⟩ :=
    div_near isNumerator isDenominator (zero_lt_one.trans_le least).ne' bounded
  exact ⟨z, quotient, near.nonneg (div_nonneg nNonneg dNonneg)⟩

theorem ofInt_zero : value? (Scalar.ofInt 0) = some 0 := by
  obtain ⟨z, stands, near⟩ := ofInt_near 0 (by norm_num)
  rw [stands, le_antisymm (near.nonpos (by norm_num)) (near.nonneg (by norm_num))]

end Arithmetic

end Chip8.Binary64
