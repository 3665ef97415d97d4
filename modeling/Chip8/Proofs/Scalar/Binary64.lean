import Mathlib.Data.Nat.Cast.Order.Field
import Chip8.Proofs.Scalar.Rounding

/-!
The arithmetic of binary64 numbers.

A number that is neither infinite nor missing stands for a rational. Sums, differences,
products and quotients of such numbers stand for what is near the exact result, as long as
that is small enough to have a number near it at all.
-/

namespace Chip8.Binary64

open Float.Model Float.Model.UnpackedFloat

/-! ### What a number stands for -/

/-- A magnitude with its sign. -/
def signed : Sign → ℚ → ℚ
  | .negative, magnitude => -magnitude
  | .positive, magnitude => magnitude

theorem signed_zero (sign : Sign) : signed sign 0 = 0 := by
  cases sign with
  | negative => exact neg_zero
  | positive => rfl

theorem magnitude_nonneg (mantissa : ℕ) (exponent : ℤ) : (0 : ℚ) ≤ mantissa * 2 ^ exponent := by
  positivity

theorem abs_signed {sign : Sign} {magnitude : ℚ} (nonneg : 0 ≤ magnitude) :
    |signed sign magnitude| = magnitude := by
  cases sign with
  | negative => exact (abs_neg magnitude).trans (abs_of_nonneg nonneg)
  | positive => exact abs_of_nonneg nonneg

theorem near_signed (sign : Sign) {x z : ℚ} (positive : 0 < x) (nonneg : 0 ≤ z)
    (bounds : ∀ (m : ℕ) (e : ℤ), m < 2 ^ 53 → -1074 ≤ e →
      (x ≤ m * 2 ^ e → z ≤ m * 2 ^ e) ∧ (m * 2 ^ e ≤ x → m * 2 ^ e ≤ z)) :
    Near (signed sign x) (signed sign z) := by
  have near : Near x z := by
    constructor
    · exact fun _ => nonneg
    · intro nonpos
      exact absurd positive (not_lt.mpr nonpos)
    · intro m e short low below
      rw [abs_of_pos positive] at below
      rw [abs_of_nonneg nonneg]
      exact (bounds m e short low).1 below
    · intro m e short low above
      rw [abs_of_pos positive] at above
      rw [abs_of_nonneg nonneg]
      exact (bounds m e short low).2 above
  cases sign with
  | negative => exact near.neg
  | positive => exact near

/-- The rational that an unpacked number stands for. -/
def valueOf? : UnpackedFloat → Option ℚ
  | .zero _ => some 0
  | .finite sign mantissa exponent _ => some (signed sign (mantissa * 2 ^ exponent))
  | .infinity _ | .notANumber => none

/-- The rational that a number stands for. -/
def value? (number : Float) : Option ℚ :=
  valueOf? number.toModel.unpack

theorem valueOf?_number (sign : Sign) (mantissa : ℕ) (exponent : ℤ) :
    valueOf? (number sign mantissa exponent) = some (signed sign (mantissa * 2 ^ exponent)) := by
  rcases Nat.eq_zero_or_pos mantissa with rfl | positive
  · change some 0 = _
    rw [Nat.cast_zero, zero_mul, signed_zero]
  · rw [number_of_pos sign exponent positive]
    rfl

/-! ### Bits -/

section Bits

variable (bits : BitVec Format.binary64.numBits)

theorem toNat_unpackMantissa : (unpackMantissa bits).toNat = bits.toNat % fractionRange := by
  simp [unpackMantissa, fractionRange]

theorem toNat_unpackExponent :
    (unpackExponent bits).toNat = bits.toNat / fractionRange % 2048 := by
  simp [unpackExponent, fractionRange, Nat.shiftRight_eq_div_pow]

def signOf (bits : ℕ) : Sign :=
  if bits ≥ 2048 * fractionRange then .negative else .positive

theorem ofBitVec_unpackSign : Sign.ofBitVec (unpackSign bits) = signOf bits.toNat := by
  have top : (unpackSign bits).toNat = bits.toNat / 2 ^ 63 := by
    have below : bits.toNat < 2 ^ 64 := bits.isLt
    change (BitVec.extractLsb 63 63 bits).toNat = _
    rw [BitVec.extractLsb_toNat, Nat.shiftRight_eq_div_pow]
    omega
  have zero : unpackSign bits = 0#1 ↔ bits.toNat < 2048 * fractionRange := by
    rw [← BitVec.toNat_inj, top]
    unfold fractionRange
    simp
  unfold Sign.ofBitVec signOf
  by_cases negative : bits.toNat ≥ 2048 * fractionRange
  · rw [if_pos negative, if_neg (by rw [zero]; omega)]
  · rw [if_neg negative, if_pos (by rw [zero]; omega)]

/-- A number is read off its bits: the sign, the exponent and the fraction. -/
theorem unpack_eq :
    UnpackedFloat.unpack Format.binary64 bits =
      (let exponent := bits.toNat / fractionRange % 2048
       let fraction := bits.toNat % fractionRange
       let sign := signOf bits.toNat
       if exponent = 2047 then if fraction = 0 then .infinity sign else .notANumber
       else if exponent = 0 then number sign fraction (-1074)
       else number sign (fractionRange + fraction) (exponent - 1075)) := by
  have bias : (Format.binary64.exponentBias + Format.binary64.mantissaBitsWithoutImplicit : ℤ) =
      1075 := rfl
  have highest : unpackExponent bits = -1#_ ↔ (unpackExponent bits).toNat = 2047 := by
    rw [← BitVec.toNat_inj]
    rfl
  have lowest : unpackExponent bits = 0#_ ↔ (unpackExponent bits).toNat = 0 := by
    rw [← BitVec.toNat_inj]
    rfl
  have blank : unpackMantissa bits = 0#_ ↔ (unpackMantissa bits).toNat = 0 := by
    rw [← BitVec.toNat_inj]
    rfl
  have implicit : (1#1 ++ unpackMantissa bits).toNat =
      fractionRange + (unpackMantissa bits).toNat := by
    have small : (unpackMantissa bits).toNat < 2 ^ 52 := (unpackMantissa bits).isLt
    rw [BitVec.toNat_append, ← Nat.shiftLeft_add_eq_or_of_lt small]
    rfl
  unfold UnpackedFloat.unpack
  dsimp only
  rw [bias, ofBitVec_unpackSign, ← toNat_unpackMantissa, ← toNat_unpackExponent]
  by_cases infinite : (unpackExponent bits).toNat = 2047
  · rw [if_pos (highest.mpr infinite), if_pos infinite]
    by_cases none : (unpackMantissa bits).toNat = 0
    · rw [if_pos (blank.mpr none), if_pos none]
    · rw [if_neg (none ∘ blank.mp), if_neg none]
  · rw [if_neg (infinite ∘ highest.mp), if_neg infinite]
    by_cases least : (unpackExponent bits).toNat = 0
    · rw [if_pos (lowest.mpr least), if_pos least]
      by_cases none : (unpackMantissa bits).toNat = 0
      · rw [dif_pos (blank.mpr none), none]
        rfl
      · have place : (-1074 : ℤ) = (unpackExponent bits).toNat - 1075 + 1 := by omega
        rw [dif_neg (none ∘ blank.mp), place]
        exact (number_of_pos _ _ _).symm
    · rw [if_neg (least ∘ lowest.mp), if_neg least, ← implicit]
      exact (number_of_pos _ _ _).symm

end Bits

theorem toNat_append {high low : ℕ} (first : BitVec high) (second : BitVec low) :
    (first ++ second).toNat = first.toNat * 2 ^ low + second.toNat := by
  rw [BitVec.toNat_append, ← Nat.shiftLeft_add_eq_or_of_lt second.isLt, Nat.shiftLeft_eq]

/-- What is packed from a sign, an exponent and a mantissa is read as these again. -/
theorem unpack_packComponents (sign : Sign) {exponent mantissa : ℕ} (finite : exponent < 2047)
    (small : mantissa < fractionRange) :
    UnpackedFloat.unpack Format.binary64 (packComponents Format.binary64 sign
        (BitVec.ofNat 11 exponent) (BitVec.ofNat 52 mantissa)) =
      if exponent = 0 then number sign mantissa (-1074)
      else number sign (fractionRange + mantissa) (exponent - 1075) := by
  have fits : mantissa < 2 ^ 52 := small
  have bits : (packComponents Format.binary64 sign (BitVec.ofNat 11 exponent)
      (BitVec.ofNat 52 mantissa)).toNat =
      (sign.toBitVec.toNat * 2048 + exponent) * fractionRange + mantissa := by
    unfold packComponents
    rw [toNat_append, toNat_append, BitVec.toNat_ofNat, BitVec.toNat_ofNat,
      Nat.mod_eq_of_lt (finite.trans (by decide)), Nat.mod_eq_of_lt fits]
    rfl
  have isSign : signOf ((sign.toBitVec.toNat * 2048 + exponent) * fractionRange + mantissa) =
      sign := by
    unfold signOf fractionRange
    unfold fractionRange at small
    cases sign with
    | negative => exact if_pos (by change _ ≤ (1 * 2048 + exponent) * _ + _; omega)
    | positive => exact if_neg (by change ¬ _ ≤ (0 * 2048 + exponent) * _ + _; omega)
  have isExponent : ((sign.toBitVec.toNat * 2048 + exponent) * fractionRange + mantissa) /
      fractionRange % 2048 = exponent := by
    rw [Nat.mul_comm, Nat.mul_add_div (by decide), Nat.div_eq_of_lt small]
    omega
  have isMantissa : ((sign.toBitVec.toNat * 2048 + exponent) * fractionRange + mantissa) %
      fractionRange = mantissa := by
    rw [Nat.mul_comm, Nat.mul_add_mod, Nat.mod_eq_of_lt small]
  rw [unpack_eq, bits, isSign, isExponent, isMantissa]
  dsimp only
  rw [if_neg (by omega)]

theorem pack_finite (sign : Sign) {mantissa : ℕ} (exponent : ℤ) (positive : 0 < mantissa) :
    UnpackedFloat.pack Format.binary64 (.finite sign mantissa exponent positive) =
      let biased := (exponent + 1023 + 52).toNat
      if 2048 ≤ biased + 1 then packedInfinity Format.binary64 sign
      else if mantissa.log2 + 1 = 53 then
        packComponents Format.binary64 sign (BitVec.ofNat 11 biased) (BitVec.ofNat 52 mantissa)
      else packComponents Format.binary64 sign (BitVec.ofNat 11 0) (BitVec.ofNat 52 mantissa) :=
  rfl

/-- A number whose exponent is not too large for it survives being packed. -/
theorem unpack_pack {sign : Sign} {mantissa : ℕ} {exponent : ℤ}
    (canonical : Canonical mantissa exponent) (fits : exponent ≤ 971) :
    (Float.Model.pack (number sign mantissa exponent)).unpack =
      number sign mantissa exponent := by
  obtain ⟨small, low, full⟩ := canonical
  change UnpackedFloat.unpack Format.binary64 (UnpackedFloat.pack _ _) = _
  rcases Nat.eq_zero_or_pos mantissa with rfl | positive
  · have read := unpack_packComponents sign (show 0 < 2047 by norm_num)
      (show 0 < fractionRange by decide)
    rw [if_pos rfl] at read
    exact read
  · have packed : UnpackedFloat.pack Format.binary64 (number sign mantissa exponent) = _ :=
      (congrArg _ (number_of_pos sign exponent positive)).trans (pack_finite sign exponent positive)
    have nonzero : mantissa ≠ 0 := positive.ne'
    rw [packed]
    dsimp only
    rw [if_neg (by omega)]
    by_cases large : 2 ^ 52 ≤ mantissa
    · have log : mantissa.log2 = 52 := (Nat.log2_eq_iff nonzero).mpr ⟨large, small⟩
      have cut : BitVec.ofNat 52 mantissa = BitVec.ofNat 52 (mantissa - 2 ^ 52) := by
        rw [← BitVec.toNat_inj, BitVec.toNat_ofNat, BitVec.toNat_ofNat]
        omega
      have whole : fractionRange + (mantissa - 2 ^ 52) = mantissa := by
        unfold fractionRange
        omega
      have place : ((exponent + 1023 + 52).toNat : ℤ) - 1075 = exponent := by omega
      rw [if_pos (by omega), cut, unpack_packComponents sign (by omega)
        (by unfold fractionRange; omega), if_neg (by omega), whole, place]
    · have log : mantissa.log2 < 52 := (Nat.log2_lt nonzero).mpr (by omega)
      obtain rfl : exponent = -1074 := full.resolve_left large
      have read := unpack_packComponents sign (show 0 < 2047 by norm_num)
        (show mantissa < fractionRange by unfold fractionRange; omega)
      rw [if_pos rfl] at read
      rw [if_neg (by omega)]
      exact read

/-- A number that stands for a rational is one with a canonical mantissa, and an exponent
that is not too large for it. -/
theorem unpack_of_value? {float : Float} {x : ℚ} (stands : value? float = some x) :
    ∃ sign mantissa exponent, Canonical mantissa exponent ∧ exponent ≤ 971 ∧
      float.toModel.unpack = number sign mantissa exponent ∧
        x = signed sign (mantissa * 2 ^ exponent) := by
  have read : float.toModel.unpack = _ := unpack_eq float.toModel.toBits.toBitVec
  unfold value? at stands
  rw [read] at stands ⊢
  dsimp only at stands ⊢
  generalize float.toModel.toBits.toBitVec.toNat = bits at stands ⊢
  have fraction : bits % fractionRange < 2 ^ 52 := Nat.mod_lt _ (by decide)
  split at stands
  · split at stands <;> cases stands
  · next finite =>
      rw [if_neg finite]
      split at stands
      · next least =>
          rw [valueOf?_number, Option.some.injEq] at stands
          rw [if_pos least]
          exact ⟨_, _, _, ⟨by omega, le_refl _, Or.inr rfl⟩, by norm_num, rfl, stands.symm⟩
      · next above =>
          rw [valueOf?_number, Option.some.injEq] at stands
          rw [if_neg above]
          have range : fractionRange = 2 ^ 52 := rfl
          exact ⟨_, _, _, ⟨by omega, by omega, Or.inl (by omega)⟩, by omega, rfl, stands.symm⟩

/-! ### Rounded results -/

/-- A number with a canonical mantissa near the exact result. -/
def Rounded (exact : ℚ) (result : UnpackedFloat) : Prop :=
  ∃ sign mantissa exponent, Canonical mantissa exponent ∧
    result = number sign mantissa exponent ∧ Near exact (signed sign (mantissa * 2 ^ exponent))

theorem rounded_number (sign : Sign) {mantissa : ℕ} {exponent : ℤ}
    (canonical : Canonical mantissa exponent) :
    Rounded (signed sign (mantissa * 2 ^ exponent)) (number sign mantissa exponent) :=
  ⟨sign, mantissa, exponent, canonical, rfl, Near.refl _⟩

theorem rounded_zero (sign : Sign) : Rounded 0 (.zero sign) := by
  have canonical : Canonical 0 (-1074) := ⟨by norm_num, le_refl _, Or.inr rfl⟩
  have zero := rounded_number sign canonical
  have none : signed sign ((0 : ℕ) * 2 ^ (-1074 : ℤ)) = 0 := by
    rw [Nat.cast_zero, zero_mul, signed_zero]
  rw [none] at zero
  exact zero

/-- A result that is not too large is still there once it has been packed. -/
theorem Rounded.packed {exact : ℚ} {result : UnpackedFloat} (rounded : Rounded exact result)
    (small : |exact| ≤ 2 ^ (1023 : ℤ)) :
    ∃ z, value? (.ofModel (.pack result)) = some z ∧ Near exact z := by
  obtain ⟨sign, mantissa, exponent, canonical, rfl, near⟩ := rounded
  have bound := near.below 1023 (by norm_num) small
  rw [abs_signed (magnitude_nonneg _ _)] at bound
  have fits : exponent ≤ 971 := by
    by_contra large
    have full : 2 ^ 52 ≤ mantissa := canonical.full.resolve_right (by omega)
    have least : (2 : ℚ) ^ (52 : ℤ) ≤ mantissa := by exact_mod_cast full
    have place : (2 : ℚ) ^ (972 : ℤ) ≤ 2 ^ exponent :=
      zpow_le_zpow_right₀ one_le_two (by omega)
    have beyond : (2 : ℚ) ^ (1024 : ℤ) ≤ mantissa * 2 ^ exponent := by
      rw [show (1024 : ℤ) = 52 + 972 by norm_num, zpow_add₀ two_ne_zero]
      exact mul_le_mul least place (zpow_nonneg zero_le_two _) (Nat.cast_nonneg _)
    have strict : (2 : ℚ) ^ (1023 : ℤ) < 2 ^ (1024 : ℤ) :=
      zpow_lt_zpow_right₀ one_lt_two (by norm_num)
    exact absurd (beyond.trans bound) (not_le.mpr strict)
  refine ⟨_, ?_, near⟩
  change valueOf? (Float.Model.pack _).unpack = _
  rw [unpack_pack canonical fits, valueOf?_number]

theorem roundWithAccuracy_rounded (sign : Sign) {mantissa : ℕ} {exponent : ℤ}
    {accuracy : Accuracy} {units : ℚ} (positive : 0 < units)
    (covers : Covers (ExtendedMantissa.ofMantissaAndAccuracy mantissa accuracy) units)
    (ample : 2 ^ 52 ≤ mantissa ∨ exponent ≤ -1074) :
    Rounded (signed sign (units * 2 ^ exponent))
      (roundWithAccuracy Format.binary64 sign mantissa exponent accuracy) := by
  obtain ⟨rounded, place, same, canonical, bounds⟩ := roundWithAccuracy_eq sign covers ample
  exact ⟨sign, rounded, place, canonical, same,
    near_signed sign (by positivity) (by positivity) bounds⟩

theorem round_rounded (sign : Sign) {mantissa : ℕ} (positive : 0 < mantissa) (exponent : ℤ) :
    Rounded (signed sign (mantissa * 2 ^ exponent))
      (UnpackedFloat.round Format.binary64 sign mantissa exponent) := by
  unfold UnpackedFloat.round decreaseExponent
  dsimp only
  rw [targetExponent_eq]
  generalize isTarget : max (mantissa.log2 + exponent - 52) (-1074) = target
  generalize isPlaces : (exponent - target).toNat = places
  have least : 2 ^ mantissa.log2 ≤ mantissa := Nat.log2_self_le positive.ne'
  have ample : 2 ^ 52 ≤ mantissa <<< places ∨ exponent - places ≤ -1074 := by
    by_cases low : target = -1074
    · right
      omega
    · left
      have large : 52 ≤ mantissa.log2 + places := by omega
      calc 2 ^ 52 ≤ 2 ^ (mantissa.log2 + places) := Nat.pow_le_pow_right two_pos large
        _ = 2 ^ mantissa.log2 * 2 ^ places := pow_add ..
        _ ≤ mantissa * 2 ^ places := Nat.mul_le_mul_right _ least
        _ = mantissa <<< places := (Nat.shiftLeft_eq ..).symm
  have shifted : ((mantissa <<< places : ℕ) : ℚ) * 2 ^ (exponent - places) =
      mantissa * 2 ^ exponent := by
    rw [Nat.shiftLeft_eq, zpow_sub₀ two_ne_zero, zpow_natCast]
    push_cast
    field_simp
  rw [← shifted]
  refine roundWithAccuracy_rounded sign ?_ (Covers.exact _) ample
  rw [Nat.shiftLeft_eq]
  positivity

theorem normalize_rounded (mantissa exponent : ℤ) (zeroSign : Sign) :
    Rounded (mantissa * 2 ^ exponent)
      (UnpackedFloat.normalize Format.binary64 mantissa exponent zeroSign) := by
  unfold UnpackedFloat.normalize
  rcases lt_trichotomy mantissa 0 with negative | rfl | positive
  · rw [compare_lt_iff_lt.mpr negative]
    have rounded := round_rounded .negative (show 0 < (-mantissa).toNat by omega) exponent
    have magnitude : (((-mantissa).toNat : ℕ) : ℚ) = -mantissa := by
      exact_mod_cast Int.toNat_of_nonneg (by omega)
    rw [magnitude, signed, neg_mul, neg_neg] at rounded
    exact rounded
  · rw [Int.cast_zero, zero_mul]
    exact rounded_zero zeroSign
  · rw [compare_gt_iff_gt.mpr positive]
    have rounded := round_rounded .positive (show 0 < mantissa.toNat by omega) exponent
    have magnitude : ((mantissa.toNat : ℕ) : ℚ) = mantissa := by
      exact_mod_cast Int.toNat_of_nonneg (by omega)
    rw [magnitude] at rounded
    exact rounded

/-! ### Sums and differences -/

theorem signed_apply (sign : Sign) (magnitude : ℕ) :
    ((sign.apply magnitude : ℤ) : ℚ) = signed sign magnitude := by
  cases sign with
  | negative => exact Int.cast_neg _
  | positive => rfl

theorem signed_mul (sign : Sign) (magnitude factor : ℚ) :
    signed sign (magnitude * factor) = signed sign magnitude * factor := by
  cases sign with
  | negative => exact (neg_mul ..).symm
  | positive => rfl

/-- Writing a number at a lower exponent does not change what it stands for. -/
theorem signed_decreaseExponent (sign : Sign) (mantissa : ℕ) {exponent target : ℤ}
    (lower : target ≤ exponent) :
    ((sign.apply (decreaseExponent mantissa exponent target).1 : ℤ) : ℚ) * 2 ^ target =
      signed sign (mantissa * 2 ^ exponent) := by
  obtain ⟨places, rfl⟩ : ∃ places : ℕ, exponent = target + places :=
    ⟨(exponent - target).toNat, by omega⟩
  have shift : (target + places - target).toNat = places := by omega
  unfold decreaseExponent
  dsimp only
  rw [signed_apply, ← signed_mul, shift, Nat.shiftLeft_eq, zpow_add₀ two_ne_zero, zpow_natCast]
  congr 1
  push_cast
  ring

theorem signed_neg (sign : Sign) (magnitude : ℚ) :
    signed (-sign) magnitude = -signed sign magnitude := by
  cases sign with
  | negative => exact (neg_neg magnitude).symm
  | positive => rfl

theorem neg_number (sign : Sign) (mantissa : ℕ) (exponent : ℤ) :
    (number sign mantissa exponent).neg = number (-sign) mantissa exponent := by
  rcases Nat.eq_zero_or_pos mantissa with rfl | positive
  · rfl
  · rw [number_of_pos sign exponent positive, number_of_pos (-sign) exponent positive]
    rfl

theorem sub_eq_add (first second : UnpackedFloat) :
    UnpackedFloat.sub Format.binary64 first second =
      UnpackedFloat.add Format.binary64 first second.neg := by
  have apply_neg : ∀ (sign : Sign) (magnitude : ℤ), (-sign).apply magnitude =
      -sign.apply magnitude := by
    intro sign magnitude
    cases sign with
    | negative => exact (neg_neg magnitude).symm
    | positive => rfl
  cases first with
  | finite =>
      cases second with
      | finite =>
          unfold UnpackedFloat.sub UnpackedFloat.add UnpackedFloat.neg
          dsimp only
          rw [apply_neg, Int.sub_eq_add_neg]
      | _ => rfl
  | _ => cases second <;> rfl

theorem add_rounded (s₁ s₂ : Sign) {m₁ m₂ : ℕ} {e₁ e₂ : ℤ} (first : Canonical m₁ e₁)
    (second : Canonical m₂ e₂) :
    Rounded (signed s₁ (m₁ * 2 ^ e₁) + signed s₂ (m₂ * 2 ^ e₂))
      (UnpackedFloat.add Format.binary64 (number s₁ m₁ e₁) (number s₂ m₂ e₂)) := by
  rcases Nat.eq_zero_or_pos m₁ with rfl | positive₁
  · have zero₁ : number s₁ 0 e₁ = .zero s₁ := rfl
    rw [Nat.cast_zero, zero_mul, signed_zero, zero_add, zero₁]
    rcases Nat.eq_zero_or_pos m₂ with rfl | positive₂
    · rw [Nat.cast_zero, zero_mul, signed_zero]
      cases s₁ <;> cases s₂ <;> exact rounded_zero _
    · have same := rounded_number s₂ second
      rw [number_of_pos s₂ e₂ positive₂] at same ⊢
      exact same
  · rcases Nat.eq_zero_or_pos m₂ with rfl | positive₂
    · have zero₂ : number s₂ 0 e₂ = .zero s₂ := rfl
      have same := rounded_number s₁ first
      rw [Nat.cast_zero, zero_mul, signed_zero, add_zero, zero₂]
      rw [number_of_pos s₁ e₁ positive₁] at same ⊢
      exact same
    · rw [number_of_pos s₁ e₁ positive₁, number_of_pos s₂ e₂ positive₂,
        ← signed_decreaseExponent s₁ m₁ (min_le_left e₁ e₂),
        ← signed_decreaseExponent s₂ m₂ (min_le_right e₁ e₂), ← add_mul, ← Int.cast_add]
      exact normalize_rounded _ _ _

/-! ### Products and quotients -/

theorem signed_mul_signed (s₁ s₂ : Sign) (x y : ℚ) :
    signed (s₁ * s₂) (x * y) = signed s₁ x * signed s₂ y := by
  cases s₁ with
  | negative =>
      cases s₂ with
      | negative => exact (neg_mul_neg x y).symm
      | positive => exact (neg_mul x y).symm
  | positive =>
      cases s₂ with
      | negative => exact (mul_neg x y).symm
      | positive => rfl

theorem signed_div_signed (s₁ s₂ : Sign) (x y : ℚ) :
    signed (s₁ / s₂) (x / y) = signed s₁ x / signed s₂ y := by
  cases s₁ with
  | negative =>
      cases s₂ with
      | negative => exact (neg_div_neg_eq x y).symm
      | positive => exact (neg_div y x).symm
  | positive =>
      cases s₂ with
      | negative => exact (div_neg x).symm
      | positive => rfl

theorem mul_rounded_of_ample (s₁ s₂ : Sign) {m₁ m₂ : ℕ} (e₁ e₂ : ℤ) (positive₁ : 0 < m₁)
    (positive₂ : 0 < m₂) (ample : 2 ^ 52 ≤ m₁ * m₂ ∨ e₁ + e₂ ≤ -1074) :
    Rounded (signed s₁ (m₁ * 2 ^ e₁) * signed s₂ (m₂ * 2 ^ e₂))
      (UnpackedFloat.mul Format.binary64 (.finite s₁ m₁ e₁ positive₁)
        (.finite s₂ m₂ e₂ positive₂)) := by
  have product : ((m₁ : ℚ) * 2 ^ e₁) * (m₂ * 2 ^ e₂) = ((m₁ * m₂ : ℕ) : ℚ) * 2 ^ (e₁ + e₂) := by
    rw [zpow_add₀ two_ne_zero, Nat.cast_mul]
    ring
  rw [← signed_mul_signed, product]
  exact roundWithAccuracy_rounded _ (by positivity) (Covers.exact _) ample

theorem mul_rounded (s₁ s₂ : Sign) {m₁ m₂ : ℕ} {e₁ e₂ : ℤ} (first : Canonical m₁ e₁)
    (second : Canonical m₂ e₂) :
    Rounded (signed s₁ (m₁ * 2 ^ e₁) * signed s₂ (m₂ * 2 ^ e₂))
      (UnpackedFloat.mul Format.binary64 (number s₁ m₁ e₁) (number s₂ m₂ e₂)) := by
  rcases Nat.eq_zero_or_pos m₁ with rfl | positive₁
  · rw [Nat.cast_zero, zero_mul, signed_zero, zero_mul]
    rcases Nat.eq_zero_or_pos m₂ with rfl | positive₂
    · exact rounded_zero _
    · rw [number_of_pos s₂ e₂ positive₂]
      exact rounded_zero _
  · rcases Nat.eq_zero_or_pos m₂ with rfl | positive₂
    · rw [Nat.cast_zero, zero_mul, signed_zero, mul_zero, number_of_pos s₁ e₁ positive₁]
      exact rounded_zero _
    · rw [number_of_pos s₁ e₁ positive₁, number_of_pos s₂ e₂ positive₂]
      apply mul_rounded_of_ample
      -- One of the mantissas fills its places, or both exponents are the least one.
      rcases first.full with large | least₁
      · exact Or.inl (large.trans (Nat.le_mul_of_pos_right _ positive₂))
      · rcases second.full with large | least₂
        · exact Or.inl (large.trans (Nat.le_mul_of_pos_left _ positive₁))
        · right
          omega

/-- An integer quotient and its remainder tell where the exact quotient lies. -/
theorem Covers.quotient (dividend : ℕ) {divisor : ℕ} (positive : 0 < divisor) :
    Covers (ExtendedMantissa.ofMantissaAndAccuracy (dividend / divisor)
      (accuracyOfFraction (dividend % divisor) divisor)) ((dividend : ℚ) / divisor) := by
  have whole : (dividend : ℚ) = divisor * (dividend / divisor : ℕ) + (dividend % divisor : ℕ) := by
    exact_mod_cast (Nat.div_add_mod dividend divisor).symm
  have unit : (0 : ℚ) < divisor := by exact_mod_cast positive
  have below : ((dividend % divisor : ℕ) : ℚ) < divisor := by
    exact_mod_cast Nat.mod_lt dividend positive
  have nonneg : (0 : ℚ) ≤ (dividend % divisor : ℕ) := Nat.cast_nonneg _
  constructor
  · rw [mantissa_ofMantissaAndAccuracy, le_div_iff₀ unit, whole]
    nlinarith
  · rw [mantissa_ofMantissaAndAccuracy, div_lt_iff₀ unit, whole]
    nlinarith
  · intro left
    have some : dividend % divisor ≠ 0 := by
      intro none
      rw [accuracyOfFraction, if_pos none] at left
      rcases left with left | left <;> cases left
    have rest : (0 : ℚ) < (dividend % divisor : ℕ) := by exact_mod_cast Nat.pos_of_ne_zero some
    rw [mantissa_ofMantissaAndAccuracy, lt_div_iff₀ unit, whole]
    nlinarith

theorem div_rounded_of_pos (s₁ s₂ : Sign) {m₁ m₂ : ℕ} {e₁ e₂ : ℤ} (positive₁ : 0 < m₁)
    (positive₂ : 0 < m₂) :
    Rounded (signed s₁ (m₁ * 2 ^ e₁) / signed s₂ (m₂ * 2 ^ e₂))
      (UnpackedFloat.div Format.binary64 (.finite s₁ m₁ e₁ positive₁)
        (.finite s₂ m₂ e₂ positive₂)) := by
  have least : Format.binary64.targetExponent (totalExponent m₁ e₁ - totalExponent m₂ e₂) =
      max ((m₁.log2 : ℤ) + e₁ - (m₂.log2 + e₂) - 53) (-1074) := by
    have minimal : Format.binary64.minExponent = -1074 := rfl
    have places : (Format.binary64.mantissaBits : ℤ) = 53 := rfl
    unfold Format.targetExponent totalExponent
    rw [minimal, places]
    omega
  unfold UnpackedFloat.div divCore
  dsimp only
  rw [least]
  generalize isTarget : min (e₁ - e₂) _ = target
  generalize isPlaces : (e₁ - e₂ - target).toNat = places
  have exponents : e₁ - e₂ = places + target := by omega
  have quotient : (m₁ : ℚ) * 2 ^ e₁ / (m₂ * 2 ^ e₂) =
      ((m₁ <<< places : ℕ) : ℚ) / m₂ * 2 ^ target := by
    rw [mul_div_mul_comm, ← zpow_sub₀ two_ne_zero, exponents, zpow_add₀ two_ne_zero, zpow_natCast,
      Nat.shiftLeft_eq]
    push_cast
    ring
  have dividend : 0 < m₁ <<< places := by
    rw [Nat.shiftLeft_eq]
    positivity
  rw [← signed_div_signed, quotient]
  apply roundWithAccuracy_rounded _ (by positivity) (Covers.quotient _ positive₂)
  by_cases low : target ≤ -1074
  · exact Or.inr low
  · left
    have atLeast : 2 ^ m₁.log2 ≤ m₁ := Nat.log2_self_le positive₁.ne'
    have atMost : m₂ < 2 ^ (m₂.log2 + 1) := Nat.lt_log2_self
    have enough : 52 + (m₂.log2 + 1) ≤ m₁.log2 + places := by omega
    rw [Nat.le_div_iff_mul_le positive₂, Nat.shiftLeft_eq]
    calc 2 ^ 52 * m₂ ≤ 2 ^ 52 * 2 ^ (m₂.log2 + 1) := Nat.mul_le_mul_left _ atMost.le
      _ = 2 ^ (52 + (m₂.log2 + 1)) := (pow_add ..).symm
      _ ≤ 2 ^ (m₁.log2 + places) := Nat.pow_le_pow_right two_pos enough
      _ = 2 ^ m₁.log2 * 2 ^ places := pow_add ..
      _ ≤ m₁ * 2 ^ places := Nat.mul_le_mul_right _ atLeast

theorem div_rounded (s₁ s₂ : Sign) (m₁ : ℕ) {m₂ : ℕ} (e₁ e₂ : ℤ) (positive : 0 < m₂) :
    Rounded (signed s₁ (m₁ * 2 ^ e₁) / signed s₂ (m₂ * 2 ^ e₂))
      (UnpackedFloat.div Format.binary64 (number s₁ m₁ e₁) (number s₂ m₂ e₂)) := by
  rw [number_of_pos s₂ e₂ positive]
  rcases Nat.eq_zero_or_pos m₁ with rfl | positive₁
  · rw [Nat.cast_zero, zero_mul, signed_zero, zero_div]
    exact rounded_zero _
  · rw [number_of_pos s₁ e₁ positive₁]
    exact div_rounded_of_pos s₁ s₂ positive₁ positive

/-! ### The arithmetic -/

section Arithmetic

variable {a b : Float} {x y : ℚ}

theorem add_near (first : value? a = some x) (second : value? b = some y)
    (small : |x + y| ≤ 2 ^ (1023 : ℤ)) : ∃ z, value? (a + b) = some z ∧ Near (x + y) z := by
  obtain ⟨s₁, m₁, e₁, canonical₁, _, read₁, rfl⟩ := unpack_of_value? first
  obtain ⟨s₂, m₂, e₂, canonical₂, _, read₂, rfl⟩ := unpack_of_value? second
  have rounded := add_rounded s₁ s₂ canonical₁ canonical₂
  rw [← read₁, ← read₂] at rounded
  exact rounded.packed small

theorem sub_near (first : value? a = some x) (second : value? b = some y)
    (small : |x - y| ≤ 2 ^ (1023 : ℤ)) : ∃ z, value? (a - b) = some z ∧ Near (x - y) z := by
  obtain ⟨s₁, m₁, e₁, canonical₁, _, read₁, rfl⟩ := unpack_of_value? first
  obtain ⟨s₂, m₂, e₂, canonical₂, _, read₂, rfl⟩ := unpack_of_value? second
  have rounded := add_rounded s₁ (-s₂) canonical₁ canonical₂
  rw [← neg_number, ← sub_eq_add, ← read₁, ← read₂, signed_neg,
    ← sub_eq_add_neg] at rounded
  exact rounded.packed small

theorem mul_near (first : value? a = some x) (second : value? b = some y)
    (small : |x * y| ≤ 2 ^ (1023 : ℤ)) : ∃ z, value? (a * b) = some z ∧ Near (x * y) z := by
  obtain ⟨s₁, m₁, e₁, canonical₁, _, read₁, rfl⟩ := unpack_of_value? first
  obtain ⟨s₂, m₂, e₂, canonical₂, _, read₂, rfl⟩ := unpack_of_value? second
  have rounded := mul_rounded s₁ s₂ canonical₁ canonical₂
  rw [← read₁, ← read₂] at rounded
  exact rounded.packed small

theorem div_near (first : value? a = some x) (second : value? b = some y) (nonzero : y ≠ 0)
    (small : |x / y| ≤ 2 ^ (1023 : ℤ)) : ∃ z, value? (a / b) = some z ∧ Near (x / y) z := by
  obtain ⟨s₁, m₁, e₁, canonical₁, _, read₁, rfl⟩ := unpack_of_value? first
  obtain ⟨s₂, m₂, e₂, canonical₂, _, read₂, rfl⟩ := unpack_of_value? second
  have positive : 0 < m₂ := by
    apply Nat.pos_of_ne_zero
    rintro rfl
    exact nonzero (by rw [Nat.cast_zero, zero_mul, signed_zero])
  have rounded := div_rounded s₁ s₂ m₁ e₁ e₂ positive
  rw [← read₁, ← read₂] at rounded
  exact rounded.packed small

end Arithmetic

/-! ### Integers -/

theorem value?_one : value? (Float.ofBits 0x3FF0000000000000) = some 1 := by
  have read : (Float.ofBits 0x3FF0000000000000).toModel.unpack =
      .finite .positive (2 ^ 52) (-52) (by decide) := rfl
  unfold value?
  rw [read]
  change some ((2 ^ 52 : ℕ) * 2 ^ (-52 : ℤ) : ℚ) = some 1
  norm_num

/-- Short integers are converted as words, and multiplied by one. -/
theorem ofNat_near_of_short {n : ℕ} (short : n < 2 ^ 53) (small : |(n : ℚ)| ≤ 2 ^ (1023 : ℤ)) :
    ∃ z, value? (Float.ofNat n) = some z ∧ Near n z := by
  have word : n.toUInt64.toNat = n := Nat.mod_eq_of_lt (short.trans (by norm_num))
  have path : Float.ofNat n = n.toUInt64.toFloat * Float.ofBits 0x3FF0000000000000 := by
    change Float.ofScientific n false 0 = _
    unfold Float.ofScientific
    rw [dif_pos ⟨short, Nat.zero_le 22⟩]
    rfl
  have converted := normalize_rounded n 0 .positive
  rw [zpow_zero, mul_one, Int.cast_natCast] at converted
  obtain ⟨y, stands, near⟩ := converted.packed small
  have isWord : value? n.toUInt64.toFloat = some y := by
    have read : n.toUInt64.toFloat =
        .ofModel (.pack (UnpackedFloat.normalize Format.binary64 n.toUInt64.toNat 0 .positive)) :=
      rfl
    rw [read, word]
    exact stands
  have single := near.below 1023 (by norm_num) small
  rw [← mul_one y] at single
  obtain ⟨z, product, nearer⟩ := mul_near isWord value?_one single
  rw [path]
  rw [mul_one] at nearer
  exact ⟨z, product, near.trans nearer⟩

/-- Long integers are multiplied by one in full. -/
theorem ofNat_near_of_long {n : ℕ} (long : 2 ^ 53 ≤ n) (small : |(n : ℚ)| ≤ 2 ^ (1023 : ℤ)) :
    ∃ z, value? (Float.ofNat n) = some z ∧ Near n z := by
  have path : Float.ofNat n = .ofModel (.ofScientific n 0) := by
    change Float.ofScientific n false 0 = _
    unfold Float.ofScientific
    rw [dif_neg fun both => absurd both.1 (not_lt.mpr long)]
    rfl
  have scaled : 0 < n <<< 53 := by
    rw [Nat.shiftLeft_eq]
    omega
  have product : UnpackedFloat.ofScientific Format.binary64 n 0 =
      .mul Format.binary64 (.finite .positive (n <<< 53) (-53) scaled)
        (.finite .positive 1 0 Nat.one_pos) := by
    have tiny : ¬ (0 : ℤ) < -((2 ^ Format.binary64.exponentBits : ℤ) + n.log2) := by
      change ¬ (0 : ℤ) < -(2048 + n.log2)
      omega
    unfold UnpackedFloat.ofScientific
    rw [dif_neg (by omega), if_neg (by decide), if_neg tiny, if_pos (le_refl 0)]
    rfl
  have ample : 2 ^ 52 ≤ n <<< 53 * 1 := by
    rw [Nat.shiftLeft_eq]
    omega
  have rounded := mul_rounded_of_ample .positive .positive (-53) 0 scaled Nat.one_pos
    (Or.inl ample)
  have exact : signed .positive ((n <<< 53 : ℕ) * 2 ^ (-53 : ℤ)) *
      signed .positive ((1 : ℕ) * 2 ^ (0 : ℤ)) = n := by
    change ((n <<< 53 : ℕ) : ℚ) * 2 ^ (-53 : ℤ) * ((1 : ℕ) * 2 ^ (0 : ℤ)) = n
    rw [Nat.shiftLeft_eq, zpow_neg]
    push_cast
    field_simp
  rw [exact, ← product] at rounded
  rw [path]
  exact rounded.packed small

theorem ofNat_near (n : ℕ) (small : (n : ℚ) ≤ 2 ^ (1023 : ℤ)) :
    ∃ z, value? (Float.ofNat n) = some z ∧ Near n z := by
  have bounded : |(n : ℚ)| ≤ 2 ^ (1023 : ℤ) := by
    rwa [abs_of_nonneg (Nat.cast_nonneg n)]
  rcases Nat.lt_or_ge n (2 ^ 53) with short | long
  · exact ofNat_near_of_short short bounded
  · exact ofNat_near_of_long long bounded

theorem value?_neg {a : Float} {x : ℚ} (stands : value? a = some x) : value? (-a) = some (-x) := by
  obtain ⟨sign, mantissa, exponent, canonical, fits, read, rfl⟩ := unpack_of_value? stands
  have opposite : value? (-a) = valueOf? (Float.Model.pack a.toModel.unpack.neg).unpack := rfl
  rw [opposite, read, neg_number, unpack_pack canonical fits, valueOf?_number, signed_neg]

theorem ofInt_near (n : ℤ) (small : |(n : ℚ)| ≤ 2 ^ (1023 : ℤ)) :
    ∃ z, value? (Scalar.ofInt n) = some z ∧ Near n z := by
  cases n with
  | ofNat n =>
      change |((n : ℤ) : ℚ)| ≤ _ at small
      rw [Int.cast_natCast, abs_of_nonneg (Nat.cast_nonneg n)] at small
      exact ofNat_near n small
  | negSucc n =>
      have opposite : ((Int.negSucc n : ℤ) : ℚ) = -((n + 1 : ℕ) : ℚ) := Int.cast_negSucc n
      rw [opposite, abs_neg, abs_of_nonneg (Nat.cast_nonneg _)] at small
      obtain ⟨z, stands, near⟩ := ofNat_near (n + 1) small
      rw [opposite]
      exact ⟨-z, value?_neg stands, near.neg⟩

/-! ### Questions about a number -/

section Questions

variable {a : Float} {x : ℚ}

theorem isFinite_of_value? (stands : value? a = some x) : Scalar.isFinite a = true := by
  obtain ⟨sign, mantissa, exponent, _, _, read, _⟩ := unpack_of_value? stands
  change a.toModel.unpack.isFinite = true
  rw [read]
  rcases Nat.eq_zero_or_pos mantissa with rfl | positive
  · rfl
  · rw [number_of_pos sign exponent positive]
    rfl

theorem isZero_of_value? (stands : value? a = some x) (nonzero : x ≠ 0) :
    Scalar.isZero a = false := by
  obtain ⟨sign, mantissa, exponent, _, _, read, rfl⟩ := unpack_of_value? stands
  have positive : 0 < mantissa := by
    apply Nat.pos_of_ne_zero
    rintro rfl
    exact nonzero (by rw [Nat.cast_zero, zero_mul, signed_zero])
  have zero : (Float.ofInt 0).toModel.unpack = .zero .positive := rfl
  change UnpackedFloat.beq a.toModel.unpack (Float.ofInt 0).toModel.unpack = false
  rw [read, zero, number_of_pos sign exponent positive]
  cases sign <;> rfl

theorem shifted_le (mantissa exponent : ℕ) :
    ((if exponent < 1075 then mantissa >>> (1075 - exponent)
      else mantissa <<< (exponent - 1075) : ℕ) : ℚ) ≤ mantissa * 2 ^ ((exponent : ℤ) - 1075) := by
  split
  · next low =>
      have places : (exponent : ℤ) - 1075 = -((1075 - exponent : ℕ) : ℤ) := by omega
      rw [Nat.shiftRight_eq_div_pow, places, zpow_neg, zpow_natCast, ← div_eq_mul_inv]
      exact_mod_cast Nat.cast_div_le
  · next high =>
      have places : (exponent : ℤ) - 1075 = ((exponent - 1075 : ℕ) : ℤ) := by omega
      rw [Nat.shiftLeft_eq, places, zpow_natCast]
      push_cast
      exact le_refl _

theorem signOf_apply (bits magnitude : ℕ) :
    (if bits ≥ 2048 * fractionRange then -(magnitude : ℤ) else magnitude) =
      (signOf bits).apply magnitude := by
  unfold signOf
  split <;> rfl

theorem apply_truncated (sign : Sign) {whole : ℕ} {magnitude : ℚ} (below : whole ≤ magnitude) :
    |((sign.apply whole : ℤ) : ℚ)| ≤ |signed sign magnitude| ∧
      (0 < sign.apply whole → 0 < signed sign magnitude) := by
  have nonneg : (0 : ℚ) ≤ whole := Nat.cast_nonneg whole
  constructor
  · rw [signed_apply, abs_signed nonneg, abs_signed (nonneg.trans below)]
    exact below
  · intro positive
    cases sign with
    | negative => exact absurd positive (by change ¬ 0 < -(whole : ℤ); omega)
    | positive =>
        change 0 < (whole : ℤ) at positive
        have some : (0 : ℚ) < whole := by exact_mod_cast positive
        exact some.trans_le below

/-- The integer part is there, between zero and the number. -/
theorem integerPart_of_value? (stands : value? a = some x) :
    ∃ n, Scalar.integerPart a = .ok n ∧ |(n : ℚ)| ≤ |x| ∧ (0 < n → 0 < x) := by
  have same : a.toBits.toNat = a.toModel.toBits.toBitVec.toNat := rfl
  have read : a.toModel.unpack = _ := unpack_eq a.toModel.toBits.toBitVec
  unfold value? at stands
  rw [read, ← same] at stands
  change ∃ n, Binary64.integerPart a = .ok n ∧ _
  unfold Binary64.integerPart
  dsimp only at stands ⊢
  generalize a.toBits.toNat = bits at stands ⊢
  rw [signOf_apply]
  by_cases missing : bits / fractionRange % 2048 = 2047
  · rw [if_pos missing] at stands
    split at stands <;> cases stands
  · rw [if_neg missing] at stands ⊢
    refine ⟨_, rfl, ?_⟩
    by_cases least : bits / fractionRange % 2048 = 0
    · rw [if_pos least, valueOf?_number, Option.some.injEq] at stands
      rw [if_pos least, ← stands, least]
      apply apply_truncated
      have place : (2 : ℚ) ^ ((0 : ℕ) - 1075 : ℤ) ≤ 2 ^ (-1074 : ℤ) :=
        zpow_le_zpow_right₀ one_le_two (by norm_num)
      exact (shifted_le _ 0).trans (mul_le_mul_of_nonneg_left place (Nat.cast_nonneg _))
    · rw [if_neg least, valueOf?_number, Option.some.injEq] at stands
      rw [if_neg least, ← stands]
      apply apply_truncated
      exact shifted_le _ _

end Questions

end Chip8.Binary64
