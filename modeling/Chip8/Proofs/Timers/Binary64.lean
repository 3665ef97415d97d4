import Chip8.Proofs.Scalar.Binary64
import Chip8.Timers

/-!
The timers on binary64 time.

While the clock shows times within a power of two that leaves some room above it, the timers
never fail. The time of the last update stays within that power below zero, since it only
grows, and within eight times the power above zero, since it is moved on from a time in front
of the clock.
-/

namespace Chip8

open Binary64

/-- A time whose magnitude is less than a power of two. -/
def Binary64.Within (k : ℤ) (time : Float) : Prop :=
  ∃ x, value? time = some x ∧ |x| < 2 ^ k

theorem Binary64.quotient_eq (a : Float) {b : Float} {y : ℚ} (second : value? b = some y)
    (nonzero : y ≠ 0) : Scalar.quotient a b = .ok (a / b) := by
  unfold Scalar.quotient
  rw [isZero_of_value? second nonzero]
  rfl

/-- The quotient of two numbers that are both there is there, and near the exact one. -/
theorem Binary64.quotient_near {a b : Float} {x y : ℚ} (first : value? a = some x)
    (second : value? b = some y) (nonzero : y ≠ 0) (small : |x / y| ≤ 2 ^ (1023 : ℤ)) :
    ∃ c z, Scalar.quotient a b = .ok c ∧ value? c = some z ∧ Near (x / y) z := by
  obtain ⟨z, stands, near⟩ := div_near first second nonzero small
  exact ⟨a / b, z, quotient_eq a second nonzero, stands, near⟩

namespace Timers

/-- What updates at times within a power of two keep: the interval is about a sixtieth, and
the time of the last update is not far outside. -/
structure Steady (k : ℤ) (timers : Timers Float) : Prop where
  interval : ∃ x, value? timers.interval = some x ∧ 2 ^ (-6 : ℤ) ≤ x ∧ x ≤ 2 ^ (-5 : ℤ)
  last : ∀ last, timers.last = some last →
    ∃ x, value? last = some x ∧ -2 ^ k ≤ x ∧ x ≤ 2 ^ (k + 3)

theorem ofRate_steady (k : ℤ) :
    ∃ timers : Timers Float,
      ofRate (Scalar.ofInt Layout.timerRate) = .ok timers ∧ timers.Steady k := by
  have room : ∀ n : ℤ, n ≤ 1023 → (2 : ℚ) ^ n ≤ 2 ^ (1023 : ℤ) :=
    fun n => zpow_le_zpow_right₀ one_le_two
  have sixty : |((60 : ℤ) : ℚ)| = 60 := by norm_num
  obtain ⟨rate, isRate, nearRate⟩ := ofInt_near 60 (by
    rw [sixty]
    exact le_trans (by norm_num) (room 6 (by norm_num)))
  obtain ⟨one, isOne, nearOne⟩ := ofInt_near 1 (by
    rw [Int.cast_one, abs_one]
    exact room 0 (by norm_num))
  clear room
  have rateNonneg : 0 ≤ rate := nearRate.nonneg (by norm_num)
  have rateAbove := nearRate.above 5 (by norm_num) (by rw [sixty]; norm_num)
  have rateBelow := nearRate.below 6 (by norm_num) (by rw [sixty]; norm_num)
  have oneNonneg : 0 ≤ one := nearOne.nonneg (by norm_num)
  have oneAbove := nearOne.above 0 (by norm_num) (by norm_num)
  have oneBelow := nearOne.below 0 (by norm_num) (by norm_num)
  rw [abs_of_nonneg rateNonneg] at rateAbove rateBelow
  rw [abs_of_nonneg oneNonneg] at oneAbove oneBelow
  obtain rfl : one = 1 := le_antisymm oneBelow oneAbove
  have ratePos : 0 < rate := lt_of_lt_of_le (by norm_num) rateAbove
  have lower : 2 ^ (-6 : ℤ) ≤ |1 / rate| := by
    rw [abs_of_pos (one_div_pos.mpr ratePos), zpow_neg, ← one_div]
    exact one_div_le_one_div_of_le ratePos rateBelow
  have upper : |1 / rate| ≤ 2 ^ (-5 : ℤ) := by
    rw [abs_of_pos (one_div_pos.mpr ratePos), zpow_neg, ← one_div]
    exact one_div_le_one_div_of_le (by norm_num) rateAbove
  obtain ⟨interval, x, divided, isInterval, near⟩ := quotient_near isOne isRate ratePos.ne'
    (upper.trans (zpow_le_zpow_right₀ one_le_two (by norm_num)))
  have nonneg : 0 ≤ x := near.nonneg (one_div_pos.mpr ratePos).le
  have above := near.above (-6) (by norm_num) lower
  have below := near.below (-5) (by norm_num) upper
  rw [abs_of_nonneg nonneg] at above below
  refine ⟨⟨interval, none⟩, ?_, ⟨x, isInterval, above, below⟩, ?_⟩
  · unfold ofRate
    change (Scalar.quotient (Scalar.ofInt 1) (Scalar.ofInt 60) >>= fun interval => _) = _
    rw [divided]
    rfl
  · intro last missing
    cases missing

section Updating

variable {last now interval : Float} {x t i : ℚ} (isLast : value? last = some x)
  (isNow : value? now = some t) (isInterval : value? interval = some i)
  (low : 2 ^ (-6 : ℤ) ≤ i) (high : i ≤ 2 ^ (-5 : ℤ))

include low in
theorem interval_pos : 0 < i :=
  lt_of_lt_of_le (by norm_num) low

include isLast isNow isInterval low

/-- The ticks between two times that are not too far apart can be counted, and there are
some only if the later time is the second. -/
theorem ticks_between {m : ℤ} (nonneg : 0 ≤ m) (room : m ≤ 1010) (apart : |t - x| ≤ 2 ^ m) :
    ∃ elapsed due, Scalar.quotient (now - last) interval = .ok elapsed ∧
      Scalar.integerPart elapsed = .ok due ∧ |(due : ℚ)| ≤ 2 ^ (m + 6) ∧ (0 < due → x < t) := by
  have positive := interval_pos low
  obtain ⟨difference, isDifference, nearDifference⟩ := sub_near isNow isLast
    (apart.trans (zpow_le_zpow_right₀ one_le_two (by omega)))
  have bounded : |difference / i| ≤ 2 ^ (m + 6) := by
    rw [abs_div, abs_of_pos positive, div_le_iff₀ positive]
    calc |difference| ≤ 2 ^ m := nearDifference.below m (by omega) apart
      _ = 2 ^ (m + 6) * 2 ^ (-6 : ℤ) := by
        rw [← zpow_add₀ two_ne_zero]
        congr 1
        omega
      _ ≤ 2 ^ (m + 6) * i := mul_le_mul_of_nonneg_left low (zpow_nonneg zero_le_two _)
  obtain ⟨elapsed, e, divided, isElapsed, nearElapsed⟩ := quotient_near isDifference isInterval
    positive.ne' (bounded.trans (zpow_le_zpow_right₀ one_le_two (by omega)))
  obtain ⟨due, isDue, within, sign⟩ := integerPart_of_value? isElapsed
  refine ⟨elapsed, due, divided, isDue, ?_, ?_⟩
  · exact within.trans (nearElapsed.below _ (by omega) bounded)
  · intro some
    have quotientPos := nearElapsed.pos_of_pos (sign some)
    have differencePos : 0 < difference := (div_pos_iff_of_pos_right positive).mp quotientPos
    exact sub_pos.mp (nearDifference.pos_of_pos differencePos)

/-- The ticks that are due at a time within the power can be counted. If there are any, the clock
is ahead of the last update, and so not too far for them to be few. -/
theorem ticks_due {k : ℤ} (nonneg : 0 ≤ k) (room : k ≤ 1000) (above : -2 ^ k ≤ x)
    (below : x ≤ 2 ^ (k + 3)) (inside : |t| < 2 ^ k) :
    ∃ elapsed due, Scalar.quotient (now - last) interval = .ok elapsed ∧
      Scalar.integerPart elapsed = .ok due ∧
      (0 < due → x < t ∧ |(due : ℚ)| ≤ 2 ^ (k + 7)) := by
  obtain ⟨lower, upper⟩ := abs_lt.mp inside
  have apart : |t - x| ≤ 2 ^ (k + 4) := by
    have unit : (0 : ℚ) < 2 ^ k := zpow_pos two_pos k
    have eight : (2 : ℚ) ^ (k + 3) = 2 ^ k * 8 := by
      rw [zpow_add₀ two_ne_zero]
      norm_num
    have sixteen : (2 : ℚ) ^ (k + 4) = 2 ^ k * 16 := by
      rw [zpow_add₀ two_ne_zero]
      norm_num
    rw [eight] at below
    rw [sixteen]
    apply abs_le.mpr
    constructor <;> linarith
  obtain ⟨elapsed, due, divided, isDue, -, order⟩ :=
    ticks_between isLast isNow isInterval low (by omega) (by omega) apart
  refine ⟨elapsed, due, divided, isDue, fun positive => ⟨order positive, ?_⟩⟩
  have close : |t - x| ≤ 2 ^ (k + 1) := by
    rw [abs_of_pos (sub_pos.mpr (order positive)), zpow_add_one₀ two_ne_zero]
    linarith
  obtain ⟨_, _, dividedAgain, isDueAgain, counted, -⟩ :=
    ticks_between isLast isNow isInterval low (by omega) (by omega) close
  rw [divided] at dividedAgain
  cases dividedAgain
  rw [isDue] at isDueAgain
  cases isDueAgain
  rw [add_assoc] at counted
  exact counted

omit isNow in
include high in
/-- Ticks that led up to a time within the power move the last update to one that is not far
outside. -/
theorem last_moved {k due : ℤ} (nonneg : 0 ≤ k) (room : k ≤ 1000) (above : -2 ^ k ≤ x)
    (below : x ≤ 2 ^ k) (positive : 0 < due) (counted : |(due : ℚ)| ≤ 2 ^ (k + 7)) :
    ∃ y, value? (last + Scalar.ofInt due * interval) = some y ∧ -2 ^ k ≤ y ∧ y ≤ 2 ^ (k + 3) := by
  have intervalPos := interval_pos low
  obtain ⟨ticks, isTicks, nearTicks⟩ := ofInt_near due
    (counted.trans (zpow_le_zpow_right₀ one_le_two (by omega)))
  have ticksNonneg : 0 ≤ ticks := nearTicks.nonneg (by exact_mod_cast positive.le)
  have passed : |ticks * i| ≤ 2 ^ (k + 2) := by
    rw [abs_mul, abs_of_pos intervalPos]
    calc |ticks| * i ≤ 2 ^ (k + 7) * 2 ^ (-5 : ℤ) :=
          mul_le_mul (nearTicks.below _ (by omega) counted) high intervalPos.le
            (zpow_nonneg zero_le_two _)
      _ = 2 ^ (k + 2) := by
        rw [← zpow_add₀ two_ne_zero]
        congr 1
        omega
  obtain ⟨span, isSpan, nearSpan⟩ := mul_near isTicks isInterval
    (passed.trans (zpow_le_zpow_right₀ one_le_two (by omega)))
  have spanNonneg : 0 ≤ span := nearSpan.nonneg (mul_nonneg ticksNonneg intervalPos.le)
  have spanBelow := nearSpan.below _ (by omega) passed
  rw [abs_of_nonneg spanNonneg] at spanBelow
  have unit : (0 : ℚ) < 2 ^ k := zpow_pos two_pos k
  have four : (2 : ℚ) ^ (k + 2) = 2 ^ k * 4 := by
    rw [zpow_add₀ two_ne_zero]
    norm_num
  have eight : (2 : ℚ) ^ (k + 3) = 2 ^ k * 8 := by
    rw [zpow_add₀ two_ne_zero]
    norm_num
  rw [four] at spanBelow
  have moved : |x + span| ≤ 2 ^ (k + 3) := by
    rw [eight]
    apply abs_le.mpr
    constructor <;> linarith
  obtain ⟨y, isMoved, nearMoved⟩ := add_near isLast isSpan
    (moved.trans (zpow_le_zpow_right₀ one_le_two (by omega)))
  refine ⟨y, isMoved, ?_, (abs_le.mp (nearMoved.below _ (by omega) moved)).2⟩
  by_cases ahead : 0 ≤ x + span
  · have := nearMoved.nonneg ahead
    linarith
  · have near : |x + span| ≤ 2 ^ k := by
      rw [abs_of_neg (not_le.mp ahead)]
      linarith
    exact (abs_le.mp (nearMoved.below k (by omega) near)).1

end Updating

variable {k : ℤ} {timers : Timers Float} {now : Float}

/-- An update at a time within the power does not fail, and leaves the timers steady. -/
theorem Steady.update (steady : timers.Steady k) (nonneg : 0 ≤ k) (room : k ≤ 1000)
    (within : Within k now) (registers : Registers) :
    ∃ due updated left, timers.update registers now = .ok (due, updated, left) ∧
      updated.Steady k := by
  obtain ⟨t, isNow, inside⟩ := within
  obtain ⟨lower, upper⟩ := abs_lt.mp inside
  unfold Timers.update
  cases isLast : timers.last with
  | none =>
      refine ⟨_, _, _, rfl, steady.interval, ?_⟩
      intro first isFirst
      cases isFirst
      exact ⟨t, isNow, lower.le,
        upper.le.trans (zpow_le_zpow_right₀ one_le_two (le_add_of_nonneg_right (by norm_num)))⟩
  | some last =>
      obtain ⟨i, isInterval, low, high⟩ := steady.interval
      obtain ⟨x, standsLast, above, below⟩ := steady.last last isLast
      obtain ⟨elapsed, due, divided, isDue, ahead⟩ :=
        ticks_due standsLast isNow isInterval low nonneg room above below inside
      dsimp only
      rw [divided]
      change ∃ _ _ _, (Scalar.integerPart elapsed >>= fun due => _) = _ ∧ _
      rw [isDue]
      change ∃ _ _ _, (if due ≤ 0 then _ else _) = _ ∧ _
      by_cases none : due ≤ 0
      · rw [if_pos none]
        exact ⟨_, _, _, rfl, steady⟩
      · rw [if_neg none]
        have positive : 0 < due := not_le.mp none
        obtain ⟨earlier, counted⟩ := ahead positive
        obtain ⟨y, isMoved, bounds⟩ := last_moved standsLast isInterval low high nonneg room above
          (earlier.le.trans upper.le) positive counted
        refine ⟨_, _, _, rfl, steady.interval, ?_⟩
        intro moved isLater
        cases isLater
        exact ⟨y, isMoved, bounds⟩

end Timers

end Chip8
