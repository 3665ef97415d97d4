import Chip8.Layout
import Chip8.Proofs.Scalar.Exact
import Chip8.Timers

/-!
The timers on exact time.

Whatever the clock shows from one update to the next, forward or back, the ticks that were
counted are the whole intervals between the first reading and the largest one so far. The
time of the last update lies that many intervals behind the first reading, and less than one
interval ahead of it lies the largest. So no time is lost between updates and none is counted
twice.
-/

namespace Chip8.Timers

open Exact

/-- Update the timers at some times, one after another, and collect the ticks of each. -/
def updateAll {Time : Type} [Scalar Time] (timers : Timers Time) (registers : Registers) :
    List Time → Except Fault (List Int × Timers Time × Registers)
  | [] => .ok ([], timers, registers)
  | now :: later => do
      let (due, next, left) ← timers.update registers now
      let (counts, last, done) ← next.updateAll left later
      return (due :: counts, last, done)

/-- Timers that have counted a total of ticks since a first reading, up to a largest one. -/
structure Counted (rate first largest : ℚ) (total : ℤ) (timers : Timers ℚ) : Prop where
  interval : timers.interval = 1 / rate
  last : timers.last = some (first + total * (1 / rate))
  total : total = ⌊(largest - first) * rate⌋

theorem ofRate_exact {rate : ℚ} (positive : 0 < rate) :
    ofRate rate = .ok ⟨1 / rate, none⟩ := by
  unfold ofRate
  rw [quotient_eq _ positive.ne']
  rfl

/-- The timers of a machine tick sixty times a second. -/
theorem ofRate_timerRate :
    (ofRate (Scalar.ofInt Layout.timerRate) : Except Fault (Timers ℚ)) = .ok ⟨1 / 60, none⟩ :=
  ofRate_exact (show (0 : ℚ) < 60 by norm_num)

variable {rate first largest : ℚ} {total : ℤ} {timers : Timers ℚ}

/-- Timers that tick can be brought up to any time. -/
theorem update_exact_ok (ticking : timers.interval ≠ 0) (registers : Registers) (now : ℚ) :
    ∃ due next left, timers.update registers now = .ok (due, next, left) := by
  unfold update
  cases timers.last with
  | none => exact ⟨_, _, _, rfl⟩
  | some last =>
      dsimp only
      rw [quotient_eq _ ticking]
      change ∃ _ _ _, (if _ ≤ 0 then _ else _) = _
      split <;> exact ⟨_, _, _, rfl⟩

/-- What an update makes of the intervals that have passed since the last one. -/
theorem update_exact (positive : 0 < rate) (counted : timers.Counted rate first largest total)
    {now : ℚ} {due : ℤ}
    (whole : Scalar.integerPart ((now - first) * rate - total) = .ok due)
    (registers : Registers) :
    ∃ next left, timers.update registers now = .ok (max due 0, next, left) ∧
      next.interval = 1 / rate ∧
      next.last = some (first + (total + max due 0 : ℤ) * (1 / rate)) := by
  have elapsed : Scalar.quotient (now - (first + total * (1 / rate))) timers.interval =
      .ok ((now - first) * rate - total) := by
    rw [counted.interval, quotient_eq _ (one_div_ne_zero positive.ne')]
    congr 1
    field_simp
    ring
  unfold update
  rw [counted.last]
  change ∃ next left, (Scalar.quotient (now - (first + total * (1 / rate))) timers.interval >>=
    fun elapsed => _) = _ ∧ _
  rw [elapsed]
  change ∃ next left, (Scalar.integerPart ((now - first) * rate - total) >>= fun due => _) = _ ∧ _
  rw [whole]
  change ∃ next left, (if due ≤ 0 then _ else _) = _ ∧ _
  by_cases none : due ≤ 0
  · rw [if_pos none, max_eq_right none, add_zero]
    exact ⟨_, _, rfl, counted.interval, counted.last⟩
  · rw [if_neg none, max_eq_left (not_le.mp none).le]
    refine ⟨_, _, rfl, counted.interval, congrArg some ?_⟩
    change first + total * (1 / rate) + (due : ℚ) * timers.interval = _
    rw [counted.interval]
    push_cast
    ring

/-- An update counts the whole intervals that have been added, and carries the rest. -/
theorem Counted.update (positive : 0 < rate) (counted : timers.Counted rate first largest total)
    (now : ℚ) (registers : Registers) :
    ∃ due next left, timers.update registers now = .ok (due, next, left) ∧
      next.Counted rate first (max largest now) (total + due) := by
  have reached : (total : ℚ) ≤ (largest - first) * rate := by
    rw [counted.total]
    exact Int.floor_le _
  by_cases ahead : largest ≤ now
  · have forward : (largest - first) * rate ≤ (now - first) * rate :=
      mul_le_mul_of_nonneg_right (sub_le_sub_right ahead first) positive.le
    have nonneg : 0 ≤ (now - first) * rate - total := sub_nonneg.mpr (reached.trans forward)
    have whole : ⌊(now - first) * rate - total⌋ = ⌊(now - first) * rate⌋ - total :=
      Int.floor_sub_intCast _ total
    obtain ⟨next, left, updated, interval, last⟩ :=
      update_exact positive counted (integerPart_of_nonneg nonneg) registers
    have counts : max ⌊(now - first) * rate - total⌋ 0 = ⌊(now - first) * rate⌋ - total := by
      rw [max_eq_left (Int.floor_nonneg.mpr nonneg), whole]
    refine ⟨_, next, left, updated, interval, last, ?_⟩
    rw [counts, max_eq_right ahead]
    ring
  · -- A reading behind the largest adds nothing, since the ticks up to that one are counted.
    have behind : (now - first) * rate - total < 1 := by
      have backward : (now - first) * rate < (largest - first) * rate :=
        mul_lt_mul_of_pos_right (sub_lt_sub_right (not_le.mp ahead) first) positive
      have within : (largest - first) * rate < total + 1 := by
        rw [counted.total]
        exact Int.lt_floor_add_one _
      linarith
    obtain ⟨due, whole, none⟩ := integerPart_of_lt_one behind
    obtain ⟨next, left, updated, interval, last⟩ := update_exact positive counted whole registers
    refine ⟨_, next, left, updated, interval, last, ?_⟩
    rw [max_eq_right none, add_zero, max_eq_left (not_le.mp ahead).le]
    exact counted.total

theorem Counted.updateAll (positive : 0 < rate) (counted : timers.Counted rate first largest total)
    (later : List ℚ) (registers : Registers) :
    ∃ counts next left, timers.updateAll registers later = .ok (counts, next, left) ∧
      counts.length = later.length ∧
      next.Counted rate first (later.foldl max largest) (total + counts.sum) := by
  induction later generalizing timers largest total registers with
  | nil =>
      refine ⟨[], timers, registers, rfl, rfl, ?_⟩
      rw [List.sum_nil, add_zero]
      exact counted
  | cons now later ih =>
      obtain ⟨due, between, left, updated, counted⟩ := counted.update positive now registers
      obtain ⟨counts, next, done, others, length, kept⟩ := ih counted left
      refine ⟨due :: counts, next, done, ?_, congrArg (· + 1) length, ?_⟩
      · unfold Timers.updateAll
        rw [updated]
        change (between.updateAll left later >>= fun outcome => _) = _
        rw [others]
        rfl
      · rw [List.sum_cons, ← add_assoc]
        exact kept

/-- The largest reading is less than an interval ahead of the last update. -/
theorem Counted.remainder (positive : 0 < rate)
    (counted : timers.Counted rate first largest total) :
    0 ≤ largest - (first + total * (1 / rate)) ∧
      largest - (first + total * (1 / rate)) < 1 / rate := by
  have passed : largest - (first + total * (1 / rate)) =
      ((largest - first) * rate - total) * (1 / rate) := by
    field_simp
    ring
  have interval : 0 < 1 / rate := one_div_pos.mpr positive
  rw [passed, counted.total]
  constructor
  · exact mul_nonneg (sub_nonneg.mpr (Int.floor_le _)) interval.le
  · have fraction : (largest - first) * rate - ⌊(largest - first) * rate⌋ < 1 :=
      Int.fract_lt_one ((largest - first) * rate)
    calc ((largest - first) * rate - ⌊(largest - first) * rate⌋) * (1 / rate)
        < 1 * (1 / rate) := mul_lt_mul_of_pos_right fraction interval
      _ = 1 / rate := one_mul _

theorem Counted.initial (rate first : ℚ) :
    Counted rate first first 0 ⟨1 / rate, some first⟩ where
  interval := rfl
  last := by rw [Int.cast_zero, zero_mul, add_zero]
  total := by rw [sub_self, zero_mul, Int.floor_zero]

/-- New timers can be updated at any times. The ticks up to each update are the whole intervals
from the first reading to the largest so far; that many intervals behind the first reading lies
the time they are updated to, and the largest less than an interval ahead of it. So updates in
between, or at earlier times, make no difference to the sum. -/
theorem updateAll_ticks (positive : 0 < rate) (first : ℚ) (later : List ℚ)
    (registers : Registers) :
    ∃ new : Timers ℚ, ofRate rate = .ok new ∧ new.last = none ∧
      ∃ counts updated left,
        new.updateAll registers (first :: later) = .ok (counts, updated, left) ∧
          counts.length = later.length + 1 ∧
          counts.sum = ⌊(later.foldl max first - first) * rate⌋ ∧
          (∃ last, updated.last = some last ∧ last = first + counts.sum * (1 / rate) ∧
            0 ≤ later.foldl max first - last ∧ later.foldl max first - last < 1 / rate) ∧
          ∀ others : List ℚ, others.foldl max first = later.foldl max first →
            ∃ otherCounts otherTimers otherLeft,
              new.updateAll registers (first :: others) =
                .ok (otherCounts, otherTimers, otherLeft) ∧ otherCounts.sum = counts.sum := by
  have started : ∀ readings : List ℚ, ∃ counts updated left,
      (⟨1 / rate, none⟩ : Timers ℚ).updateAll registers (first :: readings) =
          .ok (0 :: counts, updated, left) ∧ counts.length = readings.length ∧
        updated.Counted rate first (readings.foldl max first) counts.sum := by
    intro readings
    obtain ⟨counts, updated, left, done, length, counted⟩ :=
      (Counted.initial rate first).updateAll positive readings registers
    rw [zero_add] at counted
    refine ⟨counts, updated, left, ?_, length, counted⟩
    change (updateAll ⟨1 / rate, some first⟩ registers readings >>= fun outcome => _) = _
    rw [done]
    rfl
  obtain ⟨counts, updated, left, done, length, counted⟩ := started later
  refine ⟨⟨1 / rate, none⟩, ofRate_exact positive, rfl, 0 :: counts, updated, left, done,
    congrArg (· + 1) length, ?_, ⟨_, counted.last, ?_, counted.remainder positive⟩, ?_⟩
  · rw [List.sum_cons, zero_add]
    exact counted.total
  · rw [List.sum_cons, zero_add]
  · intro others same
    obtain ⟨otherCounts, otherTimers, otherLeft, otherDone, _, otherCounted⟩ := started others
    refine ⟨0 :: otherCounts, otherTimers, otherLeft, otherDone, ?_⟩
    rw [List.sum_cons, List.sum_cons, otherCounted.total, counted.total, same]

/-- At sixty ticks a second a clock that goes back on its way to one second loses none. -/
theorem updateAll_ticks_back_and_forth :
    ∃ (new : Timers ℚ) (counts : List ℤ), ofRate 60 = .ok new ∧
      (∃ updated left, new.updateAll (Registers.ofDepth 16) [0, 1 / 2, 1 / 4, 1] =
        .ok (counts, updated, left)) ∧
      counts.sum = 60 ∧
      ∃ otherCounts otherTimers otherLeft,
        new.updateAll (Registers.ofDepth 16) [0, 1] = .ok (otherCounts, otherTimers, otherLeft) ∧
          otherCounts.sum = counts.sum := by
  obtain ⟨new, made, _, counts, updated, left, done, _, total, _, others⟩ :=
    updateAll_ticks (show (0 : ℚ) < 60 by norm_num) 0 [1 / 2, 1 / 4, 1] (Registers.ofDepth 16)
  have largest : [(1 : ℚ) / 2, 1 / 4, 1].foldl max 0 = 1 := by norm_num [List.foldl]
  refine ⟨new, counts, made, ⟨updated, left, done⟩, ?_, others [1] ?_⟩
  · rw [total, largest]
    norm_num
  · rw [largest]
    norm_num [List.foldl]

end Chip8.Timers
