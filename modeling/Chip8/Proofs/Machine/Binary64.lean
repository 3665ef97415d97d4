import Chip8.Proofs.Machine.Ending
import Chip8.Proofs.Timers.Binary64

/-!
Machines on binary64 time.

A machine whose speed is far below the largest number starts with every program that fits into
memory, and is sound. So on a clock that shows times of that size nothing but its program makes
it fail.
-/

namespace Chip8

open Binary64

theorem Timers.steady_lasting {k : ℤ} (nonneg : 0 ≤ k) (room : k ≤ 1000) :
    Lasting (Steady k) (Within k) :=
  fun _ registers _ steady within => steady.update nonneg room within registers

namespace Machine

theorem intervalOf_of_small {speed : ℤ} {k : ℕ} (small : speed < 2 ^ k) (room : k ≤ 1023) :
    ∃ interval : Float, intervalOf speed = .ok interval := by
  unfold intervalOf
  split
  · next positive =>
      have least : (2 : ℚ) ^ (0 : ℤ) ≤ |(speed : ℚ)| := by
        rw [zpow_zero]
        exact_mod_cast (Int.one_le_abs positive.ne')
      have most : |(speed : ℚ)| ≤ 2 ^ (1023 : ℤ) := by
        have nonneg : (0 : ℚ) ≤ speed := by exact_mod_cast positive.le
        have below : (speed : ℚ) ≤ 2 ^ (k : ℤ) := by exact_mod_cast small.le
        rw [abs_of_nonneg nonneg]
        exact below.trans (zpow_le_zpow_right₀ one_le_two (by omega))
      obtain ⟨rate, isRate, near⟩ := ofInt_near speed most
      have above := near.above 0 (by norm_num) least
      have nonzero : rate ≠ 0 := by
        rintro rfl
        rw [abs_zero, zpow_zero] at above
        exact absurd above (by norm_num)
      have fits : (Scalar.ofInteger speed : Except Fault Float) = .ok (Scalar.ofInt speed) :=
        if_pos (isFinite_of_value? isRate)
      rw [fits]
      exact ⟨_, quotient_eq (Scalar.ofInt 1) isRate nonzero⟩
  · exact ⟨_, rfl⟩

theorem defaultSpeed_small : (Layout.defaultSpeed : ℤ) < 2 ^ 1000 :=
  lt_of_lt_of_le (by norm_num : (500 : ℤ) < 2 ^ 9) (pow_le_pow_right₀ (by norm_num) (by norm_num))

/-- A program that fits makes a sound machine. One that does not is refused, with its length and
the room there is. -/
theorem boot_cases {settings : Settings} (small : settings.speed < 2 ^ 1000)
    (program : List UInt8) :
    (program.length ≤ 3584 ∧ ∃ machine : Machine Float,
        boot settings program = .ok machine ∧ machine.Sound (Timers.Steady 1000)) ∨
      (3584 < program.length ∧
        (boot settings program : Except Fault (Machine Float)) =
          .error (.unusableProgram settings.name
            ("program is " ++ toString program.length ++ " bytes, only 3584 available"))) := by
  obtain ⟨timers, ticking, steady⟩ := Timers.ofRate_steady 1000
  obtain ⟨interval, paced⟩ := intervalOf_of_small small (by norm_num)
  rcases Nat.lt_or_ge 3584 program.length with long | fits
  · right
    refine ⟨long, ?_⟩
    have refused := Memory.ofSize_load_of_long long settings.name
    unfold boot blank
    rw [ticking, paced]
    change (Memory.load (Memory.ofSize Layout.memorySize) program Layout.programStart settings.name
      >>= fun memory => _) = _
    rw [refused]
    rfl
  · left
    obtain ⟨machine, started⟩ := boots_iff.mpr ⟨fits, ⟨timers, ticking⟩, interval, paced⟩
    refine ⟨fits, machine, started, boot_wellFormed started, ?_⟩
    obtain ⟨found, _, _, isFound, _, _, rfl⟩ := boot_eq_ok_iff.mp started
    rw [ticking] at isFound
    cases isFound
    exact steady

end Machine

end Chip8
