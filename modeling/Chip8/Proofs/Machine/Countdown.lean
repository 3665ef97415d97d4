import Chip8.Proofs.Machine.Reachable
import Chip8.Proofs.Timers.Exact

/-!
Counting down all at once.

However many ticks have fallen due, an update applies no more than 255 of them. A program cannot
tell, for whatever it does, both timers hold a byte, and a timer that has reached zero stays there.
So the ticks that are left out would have changed nothing, and it makes no difference whether
ticks are applied together or a few at a time.
-/

namespace Chip8

namespace Timers

variable {registers : Registers}

/-- The bound on the ticks of an update makes no difference, since both timers hold a byte. -/
theorem tickAll_eq (bounded : registers.Bounded) (due : ℤ) :
    tickAll registers due = due.toNat.repeat Registers.tick registers := by
  have delayInside := bounded.delayInside
  have soundInside := bounded.soundInside
  unfold tickAll
  rw [Registers.ticks_closed bounded, Registers.ticks_closed bounded]
  congr 1 <;> omega

theorem tickAll_bounded (bounded : registers.Bounded) (due : ℤ) :
    (tickAll registers due).Bounded := by
  unfold tickAll
  induction (min due 255).toNat with
  | zero => exact bounded
  | succ count ih => exact ih.tick

/-- Ticks can be applied in two parts. -/
theorem tickAll_add (bounded : registers.Bounded) {first second : ℤ} (nonneg : 0 ≤ first)
    (further : 0 ≤ second) :
    tickAll (tickAll registers first) second = tickAll registers (first + second) := by
  have between := tickAll_bounded bounded first
  rw [tickAll_eq between, Registers.ticks_closed between, tickAll_eq bounded,
    Registers.ticks_closed bounded, tickAll_eq bounded, Registers.ticks_closed bounded]
  congr 1
  · dsimp only
    omega
  · dsimp only
    omega

/-- Ticks can be applied in any parts. -/
theorem foldl_tickAll (bounded : registers.Bounded) (parts : List ℕ) :
    parts.foldl (fun between (part : ℕ) => tickAll between part) registers =
      tickAll registers parts.sum := by
  induction parts generalizing registers with
  | nil => rfl
  | cons part later ih =>
      rw [List.foldl_cons, ih (tickAll_bounded bounded part),
        tickAll_add bounded (Int.natCast_nonneg part) (Int.natCast_nonneg later.sum),
        List.sum_cons, Nat.cast_add]

variable {Time : Type} [Scalar Time] {timers next : Timers Time} {left : Registers}

/-- Updates at any times apply together as many ticks as they count together. -/
theorem updateAll_applies (bounded : registers.Bounded) {times : List Time} {counts : List ℤ}
    (updated : timers.updateAll registers times = .ok (counts, next, left)) :
    0 ≤ counts.sum ∧ left = tickAll registers counts.sum := by
  induction times generalizing timers registers counts with
  | nil =>
      cases updated
      exact ⟨Int.le_refl 0, rfl⟩
  | cons now later ih =>
      rw [updateAll] at updated
      obtain ⟨⟨due, between, passed⟩, first, updated⟩ := of_bind_ok updated
      obtain ⟨⟨others, last, done⟩, rest, updated⟩ := of_bind_ok updated
      cases updated
      obtain ⟨nonneg, rfl⟩ := update_applies first
      obtain ⟨further, rfl⟩ := ih (tickAll_bounded bounded due) rest
      rw [List.sum_cons]
      exact ⟨Int.add_nonneg nonneg further, tickAll_add bounded nonneg further⟩

end Timers

/-- The timers of a reachable machine after any number of ticks that an update has counted. They
are what that many single ticks leave: both are taken down by the number, and neither below zero,
and nothing else changes. The tone sounds on exactly if the sound timer held more. Ticks that are
applied in parts, or by several updates whatever the clock shows, come to the same. -/
theorem Reachable.ticks_at_once {Time : Type} [Scalar Time] {settings : Settings}
    {program : List UInt8} {machine : Machine Time}
    (reachable : Reachable settings program machine) (due : ℕ) :
    let registers := machine.core.registers
    let left := Timers.tickAll registers due
    left = due.repeat Registers.tick registers ∧
      left = { registers with
        delay := max 0 (registers.delay - due)
        sound := max 0 (registers.sound - due) } ∧
      (left.toneActive = true ↔ registers.sound > due) ∧
      (∀ parts : List ℕ, parts.sum = due →
        parts.foldl (fun between (part : ℕ) => Timers.tickAll between part) registers = left) ∧
      ∀ (timers next : Timers Time) (times : List Time) (counts : List ℤ) (after : Registers),
        timers.updateAll registers times = .ok (counts, next, after) → counts.sum = due →
          after = left := by
  intro registers left
  have bounded : registers.Bounded := reachable.core_wellFormed.registers
  have single : left = due.repeat Registers.tick registers := Timers.tickAll_eq bounded due
  have closed := single.trans (Registers.ticks_closed bounded due)
  rw [max_comm _ 0, max_comm _ 0] at closed
  refine ⟨single, closed, ?_, ?_, ?_⟩
  · rw [closed]
    unfold Registers.toneActive
    rw [decide_eq_true_iff]
    dsimp only
    omega
  · intro parts total
    rw [Timers.foldl_tickAll bounded, total]
  · intro timers next times counts after updated total
    rw [(Timers.updateAll_applies bounded updated).2, total]

/-- A sound timer that was set to 255 is silent after 300 ticks at once, and after 200 and 100. -/
theorem ticks_at_once_beyond_a_byte :
    ∃ machine : Machine Rat,
      Machine.boot ⟨700, false, 0, [], false, "tone"⟩ [0x60, 0xFF, 0xF0, 0x18] = .ok machine ∧
        let registers := machine.step.state.step.state.core.registers
        registers.sound = 255 ∧ (Timers.tickAll registers 300).sound = 0 ∧
          [200, 100].foldl (fun between (part : ℕ) => Timers.tickAll between part) registers =
            Timers.tickAll registers 300 := by
  obtain ⟨machine, started⟩ : ∃ machine : Machine Rat,
      Machine.boot ⟨700, false, 0, [], false, "tone"⟩ [0x60, 0xFF, 0xF0, 0x18] =
        .ok machine := ⟨_, rfl⟩
  have start : machine.core.waiting = none ∧ machine.core.registers.counter = 0x200 := by
    obtain ⟨timers, interval, memory, _, _, _, rfl⟩ := Machine.boot_eq_ok_iff.mp started
    exact ⟨rfl, rfl⟩
  have image := Machine.boot_byteAt started
  let filled := machine.withCore (machine.core.put 0 255).advance.counted
  have fills : machine.core.fetch = .ok (Instruction.loadByte 0 255).assemble :=
    (Machine.boot_fetch started).trans (congrArg Except.ok (by decide))
  have atFilled : machine.step.state = filled := Machine.step_of_perform start.1 fills rfl
  have reached := Reachable.step (.boot started)
  rw [atFilled] at reached
  have sounds : filled.core.fetch = .ok (Instruction.setSound 0).assemble :=
    (reached.core_wellFormed.toBounded.fetch_of_bytes (congrArg (· + 2) start.2) (by decide)
      (image 2 rfl) (image 3 rfl)).trans (congrArg Except.ok (by decide))
  have idle : filled.core.waiting = none := start.1
  have atSounding : filled.step.state.core.registers.sound = 255 := by
    rw [Machine.step_of_perform idle sounds rfl]
    exact congrArg (fun byte : UInt8 => (byte.toNat : ℤ))
      (Registers.byte_put_self machine.core.registers 0 255)
  obtain ⟨_, closed, _, parts, _⟩ := reached.step.ticks_at_once 300
  refine ⟨machine, started, ?_⟩
  rw [atFilled]
  refine ⟨atSounding, ?_, parts [200, 100] rfl⟩
  exact (congrArg Registers.sound closed).trans (by rw [atSounding]; rfl)

end Chip8
