import Chip8.Proofs.Machine.Contact

/-!
Runs in a scripted world.

All that is outside of such a run is the number of polls that it has made and a clock. The events
of each poll are written down beforehand, and the clock is moved by what is slept and by nothing
else.
-/

namespace Chip8

structure Outside (Time : Type) where
  polls : Nat
  clock : Time

/-- The host of a scripted world; the events of poll `k`, counted from one, are `script k`. -/
def Host.scripted {Time : Type} [Scalar Time] (script : Nat → List Event) :
    Host Time (Outside Time) where
  poll outside := (script (outside.polls + 1), { outside with polls := outside.polls + 1 })
  readClock outside := (some outside.clock, outside)
  perform effect outside :=
    match effect with
    | .sleep duration => { outside with clock := outside.clock + duration }
    | _ => outside

variable {Time : Type} [Scalar Time] {script : Nat → List Event}

theorem Host.scripted_tell (outside : Outside Time) {effects : List (Effect Time)}
    (tell : ∀ effect ∈ effects, effect.Tells) :
    (Host.scripted script).performAll effects outside = outside := by
  unfold Host.performAll
  induction effects with
  | nil => rfl
  | cons effect rest ih =>
      obtain ⟨tells, others⟩ := List.forall_mem_cons.mp tell
      cases effect with
      | log record | render frame => exact ih others
      | tone active | sleep duration => cases tells

namespace Machine

theorem scripted_receive (machine : Machine Time) (events : List Event) (outside : Outside Time) :
    (Host.scripted script).performAll (machine.receive events).effects outside = outside := by
  obtain ⟨records, told⟩ := machine.receive_effects events
  rw [told]
  exact Host.scripted_tell outside (Effect.tells_log records)

/-- What a pass comes to in a scripted world, when it is made. -/
theorem scripted_pass {limit : Option Int} {machine : Machine Time} (due : Time)
    (outside : Outside Time) (goes : (machine.halted || machine.limitReached limit) = false) :
    pass (Host.scripted script) limit ⟨machine, due, outside⟩ =
      match (machine.receive (script (outside.polls + 1))).attempt with
      | .error fault after =>
          .over (.failed fault) after { outside with polls := outside.polls + 1 }
      | .ok _ after =>
          if after.halted then .over .finished after { outside with polls := outside.polls + 1 }
          else passAt (Host.scripted script)
            ⟨after, due, { outside with polls := outside.polls + 1 }⟩ outside.clock := by
  have polled : (Host.scripted script).poll outside =
      (script (outside.polls + 1), { outside with polls := outside.polls + 1 }) := rfl
  unfold pass
  simp only [goes, Bool.false_eq_true, ↓reduceIte, polled, scripted_receive]
  rfl

theorem scripted_settle (ending : Ending) (machine : Machine Time) (outside : Outside Time) :
    settle (Host.scripted script) ending machine outside = ⟨ending, machine, outside⟩ := by
  cases ending <;> rfl

end Machine

end Chip8
