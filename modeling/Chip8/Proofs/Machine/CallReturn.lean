import Chip8.Proofs.Machine.Reachable

/-!
Calls and their returns.

A call puts the address behind it on the return stack, and only a return takes an address
off again. So the addresses that a call leaves are the lower end of the stack until a return
takes the one of the call, however deep the calls in between are nested and whatever else
the program does. That return is the first step to bring the stack back to the depth it had
before the call, and it goes on right behind the call.
-/

namespace Chip8

namespace Core

/-- The return addresses that are stored, the oldest first. -/
def callers (core : Core) : List Int :=
  core.registers.stack.addresses

/-- What an act can do to the return addresses of a core. -/
inductive Turn (core : Core) : Act → Core → Prop
  | keeps {act : Act} {after : Core} :
      after.registers.stack = core.registers.stack → Turn core act after
  | calls {after : Core} :
      after.callers = core.callers ++ [core.registers.counter + 2] → Turn core .step after
  | returns {after : Core} :
      core.waiting = none → core.fetch = .ok 0x00EE → core.step.result = .ok true →
        core.callers = after.callers ++ [after.registers.counter] → Turn core .step after

variable {core : Core}

theorem Bounded.length_callers (bounded : core.Bounded) :
    (core.callers.length : Int) = core.registers.stack.pointer :=
  bounded.registers.stack.length_addresses

/-- An instruction that is completed calls, returns or leaves the return stack alone. -/
theorem Bounded.turn_of_perform (bounded : core.Bounded) (idle : core.waiting = none)
    {instruction : Instruction} {after : Core} (fetched : core.fetch = .ok instruction.assemble)
    (performed : core.perform instruction = .ok () after) :
    core.Turn .step after.counted := by
  have stepped := step_of_execute idle fetched ((core.execute_assembled _).trans performed)
  have rest := (bounded.of_perform performed).2.2.2
  cases instruction with
  | call target =>
      obtain ⟨stack, pushed, rfl⟩ := of_perform_call performed
      exact .calls (bounded.registers.stack.addresses_of_push pushed)
  | returnToCaller =>
      obtain ⟨counter, stack, popped, rfl⟩ := of_perform_return performed
      refine .returns idle fetched ?_ (bounded.registers.stack.addresses_of_pop popped)
      rw [stepped, Attempt.result_ok]
  | _ =>
      have same := congrArg (fun reached : Core => reached.registers.stack) rest
      exact .keeps same

theorem WellFormed.turn (wellFormed : core.WellFormed) (act : Act) :
    core.Turn act (core.act act).state := by
  cases act with
  | tick => exact .keeps rfl
  | key number pressed =>
      obtain ⟨keypad, same⟩ := core.act_key_state number pressed
      rw [same]
      exact .keeps rfl
  | step =>
      change core.Turn .step core.step.state
      cases waits : core.waiting with
      | some x =>
          rw [step_of_waiting waits]
          cases changed : core.keypad.fresh with
          | false =>
              rw [deliverKey_of_stale changed]
              exact .keeps rfl
          | true =>
              rw [deliverKey_of_fresh changed]
              exact .keeps rfl
      | none =>
          rcases wellFormed.toBounded.step_cases waits with
            ⟨instruction, after, fetched, performed, _, stepped⟩ | ⟨fault, failed, _⟩
          · rw [stepped]
            exact wellFormed.toBounded.turn_of_perform waits fetched performed
          · rw [failed]
            exact .keeps rfl

/-! ### The lower end of the stack -/

/-- Addresses at the lower end of the stack stay there through an act, unless it is the return
that takes the last of them. -/
theorem Turn.lower_end {act : Act} {after : Core} {older : List Int} {caller : Int}
    (turn : core.Turn act after) (held : older ++ [caller] <+: core.callers) :
    older ++ [caller] <+: after.callers ∨
      act = .step ∧ core.waiting = none ∧ core.fetch = .ok 0x00EE ∧ core.step.result = .ok true ∧
        after.callers = older ∧ after.registers.counter = caller := by
  cases turn with
  | keeps same =>
      left
      unfold callers
      rw [same]
      exact held
  | calls longer =>
      left
      rw [longer]
      exact held.trans (List.prefix_append _ _)
  | returns idle fetched answered shorter =>
      rw [shorter, List.prefix_concat_iff] at held
      rcases held with whole | below
      · obtain ⟨same, last⟩ := List.append_inj' whole rfl
        exact Or.inr ⟨rfl, idle, fetched, answered, same.symm, (List.singleton_inj.mp last).symm⟩
      · exact Or.inl below

/-- They stay along any acts that do not bring the stack back to the depth below them. -/
theorem WellFormed.lower_end_kept (wellFormed : core.WellFormed) {older : List Int} {caller : Int}
    (held : older ++ [caller] <+: core.callers) (acts : List Act)
    (away : ∀ earlier, earlier <+: acts →
      (core.replay earlier).2.callers.length ≠ older.length) :
    older ++ [caller] <+: (core.replay acts).2.callers := by
  induction acts generalizing core with
  | nil => exact held
  | cons act rest ih =>
      have next : older ++ [caller] <+: (core.act act).state.callers := by
        rcases (wellFormed.turn act).lower_end held with kept | ⟨_, _, _, _, unwound, _⟩
        · exact kept
        · have one : [act] <+: act :: rest := ⟨rest, rfl⟩
          exact absurd (congrArg List.length unwound) (away [act] one)
      apply ih (wellFormed.act act) next
      intro earlier isPrefix
      exact away (act :: earlier) (List.cons_prefix_cons.mpr ⟨rfl, isPrefix⟩)

/-- The return takes the caller, and the core goes on there, when an act brings the stack back to
the depth below it. -/
theorem WellFormed.unwinds (wellFormed : core.WellFormed) {older : List Int} {caller : Int}
    (held : older ++ [caller] <+: core.callers) {act : Act}
    (back : (core.act act).state.callers.length = older.length) :
    act = .step ∧ core.waiting = none ∧ core.fetch = .ok 0x00EE ∧ core.step.result = .ok true ∧
      (core.act act).state.callers = older ∧ (core.act act).state.registers.counter = caller := by
  rcases (wellFormed.turn act).lower_end held with kept | unwound
  · have longer := kept.length_le
    rw [back, List.length_append, List.length_singleton] at longer
    omega
  · exact unwound

/-! ### Calling and returning -/

/-- A core that has carried out a call or a return: it goes on elsewhere, with another return
stack. -/
def turned (core : Core) (stack : ReturnStack) (counter : Int) : Core :=
  { core with registers := { core.registers with stack, counter } }.counted

/-- With room on the stack a call is carried out. -/
theorem WellFormed.step_calls (wellFormed : core.WellFormed) (target : Fin 4096)
    (idle : core.waiting = none) (fetched : core.fetch = .ok (0x2000 + target.val))
    (room : core.registers.stack.pointer ≠ 16) :
    ∃ stack, core.step = .ok true (core.turned stack target.val) ∧
      stack.addresses = core.callers ++ [core.registers.counter + 2] ∧
      stack.pointer = core.registers.stack.pointer + 1 := by
  rcases wellFormed.toBounded.perform (wellFormed.toBounded.of_fetch fetched).1 (.call target) with
    ⟨after, performed, kept⟩ | ⟨fault, _, full, _⟩
  · have executed : core.execute (0x2000 + target.val : Nat) = .ok () after :=
      (core.execute_assembled (.call target)).trans performed
    have stepped := step_of_execute idle fetched executed
    obtain ⟨stack, pushed, rfl⟩ := of_perform_call performed
    have addresses := wellFormed.registers.stack.addresses_of_push pushed
    refine ⟨stack, stepped, addresses, ?_⟩
    rw [← kept.registers.stack.length_addresses, ← wellFormed.registers.stack.length_addresses,
      addresses, List.length_append, List.length_singleton, Int.natCast_add, Int.natCast_one]
  · exact absurd full room

/-- With an address on the stack a return is carried out. -/
theorem WellFormed.step_returns (wellFormed : core.WellFormed) {older : List Int} {caller : Int}
    (idle : core.waiting = none) (fetched : core.fetch = .ok 0x00EE)
    (held : core.callers = older ++ [caller]) :
    ∃ stack, core.step = .ok true (core.turned stack caller) ∧
      stack.addresses = older ∧ stack.pointer = older.length := by
  rcases wellFormed.toBounded.perform (wellFormed.toBounded.of_fetch fetched).1 .returnToCaller with
    ⟨after, performed, kept⟩ | ⟨fault, _, empty, _⟩
  · have executed : core.execute (0x00EE : Nat) = .ok () after :=
      (core.execute_assembled .returnToCaller).trans performed
    have stepped := step_of_execute idle fetched executed
    obtain ⟨counter, stack, popped, rfl⟩ := of_perform_return performed
    have shorter : core.callers = _ := wellFormed.registers.stack.addresses_of_pop popped
    rw [held] at shorter
    obtain ⟨same, last⟩ := List.append_inj' shorter rfl
    rw [List.singleton_inj.mp last, same]
    exact ⟨stack, stepped, rfl, kept.registers.stack.length_addresses.symm⟩
  · have none := wellFormed.toBounded.length_callers
    rw [held, empty, List.length_append, List.length_singleton] at none
    omega

end Core

/-! ### Machines -/

variable {Time : Type} [Scalar Time]

/-- A call that a reachable machine carries out stores the address behind it, above those that
were stored before. Whatever follows, all of these stay as long as the stack has not come back
to the depth before the call, and it is deeper than that. The act that brings it back to this
depth is a step that carries out a return; it goes on behind the call, and the addresses from
before the call are left. -/
theorem Reachable.calls_and_returns_match {settings : Settings} {program : List UInt8}
    {machine : Machine Time} (reachable : Reachable settings program machine)
    {target : Fin 4096} (idle : machine.core.waiting = none)
    (fetched : machine.core.fetch = .ok (0x2000 + target.val))
    (answered : machine.step.result = .ok true) :
    let depth := machine.core.registers.stack.pointer
    let called := machine.step.state
    (called.core.registers.stack.pointer = depth + 1 ∧ called.counter = target.val ∧
      called.core.callers = machine.core.callers ++ [machine.counter + 2]) ∧
    ∀ acts : List Act,
      (∀ earlier, earlier <+: acts →
        (called.replay earlier).2.core.registers.stack.pointer ≠ depth) →
      let reached := (called.replay acts).2
      depth < reached.core.registers.stack.pointer ∧
      reached.core.callers.take (depth.toNat + 1) =
        machine.core.callers ++ [machine.counter + 2] ∧
      ∀ act, (reached.act act).state.core.registers.stack.pointer = depth →
        act = .step ∧ reached.core.waiting = none ∧ reached.core.fetch = .ok 0x00EE ∧
        reached.step.result = .ok true ∧ reached.step.state.counter = machine.counter + 2 ∧
        reached.step.state.core.callers = machine.core.callers := by
  intro depth called
  have before := reachable.core_wellFormed
  have after : called.core.WellFormed := reachable.step.core_wellFormed
  have isDepth : (machine.core.callers.length : Int) = depth := before.toBounded.length_callers
  have room : depth ≠ 16 := by
    intro full
    have refused : machine.core.step.result = .error (.stackOverflow 16) :=
      (before.toBounded.step_result_error_iff idle _).mpr ⟨rfl, full, target, fetched⟩
    rw [machine.step_result, refused] at answered
    cases answered
  have stores : called.core.callers = machine.core.callers ++ [machine.counter + 2] ∧
      called.counter = target.val := by
    obtain ⟨stack, stepped, addresses, _⟩ := before.step_calls target idle fetched room
    unfold called Machine.counter
    rw [machine.step_core, Core.act, stepped]
    exact ⟨addresses, rfl⟩
  refine ⟨⟨?_, stores.2, stores.1⟩, ?_⟩
  · rw [← after.toBounded.length_callers, stores.1, List.length_append, List.length_singleton]
    omega
  intro acts away reached
  have replayed : ∀ some : List Act, (called.replay some).2.core = (called.core.replay some).2 := by
    intro some
    rw [called.replay_eq]
    rfl
  have wellFormed : reached.core.WellFormed := by
    rw [replayed]
    exact after.replay acts
  have held : machine.core.callers ++ [machine.counter + 2] <+: reached.core.callers := by
    rw [replayed]
    apply after.lower_end_kept (stores.1 ▸ List.prefix_rfl)
    intro earlier isPrefix same
    apply away earlier isPrefix
    rw [replayed, ← (after.replay earlier).toBounded.length_callers, same, isDepth]
  have long := held.length_le
  rw [List.length_append, List.length_singleton] at long
  have isReached := wellFormed.toBounded.length_callers
  refine ⟨by omega, ?_, ?_⟩
  · have size : depth.toNat + 1 = (machine.core.callers ++ [machine.counter + 2]).length := by
      rw [List.length_append, List.length_singleton]
      omega
    rw [size]
    exact (List.prefix_iff_eq_take.mp held).symm
  · intro act back
    have acted : (reached.act act).state.core = (reached.core.act act).state := by
      rw [reached.act_state]
      rfl
    have shorter : (reached.core.act act).state.callers.length = machine.core.callers.length := by
      rw [acted] at back
      have := (wellFormed.act act).toBounded.length_callers
      omega
    obtain ⟨rfl, isIdle, isReturn, returns, left, behind⟩ := wellFormed.unwinds held shorter
    refine ⟨rfl, isIdle, isReturn, ?_, ?_, ?_⟩
    · rw [reached.step_result]
      exact returns
    · unfold Machine.counter
      rw [reached.step_core]
      exact behind
    · rw [reached.step_core]
      exact left

/-- A call within a call: the return of the inner one does not bring the stack back to where it
was, the return of the outer one does. -/
theorem calls_and_returns_match_when_nested :
    ∃ machine : Machine Rat,
      Machine.boot ⟨700, false, 0, [], false, "nested"⟩
          [0x22, 0x04, 0x12, 0x02, 0x22, 0x08, 0x00, 0xEE, 0x00, 0xEE] = .ok machine ∧
        let reached := (machine.step.state.replay [.step, .step]).2
        reached.core.callers = [0x202] ∧
          reached.step.state.counter = 0x202 ∧ reached.step.state.core.callers = [] := by
  obtain ⟨machine, started⟩ : ∃ machine : Machine Rat,
      Machine.boot ⟨700, false, 0, [], false, "nested"⟩
        [0x22, 0x04, 0x12, 0x02, 0x22, 0x08, 0x00, 0xEE, 0x00, 0xEE] = .ok machine := ⟨_, rfl⟩
  refine ⟨machine, started, ?_⟩
  have start : machine.core.waiting = none ∧ machine.core.registers.counter = 0x200 ∧
      machine.core.callers = [] := by
    obtain ⟨timers, interval, memory, _, _, _, rfl⟩ := Machine.boot_eq_ok_iff.mp started
    exact ⟨rfl, rfl, rfl⟩
  have reads : ∀ (core : Core) (place : Nat) (high low : UInt8),
      core.memory = machine.core.memory → core.registers.counter = 0x200 + place →
        [0x22, 0x04, 0x12, 0x02, 0x22, 0x08, 0x00, 0xEE, 0x00, 0xEE][place]? = some high →
        [0x22, 0x04, 0x12, 0x02, 0x22, 0x08, 0x00, 0xEE, 0x00, 0xEE][place + 1]? = some low →
        core.fetch = .ok (high.toNat * 256 + low.toNat) := by
    intro core place high low same counter isHigh isLow
    unfold Core.fetch
    rw [same, counter]
    exact Machine.boot_readWord started isHigh isLow
  have booted := Machine.boot_wellFormed started
  have fetched := reads machine.core 0 0x22 0x04 rfl start.2.1 rfl rfl
  have empty : machine.core.registers.stack.pointer = 0 := by
    rw [← booted.toBounded.length_callers, start.2.2]
    rfl
  obtain ⟨stack, outer, one⟩ :=
    booted.step_calls 0x204 start.1 fetched (by rw [empty]; decide)
  rw [start.2.1, start.2.2, empty] at one
  have called := booted.step
  rw [outer, Attempt.state_ok] at called
  obtain ⟨within, inner, two⟩ := called.step_calls 0x208 start.1
    (reads _ 4 0x22 0x08 rfl rfl rfl rfl) (show stack.pointer ≠ 16 by rw [one.2]; decide)
  have nested := called.step
  rw [inner, Attempt.state_ok] at nested
  have held : within.addresses = [0x202] ++ [0x206] :=
    two.1.trans (congrArg (· ++ [0x206]) one.1)
  obtain ⟨left, back, again⟩ :=
    nested.step_returns start.1 (reads _ 8 0x00 0xEE rfl rfl rfl rfl) held
  have returned := nested.step
  rw [back, Attempt.state_ok] at returned
  obtain ⟨last, home, none⟩ := returned.step_returns start.1
    (reads _ 6 0x00 0xEE rfl rfl rfl rfl) (show left.addresses = [] ++ [0x202] from again.1)
  have answered : machine.step.result = .ok true := by
    rw [machine.step_result, outer, Attempt.result_ok]
  have isCall : machine.core.fetch = .ok (0x2000 + (0x204 : Fin 4096).val) := fetched
  obtain ⟨_, matched⟩ := (Reachable.boot started).calls_and_returns_match start.1 isCall answered
  have replayed : ∀ acts, (machine.step.state.replay acts).2.core =
      ((machine.core.turned stack (0x204 : Fin 4096).val).replay acts).2 := by
    intro acts
    have isCalled : machine.step.state.core = machine.core.step.state := machine.step_core
    rw [Machine.replay_eq, isCalled, outer, Attempt.state_ok]
    rfl
  have path := replayed [.step, .step]
  change _ = (Core.step _).state.step.state at path
  rw [inner, Attempt.state_ok, back, Attempt.state_ok] at path
  have away : ∀ earlier, earlier <+: [Act.step, Act.step] →
      (machine.step.state.replay earlier).2.core.registers.stack.pointer ≠
        machine.core.registers.stack.pointer := by
    intro earlier isPrefix
    rw [empty]
    simp only [List.prefix_cons_iff, List.prefix_nil] at isPrefix
    rcases isPrefix with rfl | ⟨_, rfl, rfl | ⟨_, rfl, rfl⟩⟩
    · rw [replayed]
      change stack.pointer ≠ 0
      rw [one.2]
      decide
    · rw [replayed]
      change (Core.step _).state.registers.stack.pointer ≠ 0
      rw [inner]
      change within.pointer ≠ 0
      rw [two.2]
      change stack.pointer + 1 ≠ 0
      rw [one.2]
      decide
    · rw [path]
      change left.pointer ≠ 0
      rw [again.2]
      decide
  obtain ⟨_, _, unwinds⟩ := matched [.step, .step] away
  generalize (machine.step.state.replay [.step, .step]).2 = reached at path unwinds
  have finished : (reached.act .step).state.core.registers.stack.pointer =
      machine.core.registers.stack.pointer := by
    rw [empty, reached.act_state, path]
    change (Core.step _).state.registers.stack.pointer = 0
    rw [home]
    exact none.2
  obtain ⟨_, _, _, _, counter, callers⟩ := unwinds .step finished
  refine ⟨?_, ?_, ?_⟩
  · rw [path]
    exact again.1
  · rw [counter]
    exact congrArg (· + 2) start.2.1
  · rw [callers, start.2.2]

end Chip8
