import Chip8.Proofs.Core.Frame
import Chip8.Proofs.Machine.Replay
import Chip8.Scalar.Exact

/-!
Reachable machines.

A machine that was started can be stepped, polled, checked, ticked, brought up to the
clock and run, in any order and whether or not one of these fails. All that this ever does
to the core is a record of acts, so what the acts keep holds of every reachable machine:
its core is well formed, and a step fails only for reasons that can be read off the core.
-/

namespace Chip8

variable {Time : Type} [Scalar Time]

inductive Reachable (settings : Settings) (program : List UInt8) : Machine Time → Prop
  | boot {machine : Machine Time} :
      Machine.boot settings program = .ok machine → Reachable settings program machine
  | step {machine : Machine Time} :
      Reachable settings program machine → Reachable settings program machine.step.state
  | receive {machine : Machine Time} (events : List Event) :
      Reachable settings program machine →
        Reachable settings program (machine.receive events).state
  | ready {machine : Machine Time} :
      Reachable settings program machine → Reachable settings program machine.ready.state
  | tick {machine : Machine Time} :
      Reachable settings program machine → Reachable settings program machine.tick
  | update {machine : Machine Time} (now : Time) :
      Reachable settings program machine → Reachable settings program (machine.updated now)
  | run {machine : Machine Time} {World : Type} (host : Host Time World) (limit : Option Int)
      (passes : Nat) (world : World) :
      Reachable settings program machine →
        Reachable settings program (machine.run host limit passes world).machine

namespace Reachable

variable {settings : Settings} {program : List UInt8} {machine : Machine Time}

/-- The core of a reachable machine is that of a new machine after some acts. -/
theorem tells (reachable : Reachable settings program machine) :
    ∃ (fresh : Machine Time) (record : List (Act × Except Fault Bool)),
      Machine.boot settings program = .ok fresh ∧ Tells record fresh.core machine.core := by
  induction reachable with
  | boot started => exact ⟨_, [], started, Tells.nil _⟩
  | @step machine _ ih =>
      obtain ⟨fresh, record, started, told⟩ := ih
      have taken := Tells.single machine.core .step
      rw [← machine.step_core] at taken
      exact ⟨fresh, _, started, told.append taken⟩
  | @receive machine events _ ih =>
      obtain ⟨fresh, record, started, told⟩ := ih
      exact ⟨fresh, _, started, told.append (machine.hearings_trail events).tells⟩
  | @ready machine _ ih =>
      obtain ⟨fresh, record, started, told⟩ := ih
      refine ⟨fresh, record, started, ?_⟩
      rw [machine.ready_core]
      exact told
  | @tick machine _ ih =>
      obtain ⟨fresh, record, started, told⟩ := ih
      exact ⟨fresh, _, started, told.append (Tells.single machine.core .tick)⟩
  | @update machine now _ ih =>
      obtain ⟨fresh, record, started, told⟩ := ih
      exact ⟨fresh, _, started, told.append (machine.update_tells now)⟩
  | @run machine _ host limit passes world _ ih =>
      obtain ⟨fresh, record, started, told⟩ := ih
      have trail := Machine.run_trail host limit passes machine world
      exact ⟨fresh, _, started, told.append trail.tells⟩

end Reachable

/-! ### Every reachable machine is well formed -/

/-- A machine can be started with every program of at most 3584 bytes. -/
theorem Machine.boots_iff {settings : Settings} {program : List UInt8} :
    (∃ machine : Machine Time, boot settings program = .ok machine) ↔
      program.length ≤ 3584 ∧
        (∃ timers : Timers Time, Timers.ofRate (Scalar.ofInt Layout.timerRate) = .ok timers) ∧
        ∃ interval : Time, intervalOf settings.speed = .ok interval := by
  have size : (Memory.ofSize Layout.memorySize).size = 4096 := rfl
  have start : (Layout.programStart : Int) = 512 := rfl
  constructor
  · rintro ⟨machine, started⟩
    obtain ⟨timers, interval, memory, ticking, paced, loaded, _⟩ := boot_eq_ok_iff.mp started
    have fits := (Memory.load_eq_ok_iff.mp loaded).1
    exact ⟨by omega, ⟨timers, ticking⟩, interval, paced⟩
  · rintro ⟨fits, ⟨timers, ticking⟩, interval, paced⟩
    have room : (program.length : Int) ≤
        (Memory.ofSize Layout.memorySize).size - Layout.programStart := by omega
    exact ⟨_, boot_eq_ok_iff.mpr ⟨timers, interval, _, ticking, paced,
      Memory.load_eq_ok_iff.mpr ⟨room, rfl⟩, rfl⟩⟩

theorem Machine.boot_wellFormed {settings : Settings} {program : List UInt8}
    {machine : Machine Time} (started : boot settings program = .ok machine) :
    machine.core.WellFormed := by
  obtain ⟨timers, interval, memory, _, _, loaded, rfl⟩ := boot_eq_ok_iff.mp started
  refine Core.WellFormed.of_bounded ?_ rfl
  constructor
  · exact Memory.ofSize_sized.load (by decide) loaded
  · exact Registers.ofDepth_bounded
  · change (0 : Int) ≤ 0x200
    decide
  · change (0x200 : Int) ≤ 0x1002
    decide

theorem Reachable.core_wellFormed {settings : Settings} {program : List UInt8}
    {machine : Machine Time} (reachable : Reachable settings program machine) :
    machine.core.WellFormed := by
  obtain ⟨fresh, record, started, told⟩ := reachable.tells
  -- The invariant is one of acts, so no way of reaching the machine has to be looked at again.
  have kept := (Machine.boot_wellFormed started).replay (record.map Prod.fst)
  rw [told] at kept
  exact kept

/-- The bounds of a reachable machine, spelled out. -/
theorem Reachable.within_bounds {settings : Settings} {program : List UInt8}
    {machine : Machine Time} (reachable : Reachable settings program machine) :
    (machine.core.memory.bytes.size = 4096 ∧
        ∀ cell ∈ machine.core.memory.bytes, cell.toNat ≤ 255) ∧
      (∀ x, (machine.core.byte x).toNat ≤ 255) ∧
      (0 ≤ machine.core.registers.index ∧ machine.core.registers.index ≤ 0xFFF) ∧
      (0 ≤ machine.core.registers.counter ∧ machine.core.registers.counter ≤ 0x1002) ∧
      (0 ≤ machine.core.registers.stack.pointer ∧ machine.core.registers.stack.pointer ≤ 16 ∧
        machine.core.registers.stack.slots.size = 16 ∧
        ∀ address ∈ machine.core.registers.stack.slots, 0 ≤ address ∧ address ≤ 0x1000) ∧
      (0 ≤ machine.core.registers.delay ∧ machine.core.registers.delay ≤ 255) ∧
      (0 ≤ machine.core.registers.sound ∧ machine.core.registers.sound ≤ 255) ∧
      (machine.core.screen.pixels.toList.length = 2048 ∧
        ∀ pixel ∈ machine.core.screen.pixels.toList, pixel.toNat ≤ 1) ∧
      ∀ x, machine.core.waiting = some x →
        x.val ≤ 15 ∧ machine.core.registers.counter ≤ 0xFFE ∧
          machine.core.memory.readWord machine.core.registers.counter =
            .ok (0xF00A ||| x.val <<< 8) := by
  have kept := reachable.core_wellFormed
  have registers := kept.registers
  refine ⟨⟨kept.memory.cells, ?_⟩, ?_, ⟨registers.indexNonneg, registers.indexInside⟩,
    ⟨kept.counterNonneg, kept.counterInside⟩, ?_, ⟨registers.delayNonneg, registers.delayInside⟩,
    ⟨registers.soundNonneg, registers.soundInside⟩, ⟨?_, ?_⟩, ?_⟩
  · intro cell _
    exact Nat.le_of_lt_succ cell.toNat_lt
  · intro x
    exact Nat.le_of_lt_succ (machine.core.byte x).toNat_lt
  · exact ⟨registers.stack.nonneg, registers.stack.inside, registers.stack.slots,
      registers.stack.addresses⟩
  · exact Vector.length_toList
  · intro pixel _
    exact Bool.toNat_le pixel
  · intro x waits
    obtain ⟨inside, fetched⟩ := kept.awaited x waits
    have word : ∀ y : RegisterIndex, 0xF00A + 256 * y.val = 0xF00A ||| y.val <<< 8 := by decide
    exact ⟨Nat.le_of_lt_succ x.isLt, inside, fetched.trans (congrArg Except.ok (word x))⟩

/-- A new machine holds its program from the program start on. -/
theorem Machine.boot_byteAt {settings : Settings} {program : List UInt8} {machine : Machine Time}
    (started : boot settings program = .ok machine) (place : Nat) {byte : UInt8}
    (there : program[place]? = some byte) :
    machine.core.memory.byteAt (0x200 + place) = byte := by
  obtain ⟨timers, interval, memory, _, _, loaded, rfl⟩ := boot_eq_ok_iff.mp started
  exact Memory.ofSize_sized.byteAt_load (by decide) loaded place there

/-- A new machine reads the words of its program where it holds their bytes. -/
theorem Machine.boot_readWord {settings : Settings} {program : List UInt8}
    {machine : Machine Time} (started : boot settings program = .ok machine) {place : Nat}
    {high low : UInt8} (first : program[place]? = some high)
    (second : program[place + 1]? = some low) :
    machine.core.memory.readWord (0x200 + place) = .ok (high.toNat * 256 + low.toNat) := by
  have fits := (boots_iff.mp ⟨machine, started⟩).1
  obtain ⟨inside, _⟩ := List.getElem?_eq_some_iff.mp second
  have next : (0x200 + place + 1 : Int) = 0x200 + (place + 1 : Nat) := by omega
  rw [(boot_wellFormed started).memory.readWord_inside (by omega) (by omega), next,
    boot_byteAt started place first, boot_byteAt started (place + 1) second]

/-- A new machine is about to execute the first word of its program. -/
theorem Machine.boot_fetch {settings : Settings} {high low : UInt8} {rest : List UInt8}
    {machine : Machine Time} (started : boot settings (high :: low :: rest) = .ok machine) :
    machine.core.fetch = .ok (high.toNat * 256 + low.toNat) := by
  have start : machine.core.registers.counter = 0x200 := by
    obtain ⟨timers, interval, memory, _, _, _, rfl⟩ := boot_eq_ok_iff.mp started
    rfl
  unfold Core.fetch
  rw [start]
  exact boot_readWord started (show (high :: low :: rest)[0]? = some high from rfl) rfl

theorem within_bounds_while_waiting :
    ∃ machine : Machine Rat,
      Machine.boot ⟨700, false, 0, [0x200], false, "wait"⟩ [0xF3, 0x0A] = .ok machine ∧
        let waiting := (machine.step.state.receive [.key 7 true, .key 7 false]).state.tick
        waiting.core.waiting = some 3 ∧
          waiting.core.memory.readWord waiting.core.registers.counter = .ok 0xF30A := by
  obtain ⟨machine, started⟩ : ∃ machine : Machine Rat,
      Machine.boot ⟨700, false, 0, [0x200], false, "wait"⟩ [0xF3, 0x0A] = .ok machine := ⟨_, rfl⟩
  have idle : machine.core.waiting = none := by
    obtain ⟨timers, interval, memory, _, _, _, rfl⟩ := Machine.boot_eq_ok_iff.mp started
    rfl
  have executed : machine.core.execute (0xF30A : Nat) = machine.core.perform (.awaitKey 3) :=
    machine.core.execute_assemble (by decide) rfl
  have waits := Core.step_of_execute idle (Machine.boot_fetch started) executed
  have stepped : machine.step.state = machine.withCore (machine.core.act .step).state :=
    machine.act_state .step
  have parked : (machine.step.state.receive
      [.key 7 true, .key 7 false]).state.tick.core.waiting = some 3 := by
    rw [stepped, Core.act, waits]
    rfl
  obtain ⟨_, _, _, _, _, _, _, _, awaited⟩ :=
    Reachable.within_bounds (.tick (.receive [.key 7 true, .key 7 false] (.step (.boot started))))
  exact ⟨machine, started, parked, (awaited 3 parked).2.2⟩

/-! ### How a reachable machine fails -/

omit [Scalar Time] in
theorem Core.render_not_mem_stepEffects (core : Core) (traced : Bool) (fault : Fault)
    (left : Core) (frame : Frame) :
    (.render frame : Effect Time) ∉
      core.stepEffects traced (.error fault left : Attempt Core Bool) := by
  unfold stepEffects
  split
  · simp
  · split
    · simp
    · unfold executionEffects
      simp

omit [Scalar Time] in
theorem Machine.step_result (machine : Machine Time) :
    machine.step.result = machine.core.step.result :=
  machine.act_result .step

theorem Core.idle_or_answers (core : Core) :
    core.waiting = none ∨ ∃ answer, core.step.result = .ok answer := by
  cases waits : core.waiting with
  | none => exact Or.inl rfl
  | some x =>
      right
      rw [step_of_waiting waits]
      cases changed : core.keypad.fresh with
      | false => exact ⟨false, by rw [deliverKey_of_stale changed, Attempt.result_ok]⟩
      | true => exact ⟨true, by rw [deliverKey_of_fresh changed, Attempt.result_ok]⟩

theorem Core.Bounded.step_result_error_iff {core : Core} (bounded : core.Bounded)
    (idle : core.waiting = none) (fault : Fault) :
    core.step.result = .error fault ↔ core.Faults fault := by
  constructor
  · intro failed
    cases went : core.step with
    | ok answer after =>
        rw [went] at failed
        cases failed
    | error found left =>
        rw [went] at failed
        cases failed
        exact ((bounded.step_error_iff idle).mp went).2
  · intro faults
    rw [(bounded.step_error_iff idle).mpr ⟨rfl, faults⟩, Attempt.result_error]

theorem Reachable.failing {settings : Settings} {program : List UInt8} {machine : Machine Time}
    (reachable : Reachable settings program machine) {fault : Fault}
    (failed : machine.step.result = .error fault) : machine.core.Failing fault := by
  have bounded := reachable.core_wellFormed.toBounded
  rw [machine.step_result] at failed
  have idle : machine.core.waiting = none := by
    rcases machine.core.idle_or_answers with idle | ⟨answer, answered⟩
    · exact idle
    · rw [failed] at answered
      cases answered
  exact ⟨bounded, idle, (bounded.step_result_error_iff idle fault).mp failed⟩

/-- A step of a machine that waits for a key does not fail. Any other fails exactly as the
core is about to. Then it changes nothing and shows nothing, and however many keys and ticks
come in between, every further step fails in the same way. -/
theorem Reachable.step_faults {settings : Settings} {program : List UInt8}
    {machine : Machine Time} (reachable : Reachable settings program machine) :
    (machine.core.waiting ≠ none → ∃ answer, machine.step.result = .ok answer) ∧
      (machine.core.waiting = none → ∀ fault,
        machine.step.result = .error fault ↔ machine.core.Faults fault) ∧
      ∀ fault, machine.step.result = .error fault →
        machine.step.state = machine ∧
          (∀ frame, .render frame ∉ machine.step.effects) ∧
          ∀ acts : List Act, (machine.replay acts).2.step.result = .error fault := by
  have bounded := reachable.core_wellFormed.toBounded
  refine ⟨?_, ?_, ?_⟩
  · intro waits
    rw [machine.step_result]
    exact machine.core.idle_or_answers.resolve_left waits
  · intro idle fault
    rw [machine.step_result]
    exact bounded.step_result_error_iff idle fault
  · intro fault failed
    have failing := reachable.failing failed
    have stopped := failing.step
    refine ⟨?_, ?_, ?_⟩
    · have left : machine.step.state = machine.withCore machine.core.step.state :=
        machine.act_state .step
      rw [left, stopped]
      rfl
    · intro frame
      unfold Machine.step
      dsimp only
      rw [stopped]
      exact machine.core.render_not_mem_stepEffects _ fault machine.core frame
    · intro acts
      rw [Machine.replay_eq, Machine.step_result]
      change (machine.core.replay acts).2.step.result = .error fault
      rw [(failing.replay acts).step, Attempt.result_error]

/-- A word that is no instruction, met again after a key and a tick. -/
theorem step_faults_at_undefined_word :
    ∃ machine : Machine Rat,
      Machine.boot ⟨700, false, 0, [], false, "data"⟩ [0x01, 0x23] = .ok machine ∧
        machine.step.result = .error (.invalidOpcode 0x0123 0x200) ∧
        machine.step.state = machine ∧
        (machine.replay [.key 7 true, .tick]).2.step.result =
          .error (.invalidOpcode 0x0123 0x200) := by
  obtain ⟨machine, started⟩ : ∃ machine : Machine Rat,
      Machine.boot ⟨700, false, 0, [], false, "data"⟩ [0x01, 0x23] = .ok machine := ⟨_, rfl⟩
  obtain ⟨_, classified, lasting⟩ := Reachable.step_faults (.boot started)
  have start : machine.core.waiting = none ∧ machine.core.registers.counter = 0x200 := by
    obtain ⟨timers, interval, memory, _, _, _, rfl⟩ := Machine.boot_eq_ok_iff.mp started
    exact ⟨rfl, rfl⟩
  have undefined : ∀ instruction : Instruction, instruction.assemble ≠ 0x0123 := by
    intro instruction same
    exact Instruction.ofWord?_eq_none_iff.mp (by decide) instruction (congrArg Int.ofNat same)
  have failed : machine.step.result = .error (.invalidOpcode 0x0123 0x200) :=
    (classified start.1 _).mpr ⟨start.2.symm, 0x0123, Machine.boot_fetch started, rfl, undefined⟩
  obtain ⟨same, _, again⟩ := lasting _ failed
  exact ⟨machine, started, failed, same, again _⟩

/-! ### What an instruction leaves alone -/

omit [Scalar Time] in
/-- Executing the word of an instruction changes the core alone, as the instruction does. -/
theorem Machine.execute_assembled {machine : Machine Time} {instruction : Instruction}
    {after : Core} (performed : machine.core.perform instruction = .ok () after) :
    machine.execute instruction.assemble =
      ⟨.ok () (machine.withCore after),
        machine.core.executionEffects instruction.assemble (.ok () after : Attempt Core Unit)⟩ := by
  unfold execute
  rw [machine.core.execute_assembled, performed]
  rfl

omit [Scalar Time] in
theorem Machine.attempt_of_perform {machine : Machine Time} {instruction : Instruction}
    {after : Core} (performed : machine.core.perform instruction = .ok () after) :
    (machine.execute instruction.assemble).attempt = .ok () (machine.withCore after) :=
  congrArg Response.attempt (execute_assembled performed)

omit [Scalar Time] in
theorem Machine.of_execute {machine next : Machine Time} {word : Int}
    (executed : (machine.execute word).attempt = .ok () next) :
    ∃ after, machine.core.execute word = .ok () after ∧ next = machine.withCore after := by
  unfold execute at executed
  dsimp only at executed
  cases went : machine.core.execute word with
  | error fault left =>
      rw [went] at executed
      cases executed
  | ok answer after =>
      rw [went] at executed
      cases executed
      exact ⟨after, rfl, rfl⟩

omit [Scalar Time] in
/-- A step executes the word that it fetches, and counts. -/
theorem Machine.step_of_execute {machine next : Machine Time} {word : Nat}
    (idle : machine.core.waiting = none) (fetched : machine.core.fetch = .ok word)
    (executed : (machine.execute word).attempt = .ok () next) :
    machine.step.state = machine.withCore next.core.counted := by
  have stepped : machine.step.state = machine.withCore machine.core.step.state :=
    machine.act_state .step
  obtain ⟨after, went, rfl⟩ := of_execute executed
  rw [stepped, Core.step_of_execute idle fetched went, Attempt.state_ok]
  rfl

omit [Scalar Time] in
theorem Machine.step_of_perform {machine : Machine Time} {instruction : Instruction}
    {after : Core} (idle : machine.core.waiting = none)
    (fetched : machine.core.fetch = .ok instruction.assemble)
    (performed : machine.core.perform instruction = .ok () after) :
    machine.step.state = machine.withCore after.counted :=
  step_of_execute idle fetched (attempt_of_perform performed)

/-- An instruction that a reachable machine completes, whichever word it is given, changes the
core alone, and there only what the instruction is for. -/
theorem Reachable.execute_framed {settings : Settings} {program : List UInt8}
    {machine next : Machine Time} (reachable : Reachable settings program machine) {word : Nat}
    (small : word < 0x10000) (executed : (machine.execute word).attempt = .ok () next) :
    ∃ instruction : Instruction, instruction.assemble = word ∧
      next = machine.withCore next.core ∧ machine.core.Framed instruction next.core := by
  have bounded := reachable.core_wellFormed.toBounded
  obtain ⟨after, went, rfl⟩ := Machine.of_execute executed
  obtain ⟨instruction, found, performed⟩ := Core.of_execute went
  rw [Instruction.carriedOut?_of_lt small, Instruction.ofWord?_eq_some_iff] at found
  exact ⟨instruction, Int.ofNat_inj.mp found, rfl, bounded.perform_framed performed⟩

/-- Two registers stored in front of memory leave the cell behind them and the screen alone. -/
theorem execute_framed_of_two_stored :
    ∃ machine next : Machine Rat,
      Machine.boot ⟨700, false, 0, [], false, "blank"⟩ [] = .ok machine ∧
        (machine.execute (0xF155 : Nat)).attempt = .ok () next ∧
        next.core.memory.byteAt 2 = machine.core.memory.byteAt 2 ∧
        next.core.screen = machine.core.screen ∧ next.counter = 0x202 := by
  obtain ⟨machine, started⟩ : ∃ machine : Machine Rat,
      Machine.boot ⟨700, false, 0, [], false, "blank"⟩ [] = .ok machine := ⟨_, rfl⟩
  have start : machine.core.registers.index = 0 ∧ machine.counter = 0x200 := by
    obtain ⟨timers, interval, memory, _, _, _, rfl⟩ := Machine.boot_eq_ok_iff.mp started
    exact ⟨rfl, rfl⟩
  obtain ⟨stored, isStored, _, _⟩ :=
    (Machine.boot_wellFormed started).toBounded.storeBytes (machine.core.registersUpTo 1)
  have performed : machine.core.execute (0xF155 : Nat) = machine.core.perform (.storeRegisters 1) :=
    machine.core.execute_assemble (by decide) rfl
  have executed : (machine.execute (0xF155 : Nat)).attempt =
      .ok () (machine.withCore stored.advance) := by
    unfold Machine.execute
    dsimp only
    rw [performed, Core.perform, isStored]
    rfl
  refine ⟨machine, _, started, executed, ?_⟩
  obtain ⟨instruction, written, _, framed⟩ :=
    Reachable.execute_framed (.boot started) (by decide) executed
  obtain rfl : instruction = .storeRegisters 1 := by
    apply Option.some.inj
    rw [← instruction.ofWord?_assemble, written]
    exact (Instruction.storeRegisters 1).ofWord?_assemble
  refine ⟨?_, ?_, ?_⟩
  · apply framed.memory 2 (by decide)
    intro offset inside
    rw [start.1]
    change offset < 2 at inside
    unfold Memory.wrap
    omega
  · rw [framed.rest]
    rfl
  · exact framed.counter.trans (congrArg (· + 2) start.2)

end Chip8
