import Chip8.Proofs.Machine.Reachable

/-!
Waiting for a key.

The instruction that waits for a key is carried out in two phases. The first parks the
machine and counts the instruction; the second, a later step, stores a key and moves on.
In between the machine can be asked for anything. Nothing that it is asked for gets it out
of the wait before a key has changed, and when a step does, the key is the one that changed
last, whatever happened before the wait.
-/

namespace Chip8

variable {Time : Type}

/-- What a machine can be asked for between two steps, and a step itself. -/
inductive Demand (Time : Type)
  | hear (event : Event)
  | tick
  | update (now : Time)
  /-- The machine is asked whether an instruction may run. -/
  | check
  | step

/-- The key that a demand changes; a number that no key has changes none. -/
def Demand.key? : Demand Time → Option Key
  | .hear (.key number _) => Digit.ofInt? number
  | _ => none

/-- The keys that change along some demands, in order. -/
def keysOf (demands : List (Demand Time)) : List Key :=
  demands.filterMap Demand.key?

theorem keysOf_cons (demand : Demand Time) (demands : List (Demand Time)) :
    keysOf (demand :: demands) = demand.key?.toList ++ keysOf demands := by
  unfold keysOf
  cases changed : demand.key? with
  | none => rw [List.filterMap_cons_none changed, Option.toList_none, List.nil_append]
  | some key => rw [List.filterMap_cons_some changed, Option.toList_some, List.singleton_append]

/-! ### What a parked machine keeps -/

/-- A machine has been reached from a parked one along which some keys changed: only the
timers and the keypad can differ, and the keypad tells the key that changed last. -/
structure Waits (parked reached : Machine Time) (keys : List Key) : Prop where
  core : ∃ delay sound keypad, reached.core =
    { parked.core with registers := { parked.core.registers with delay, sound }, keypad }
  fresh : reached.core.keypad.fresh = !keys.isEmpty
  last : ∀ key, keys.getLast? = some key → reached.core.keypad.last = key

namespace Waits

section Changes

variable {parked reached next : Machine Time} {keys : List Key}

theorem waiting (waits : Waits parked reached keys) :
    reached.core.waiting = parked.core.waiting := by
  obtain ⟨_, _, _, same⟩ := waits.core
  rw [same]

theorem of_core_eq (waits : Waits parked reached keys) (same : next.core = reached.core) :
    Waits parked next keys := by
  obtain ⟨core, fresh, last⟩ := waits
  rw [← same] at core fresh last
  exact ⟨core, fresh, last⟩

theorem ticks (waits : Waits parked reached keys) (count : Nat)
    (ticked : next.core = reached.core.modifyRegisters (count.repeat Registers.tick)) :
    Waits parked next keys := by
  obtain ⟨delay, sound, same⟩ := reached.core.registers.ticks_eq count
  obtain ⟨⟨_, _, keypad, before⟩, fresh, last⟩ := waits
  unfold Core.modifyRegisters at ticked
  rw [same] at ticked
  constructor
  · refine ⟨delay, sound, keypad, ?_⟩
    rw [ticked, before]
  · rw [ticked]
    exact fresh
  · rw [ticked]
    exact last

/-- A key that changes becomes the one to deliver. -/
theorem key (waits : Waits parked reached keys) {key : Key} (pressed : Bool)
    (changed : next.core = { reached.core with keypad := reached.core.keypad.change key pressed }) :
    Waits parked next (keys ++ [key]) := by
  obtain ⟨⟨delay, sound, _, before⟩, _, _⟩ := waits
  constructor
  · refine ⟨delay, sound, reached.core.keypad.change key pressed, ?_⟩
    rw [changed, before]
  · rw [changed]
    simp [Keypad.change]
  · intro last isLast
    rw [List.getLast?_concat, Option.some.injEq] at isLast
    rw [changed]
    exact isLast

end Changes

section Stepping

variable {parked reached : Machine Time} {keys : List Key} {x : RegisterIndex}

/-- Without a key a step has nothing to do. -/
theorem step_stalls (waits : Waits parked reached []) (parks : parked.core.waiting = some x) :
    reached.step = ⟨.ok false reached, []⟩ := by
  have stale : reached.core.keypad.fresh = false := waits.fresh
  have awaits : reached.core.waiting = some x := waits.waiting.trans parks
  have stalls : reached.core.step = .ok false reached.core := by
    rw [Core.step_of_waiting awaits, Core.deliverKey_of_stale stale]
  unfold Machine.step Core.stepEffects
  dsimp only
  rw [stalls, awaits]
  dsimp only
  unfold Core.deliveryRecords Keypad.takeChange
  rw [stale]
  rfl

/-- Behind a change a step stores the key that changed last and goes on. -/
theorem step_delivers (waits : Waits parked reached keys) (parks : parked.core.waiting = some x)
    {key : Key} (changed : keys.getLast? = some key) :
    reached.step.attempt = .ok true (reached.withCore { reached.core with
      registers := { reached.core.registers with
        v := reached.core.registers.v.set x.val (UInt8.ofNat key.val) x.isLt
        counter := parked.counter + 2 }
      keypad := { reached.core.keypad with fresh := false }
      waiting := none }) := by
  have isFresh : reached.core.keypad.fresh = true := by
    rw [waits.fresh]
    cases keys with
    | nil => cases changed
    | cons => rfl
  have awaits : reached.core.waiting = some x := waits.waiting.trans parks
  have counter : reached.counter = parked.counter := by
    obtain ⟨_, _, _, same⟩ := waits.core
    unfold Machine.counter
    rw [same]
  obtain rfl : reached.core.keypad.last = key := waits.last key changed
  unfold Machine.step
  dsimp only
  rw [Core.step_of_waiting awaits, Core.deliverKey_of_fresh isFresh, ← counter]
  rfl

end Stepping

end Waits

/-! ### Demands to a machine -/

variable [Scalar Time]

namespace Machine

def obey (machine : Machine Time) : Demand Time → Machine Time
  | .hear event => (machine.handle event).state
  | .tick => machine.tick
  | .update now => machine.updated now
  | .check => machine.ready.state
  | .step => machine.step.state

def obeyAll (machine : Machine Time) (demands : List (Demand Time)) : Machine Time :=
  demands.foldl obey machine

end Machine

namespace Waits

variable {parked reached : Machine Time} {keys : List Key} {x : RegisterIndex}

/-- Whatever a parked machine is asked for, it stays parked; a step is one of these as long as
there is no key. -/
theorem obey (waits : Waits parked reached keys) (parks : parked.core.waiting = some x)
    {demand : Demand Time} (early : demand = .step → keys = []) :
    Waits parked (reached.obey demand) (keys ++ demand.key?.toList) := by
  have silent : ∀ next : Machine Time, demand.key? = none → Waits parked next keys →
      Waits parked next (keys ++ demand.key?.toList) := by
    intro next none kept
    rw [none, Option.toList_none, List.append_nil]
    exact kept
  cases demand with
  | hear event =>
      cases event with
      | key number pressed =>
          cases known : Digit.ofInt? number with
          | none =>
              apply silent _ known
              apply waits.of_core_eq
              simp only [Machine.obey, Machine.handle, Keypad.set, Keypad.key?, known]
              rfl
          | some key =>
              change Waits parked _ (keys ++ (Digit.ofInt? number).toList)
              rw [known]
              apply waits.key pressed
              simp only [Machine.obey, Machine.handle, Keypad.set, Keypad.key?, known]
              rfl
      | resume =>
          apply silent _ rfl
          apply waits.of_core_eq
          rw [Machine.obey, Machine.handle]
          split <;> rfl
      | quit | step | unknown => exact silent _ rfl (waits.of_core_eq rfl)
  | tick => exact silent _ rfl (waits.ticks 1 rfl)
  | update now => exact silent _ rfl (waits.ticks _ (reached.updated_core now))
  | check => exact silent _ rfl (waits.of_core_eq reached.ready_core)
  | step =>
      obtain rfl := early rfl
      apply silent _ rfl
      apply waits.of_core_eq
      unfold Machine.obey
      rw [waits.step_stalls parks]
      rfl

/-- The same along demands among which no step comes behind a key. -/
theorem obeyAll (parks : parked.core.waiting = some x) (demands : List (Demand Time))
    (early : ∀ before after, demands = before ++ .step :: after → keys ++ keysOf before = [])
    (waits : Waits parked reached keys) :
    Waits parked (reached.obeyAll demands) (keys ++ keysOf demands) := by
  induction demands generalizing reached keys with
  | nil =>
      change Waits parked reached (keys ++ [])
      rw [List.append_nil]
      exact waits
  | cons demand rest ih =>
      have next : Waits parked (reached.obey demand) (keys ++ demand.key?.toList) := by
        apply waits.obey parks
        rintro rfl
        exact (List.append_eq_nil_iff.mp (early [] rest rfl)).1
      rw [keysOf_cons, ← List.append_assoc]
      apply ih _ next
      rintro before after rfl
      rw [List.append_assoc, ← keysOf_cons]
      exact early (demand :: before) after rfl

end Waits

/-! ### The wait as a whole -/

namespace Machine

variable {machine : Machine Time} {x : RegisterIndex}

omit [Scalar Time] in
/-- A machine that comes upon the instruction counts it and parks. -/
theorem step_parks (idle : machine.core.waiting = none)
    (fetched : machine.core.fetch = .ok (Instruction.awaitKey x).assemble) :
    machine.step.attempt = .ok true (machine.withCore { machine.core with
      keypad := machine.core.keypad.beginWait
      waiting := some x
      cycles := machine.core.cycles + 1 }) := by
  unfold step
  dsimp only
  rw [Core.step_of_execute idle fetched (machine.core.execute_assembled (.awaitKey x))]
  rfl

/-- Once an instruction has begun to wait for a key, a step has nothing to do until a key has
changed. The first step behind a change stores the key that changed last and goes on to the
next instruction. Up to then nothing but the timers and the keypad has changed, and the
instruction counts once. -/
theorem awaited_key_delivered (idle : machine.core.waiting = none)
    (fetched : machine.core.fetch = .ok (Instruction.awaitKey x).assemble)
    (demands : List (Demand Time))
    (early : ∀ before after, demands = before ++ .step :: after → keysOf before = []) :
    let reached := machine.step.state.obeyAll demands
    machine.step.result = .ok true ∧
      (∃ delay sound keypad, reached.core = { machine.core with
        registers := { machine.core.registers with delay, sound }
        keypad
        waiting := some x
        cycles := machine.core.cycles + 1 }) ∧
      (keysOf demands = [] → reached.step = ⟨.ok false reached, []⟩) ∧
      ∀ key, (keysOf demands).getLast? = some key →
        reached.step.attempt = .ok true (reached.withCore { reached.core with
          registers := { reached.core.registers with
            v := reached.core.registers.v.set x.val (UInt8.ofNat key.val) x.isLt
            counter := machine.counter + 2 }
          keypad := { reached.core.keypad with fresh := false }
          waiting := none }) := by
  intro reached
  have parks := step_parks idle fetched
  generalize parkedAs : machine.withCore _ = parked at parks
  have began : Waits parked machine.step.state [] := by
    rw [Response.state_of_ok parks, ← parkedAs]
    exact ⟨⟨_, _, _, rfl⟩, rfl, by simp⟩
  have awaits : parked.core.waiting = some x := by rw [← parkedAs]; rfl
  have waits : Waits parked reached (keysOf demands) :=
    Waits.obeyAll awaits demands early began
  refine ⟨?_, ?_, ?_, ?_⟩
  · exact Response.result_of_ok parks
  · obtain ⟨delay, sound, keypad, same⟩ := waits.core
    rw [← parkedAs] at same
    exact ⟨delay, sound, keypad, same⟩
  · intro none
    rw [none] at waits
    exact waits.step_stalls awaits
  · intro key changed
    have stored := waits.step_delivers awaits changed
    rw [← parkedAs] at stored
    exact stored

/-- A key that was pressed before the wait does not count, and neither does the first of two
that change during it. -/
theorem awaited_key_delivered_after_two :
    ∃ started : Machine Rat,
      boot ⟨700, false, 0, [], false, "wait"⟩ [0xF3, 0x0A] = .ok started ∧
        let machine := (started.receive [.key 9 true]).state
        let reached := machine.step.state.obeyAll
          [.step, .hear (.key 7 true), .tick, .check, .hear (.key 2 false)]
        reached.step.result = .ok true ∧
          reached.step.state.core.byte 3 = 2 ∧ reached.step.state.counter = 0x202 := by
  obtain ⟨started, boots⟩ : ∃ started : Machine Rat,
      boot ⟨700, false, 0, [], false, "wait"⟩ [0xF3, 0x0A] = .ok started := ⟨_, rfl⟩
  refine ⟨started, boots, ?_⟩
  intro machine reached
  have start : started.core.waiting = none ∧ started.counter = 0x200 := by
    obtain ⟨timers, interval, memory, _, _, _, rfl⟩ := boot_eq_ok_iff.mp boots
    exact ⟨rfl, rfl⟩
  have early : ∀ before after : List (Demand Rat),
      [.step, .hear (.key 7 true), .tick, .check, .hear (.key 2 false)] =
        before ++ .step :: after → keysOf before = [] := by
    intro before after same
    cases before with
    | nil => rfl
    | cons first rest =>
        rw [List.cons_append, List.cons.injEq] at same
        have member : Demand.step ∈ rest ++ .step :: after := by simp
        rw [← same.2] at member
        simp at member
  have fetched : started.core.fetch = .ok (Instruction.awaitKey 3).assemble :=
    (boot_fetch boots).trans (congrArg Except.ok (by decide))
  have idle : machine.core.waiting = none := start.1
  obtain ⟨_, _, _, delivers⟩ := awaited_key_delivered idle fetched _ early
  have delivered : reached.step.attempt = _ := delivers 2 rfl
  have stands : machine.counter = 0x200 := start.2
  -- What the machine was asked for no longer matters, and must not be computed here.
  clear_value machine
  unfold Response.result Response.state
  rw [delivered, stands]
  exact ⟨rfl, Registers.byte_put_self _ 3 2, rfl⟩

end Machine

end Chip8
