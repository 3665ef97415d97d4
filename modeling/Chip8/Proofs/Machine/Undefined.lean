import Chip8.Proofs.Instruction.Lines
import Chip8.Proofs.Instruction.Mnemonic
import Chip8.Proofs.Machine.Reachable

/-!
Words that are no instructions.

The engine and the written forms agree on which words are instructions. A machine in any
state refuses a word as undefined exactly if the word is written with question marks; the
fault names the word and the counter, and nothing has changed. So a line of a trace or of a
listing has question marks exactly if the machine fails at the word of that line.
-/

namespace Chip8

/-- A fault that says of a word that it is no instruction. -/
def Fault.IsInvalidOpcode : Fault → Prop
  | .invalidOpcode .. => True
  | _ => False

/-! ### What an instruction can fail with -/

theorem Memory.read_defined {memory : Memory} {address : Int} {fault : Fault}
    (failed : memory.read address = .error fault) : ¬ fault.IsInvalidOpcode := by
  rw [(read_eq_error_iff.mp failed).2]
  exact not_false

theorem Memory.write_defined {memory : Memory} {address value : Int} {fault : Fault}
    (failed : memory.write address value = .error fault) : ¬ fault.IsInvalidOpcode := by
  unfold write at failed
  split at failed
  · cases failed
  · cases failed
    exact not_false

theorem Memory.readBlock_defined {memory : Memory} {address : Int} {count : Nat} {fault : Fault}
    (failed : memory.readBlock address count = .error fault) : ¬ fault.IsInvalidOpcode := by
  induction count generalizing address with
  | zero => cases failed
  | succ count ih =>
      rw [readBlock_succ] at failed
      rcases of_bind_error failed with first | ⟨byte, _, later⟩
      · exact read_defined first
      · rcases of_bind_error later with others | ⟨rest, _, impossible⟩
        · exact ih others
        · cases impossible

theorem Memory.writeBlock_defined {memory : Memory} {address : Int} {values : List UInt8}
    {fault : Fault} (failed : memory.writeBlock address values = .error fault) :
    ¬ fault.IsInvalidOpcode := by
  induction values generalizing memory address with
  | nil => cases failed
  | cons value rest ih =>
      rcases of_bind_error failed with first | ⟨written, _, later⟩
      · exact write_defined first
      · exact ih later

theorem ReturnStack.push_defined {stack left : ReturnStack} {address : Int} {fault : Fault}
    (failed : stack.push address = .error fault left) : ¬ fault.IsInvalidOpcode := by
  unfold push at failed
  split at failed
  · cases failed
    exact not_false
  · split at failed
    · cases failed
    · cases failed
      exact not_false

theorem ReturnStack.pop_defined {stack left : ReturnStack} {fault : Fault}
    (failed : stack.pop = .error fault left) : ¬ fault.IsInvalidOpcode := by
  unfold pop at failed
  split at failed
  · cases failed
    exact not_false
  · dsimp only at failed
    split at failed
    · cases failed
    · cases failed
      exact not_false

namespace Core

variable {core left : Core}

theorem of_advancing_error {attempt : Except Fault Core} {fault : Fault}
    (failed : core.advancing attempt = .error fault left) : attempt = .error fault := by
  cases attempt with
  | ok after => cases failed
  | error found =>
      cases failed
      rfl

/-- An instruction can fail, but never as a word that is none. -/
theorem perform_defined {instruction : Instruction} {fault : Fault}
    (failed : core.perform instruction = .error fault left) : ¬ fault.IsInvalidOpcode := by
  cases instruction with
  | returnToCaller =>
      rw [perform, Registers.pop] at failed
      cases popped : core.registers.stack.pop with
      | ok target stack =>
          rw [popped] at failed
          cases failed
      | error found stack =>
          rw [popped] at failed
          cases failed
          exact ReturnStack.pop_defined popped
  | call target =>
      rw [perform, Registers.push] at failed
      cases pushed : core.registers.stack.push (core.registers.counter + 2) with
      | ok answer stack =>
          rw [pushed] at failed
          cases failed
      | error found stack =>
          rw [pushed] at failed
          cases failed
          exact ReturnStack.push_defined pushed
  | draw x y rows =>
      have missing := of_advancing_error failed
      cases found : core.sprite rows.val with
      | ok sprite =>
          rw [found] at missing
          cases missing
      | error first =>
          rw [found] at missing
          cases missing
          exact Memory.readBlock_defined found
  | loadRegisters x =>
      rcases of_bind_error (of_advancing_error failed) with missing | ⟨values, _, impossible⟩
      · exact Memory.readBlock_defined missing
      · cases impossible
  | storeDecimal x | storeRegisters x =>
      rcases of_bind_error (of_advancing_error failed) with missing | ⟨memory, _, impossible⟩
      · exact Memory.writeBlock_defined missing
      · cases impossible
  | _ => cases failed

/-! ### What a word is refused for -/

/-- A word with question marks is refused, and nothing changes. -/
theorem execute_of_unwritten {word : Nat} (small : word < 0x10000)
    (unwritten : (disassemble word).startsWith "???" = true) :
    core.execute word = .error (.invalidOpcode word core.registers.counter) core := by
  refine core.execute_undefined small fun instruction same => ?_
  have none := (disassemble_startsWith_iff word).mp unwritten
  exact Instruction.ofWord?_eq_none_iff.mp none instruction (congrArg Int.ofNat same)

theorem execute_invalidOpcode_iff {word : Nat} (small : word < 0x10000) :
    (∃ fault, (core.execute word).result = .error fault ∧ fault.IsInvalidOpcode) ↔
      (disassemble word).startsWith "???" = true := by
  constructor
  · rintro ⟨fault, failed, invalid⟩
    rw [disassemble_startsWith_iff]
    cases found : Instruction.ofWord? word with
    | none => rfl
    | some instruction =>
        have performed : core.execute word = core.perform instruction :=
          core.execute_assemble small (Int.ofNat.inj (Instruction.assemble_of_ofWord? found))
        cases went : core.perform instruction with
        | ok answer after =>
            rw [performed, went] at failed
            cases failed
        | error first left =>
            rw [performed, went] at failed
            cases failed
            exact absurd invalid (perform_defined went)
  · intro unwritten
    rw [execute_of_unwritten small unwritten]
    exact ⟨_, rfl, trivial⟩

theorem step_result_of_fetch {word : Nat} (idle : core.waiting = none)
    (fetched : core.fetch = .ok word) (fault : Fault) :
    core.step.result = .error fault ↔ (core.execute word).result = .error fault := by
  cases went : core.execute word with
  | ok answer after =>
      rw [step_of_execute idle fetched went, Attempt.result_ok, Attempt.result_ok]
      simp only [reduceCtorEq]
  | error first left =>
      rw [step_of_execute_error idle fetched went, Attempt.result_error, Attempt.result_error]
      simp only [Except.error.injEq]

theorem fetch_lt {word : Nat} (fetched : core.fetch = .ok word) : word < 0x10000 := by
  obtain ⟨high, _, rest⟩ := of_bind_ok fetched
  obtain ⟨low, _, same⟩ := of_bind_ok rest
  cases same
  have := high.toNat_lt
  have := low.toNat_lt
  omega

end Core

/-! ### Lines -/

/-- The line that a trace has for a word shows question marks exactly if the word is written
with them. -/
theorem showsUnknown_traceLine (address word : Int) :
    ShowsUnknown (traceLine address word) ↔ (disassemble word).startsWith "???" = true := by
  unfold ShowsUnknown
  rw [shownForm_traceLine]

theorem showsUnknown_render (line : Listing.Line) :
    ShowsUnknown line.render ↔ line.text.startsWith "???" = true := by
  unfold ShowsUnknown
  rw [shownForm_render]

namespace Listing

theorem words_lt (image : List UInt8) : ∀ word ∈ words image, word < 0x10000 := by
  have small : ∀ high low : UInt8, wordOf high low < 0x10000 := by
    intro high low
    have := high.toNat_lt
    have := low.toNat_lt
    unfold wordOf
    omega
  induction image using words.induct with
  | case1 => exact List.forall_mem_nil _
  | case2 high => exact List.forall_mem_singleton.mpr (small high 0)
  | case3 high low rest ih => exact List.forall_mem_cons.mpr ⟨small high low, ih⟩

theorem of_mem_linesFrom {origin : Int} {found : List Nat} {line : Line}
    (member : line ∈ linesFrom origin found) :
    line.word ∈ found ∧ line.text = disassemble line.word := by
  induction found generalizing origin with
  | nil => cases member
  | cons word rest ih =>
      rcases List.mem_cons.mp member with rfl | later
      · exact ⟨List.mem_cons_self, rfl⟩
      · obtain ⟨inRest, text⟩ := ih later
        exact ⟨List.mem_cons_of_mem _ inRest, text⟩

end Listing

/-! ### Machines -/

variable {Time : Type}

theorem Machine.execute_result (machine : Machine Time) (word : Int) :
    (machine.execute word).result = (machine.core.execute word).result :=
  Attempt.result_within ..

theorem Machine.step_effects_of_fetch {machine : Machine Time} {word : Nat}
    (idle : machine.core.waiting = none) (fetched : machine.core.fetch = .ok word)
    (traced : machine.trace = true) :
    ∃ others, machine.step.effects =
      .log (.debug (traceLine machine.counter word)) :: others := by
  unfold step Core.stepEffects
  simp only [idle, fetched, traced]
  exact ⟨_, rfl⟩

/-- Whatever state a machine is in, it refuses a word as undefined exactly if the word is written
with question marks, and then nothing changes. So the line that a traced step begins with shows
question marks exactly if that step fails in this way, and a line of a listing exactly if the
machine would fail in this way at its word. -/
theorem Machine.invalidOpcode_iff_unwritten (machine : Machine Time) :
    (∀ word : Nat, word < 0x10000 →
      ((∃ fault, (machine.execute word).result = .error fault ∧ fault.IsInvalidOpcode) ↔
          (disassemble word).startsWith "???" = true) ∧
        ((disassemble word).startsWith "???" = true →
          (machine.execute word).attempt =
            .error (.invalidOpcode word machine.counter) machine)) ∧
      (∀ word : Nat, machine.core.waiting = none → machine.core.fetch = .ok word →
        (machine.trace = true → ∃ line others,
          machine.step.effects = .log (.debug line) :: others ∧
          line = traceLine machine.counter word ∧ shownForm line = disassemble word ∧
          ((∃ fault, machine.step.result = .error fault ∧ fault.IsInvalidOpcode) ↔
            ShowsUnknown line)) ∧
        ((∃ fault, machine.step.result = .error fault ∧ fault.IsInvalidOpcode) ↔
          (disassemble word).startsWith "???" = true)) ∧
      ∀ (image : List UInt8) (origin : Int), ∀ line ∈ Listing.ofProgram image origin,
        ((∃ fault, (machine.execute line.word).result = .error fault ∧ fault.IsInvalidOpcode) ↔
          line.text.startsWith "???" = true) ∧
        ((∃ fault, (machine.execute line.word).result = .error fault ∧ fault.IsInvalidOpcode) ↔
          ShowsUnknown line.render) := by
  refine ⟨?_, ?_, ?_⟩
  · intro word small
    rw [machine.execute_result]
    refine ⟨Core.execute_invalidOpcode_iff small, ?_⟩
    intro unwritten
    unfold execute
    dsimp only
    rw [Core.execute_of_unwritten small unwritten]
    rfl
  · intro word idle fetched
    have failsIff : (∃ fault, machine.step.result = .error fault ∧ fault.IsInvalidOpcode) ↔
        (disassemble word).startsWith "???" = true := by
      rw [machine.step_result, ← Core.execute_invalidOpcode_iff (Core.fetch_lt fetched)]
      refine exists_congr ?_
      intro fault
      exact and_congr_left fun _ => Core.step_result_of_fetch idle fetched fault
    refine ⟨?_, failsIff⟩
    intro traced
    obtain ⟨others, effects⟩ := step_effects_of_fetch idle fetched traced
    refine ⟨_, others, effects, rfl, shownForm_traceLine _ _, ?_⟩
    rw [showsUnknown_traceLine]
    exact failsIff
  · intro image origin line member
    obtain ⟨isWord, text⟩ := Listing.of_mem_linesFrom member
    rw [showsUnknown_render, machine.execute_result, text]
    have failsIff := machine.core.execute_invalidOpcode_iff (Listing.words_lt image _ isWord)
    exact ⟨failsIff, failsIff⟩

/-- A comparison of two registers with a digit left over: refused wherever it turns up. -/
theorem invalidOpcode_at_comparison_with_digit :
    ∃ machine : Machine Rat,
      Machine.boot ⟨700, false, 0, [], true, "data"⟩ [0x51, 0x23] = .ok machine ∧
        (machine.execute (0x5123 : Nat)).attempt =
          .error (.invalidOpcode (0x5123 : Nat) machine.counter) machine ∧
        (∃ line others, machine.step.effects = .log (.debug line) :: others ∧
          ShowsUnknown line) ∧
        (∃ fault, machine.step.result = .error fault ∧ fault.IsInvalidOpcode) ∧
        ∀ line ∈ Listing.ofProgram [0x51, 0x23] 0x200, ShowsUnknown line.render := by
  obtain ⟨machine, started⟩ : ∃ machine : Machine Rat,
      Machine.boot ⟨700, false, 0, [], true, "data"⟩ [0x51, 0x23] = .ok machine := ⟨_, rfl⟩
  have fetched : machine.core.fetch = .ok 0x5123 := Machine.boot_fetch started
  have start : machine.core.waiting = none ∧ machine.trace = true := by
    obtain ⟨timers, interval, memory, _, _, _, rfl⟩ := Machine.boot_eq_ok_iff.mp started
    exact ⟨rfl, rfl⟩
  have unwritten : (disassemble (0x5123 : Nat)).startsWith "???" = true :=
    (disassemble_startsWith_iff _).mpr (by decide)
  obtain ⟨executed, stepped, listed⟩ := machine.invalidOpcode_iff_unwritten
  obtain ⟨refused, left⟩ := executed 0x5123 (by decide)
  obtain ⟨shown, failsIff⟩ := stepped 0x5123 start.1 fetched
  have failed := failsIff.mpr unwritten
  obtain ⟨line, others, effects, _, _, shows⟩ := shown start.2
  refine ⟨machine, started, left unwritten, ⟨line, others, effects, shows.mp failed⟩, failed, ?_⟩
  intro line member
  refine (listed [0x51, 0x23] 0x200 line member).2.mp ?_
  obtain rfl := List.mem_singleton.mp member
  exact refused.mpr unwritten

end Chip8
