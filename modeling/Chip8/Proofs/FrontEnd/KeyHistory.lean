import Chip8.FrontEnd.Keyboard
import Chip8.Proofs.Machine.History
import Chip8.Scalar.Exact

/-!
What the keyboard does to a machine.

The grid of the keyboard and the keypad name the same sixteen keys, and the keys that control
the machine are none of them. So an event at the keyboard is a change of one key, a request to
the machine, or nothing at all, and no history of events makes the machine fail. What such a
history leaves behind can be read off the events alone: every key is as its last change left it.
-/

namespace Chip8

/-! ### The grid -/

namespace FrontEnd

namespace Keyboard

/-- The code of the key of the grid that stands for a key of the keypad. -/
def codeAt (key : Key) : Int :=
  codeOf (layout.get key)

def stepCode : Int := codeOf ' '

def resumeCode : Int := codeOf 'p'

theorem keyOf?_codeAt : ∀ key : Key, keyOf? (codeAt key) = some key.val := by
  decide

theorem codeAt_injective {left right : Key} (same : codeAt left = codeAt right) :
    left = right := by
  have found := keyOf?_codeAt left
  rw [same, keyOf?_codeAt] at found
  exact (Fin.ext (Option.some.inj found)).symm

theorem codeAt_of_keyOf? {code : Int} {place : Nat} (found : keyOf? code = some place) :
    ∃ key : Key, key.val = place ∧ codeAt key = code := by
  obtain ⟨inside, here, _⟩ := List.findIdx?_eq_some_iff_getElem.mp found
  exact ⟨⟨place, inside⟩, rfl, of_decide_eq_true here⟩

/-- No key of the grid controls the machine. -/
theorem codeAt_ne_control :
    ∀ key : Key, codeAt key ≠ escapeCode ∧ codeAt key ≠ stepCode ∧ codeAt key ≠ resumeCode := by
  decide

end Keyboard

namespace InputEvent

open Keyboard

def code? : InputEvent → Option Int
  | .down code | .up code => some code
  | .closed | .other => none

def pressed : InputEvent → Bool
  | .down _ => true
  | .up _ | .closed | .other => false

/-- The event is a press or a release of the key of the grid that stands for `key`. -/
def Names (event : InputEvent) (key : Key) : Prop :=
  event.code? = some (codeAt key)

instance (event : InputEvent) (key : Key) : Decidable (event.Names key) :=
  inferInstanceAs (Decidable (_ = _))

def Quits (event : InputEvent) : Prop :=
  event = .closed ∨ event = .down escapeCode

instance (event : InputEvent) : Decidable event.Quits :=
  inferInstanceAs (Decidable (_ ∨ _))

/-- The events that mean something to a machine. -/
def Acts (event : InputEvent) : Prop :=
  (∃ key, event.Names key) ∨ event.Quits ∨ event = .down stepCode ∨ event = .down resumeCode

instance (event : InputEvent) : Decidable event.Acts :=
  inferInstanceAs (Decidable (_ ∨ _))

/-- The key of the keypad that an event changes. -/
def key? (event : InputEvent) : Option Key :=
  (List.finRange 16).find? fun key => event.Names key

theorem Names.unique {event : InputEvent} {left right : Key} (named : event.Names left)
    (also : event.Names right) : left = right :=
  codeAt_injective (Option.some.inj (named.symm.trans also))

theorem names_of_key? {event : InputEvent} {key : Key} (found : event.key? = some key) :
    event.Names key := by
  unfold key? at found
  have holds := List.find?_some found
  exact of_decide_eq_true holds

theorem key?_eq_some_iff {event : InputEvent} {key : Key} :
    event.key? = some key ↔ event.Names key := by
  constructor
  · exact names_of_key?
  · intro named
    cases found : event.key? with
    | none =>
        have absent := List.find?_eq_none.mp found key (List.mem_finRange key)
        exact absurd (decide_eq_true named) absent
    | some other => rw [(names_of_key? found).unique named]

theorem key?_eq_none_iff {event : InputEvent} :
    event.key? = none ↔ ∀ key, ¬ event.Names key := by
  rw [Option.eq_none_iff_forall_ne_some]
  exact forall_congr' fun key => not_congr key?_eq_some_iff

/-- A change of a key is no request to the machine. -/
theorem Names.not_control {event : InputEvent} {key : Key} (named : event.Names key) :
    ¬ event.Quits ∧ event ≠ .down stepCode ∧ event ≠ .down resumeCode := by
  obtain ⟨notEscape, notStep, notResume⟩ := codeAt_ne_control key
  refine ⟨?_, ?_, ?_⟩
  · rintro (rfl | rfl)
    · cases named
    · exact notEscape (Option.some.inj named).symm
  · rintro rfl
    exact notStep (Option.some.inj named).symm
  · rintro rfl
    exact notResume (Option.some.inj named).symm

/-- A request to stop is no other request. -/
theorem Quits.not_other {event : InputEvent} (quits : event.Quits) :
    event ≠ .down stepCode ∧ event ≠ .down resumeCode := by
  rcases quits with rfl | rfl <;> decide

/-- An event that presses a key is the press of that key. -/
theorem Names.pressed_iff {event : InputEvent} {key : Key} (named : event.Names key) :
    event.pressed = true ↔ event = .down (codeAt key) := by
  cases event with
  | down code =>
      cases named
      exact iff_of_true rfl rfl
  | up code => exact iff_of_false Bool.false_ne_true InputEvent.noConfusion
  | closed | other => cases named

end InputEvent

namespace Keyboard

/-- What an event at the keyboard is for a machine: a change of one key, a request, or nothing. -/
inductive Reads : InputEvent → List Event → Prop
  | key {event : InputEvent} (key : Key) :
      event.Names key → Reads event [.key key.val event.pressed]
  | quit {event : InputEvent} : event.Quits → Reads event [.quit]
  | step : Reads (.down stepCode) [.step]
  | resume : Reads (.down resumeCode) [.resume]
  | nothing {event : InputEvent} : ¬ event.Acts → Reads event []

theorem ne_codeAt_of_keyOf? {code : Int} (missing : keyOf? code = none) (key : Key) :
    code ≠ codeAt key := by
  rintro rfl
  rw [keyOf?_codeAt] at missing
  cases missing

theorem reads_controlOf {code : Int} (missing : keyOf? code = none) :
    Reads (.down code) (controlOf code) := by
  unfold controlOf
  split
  · next escapes => exact .quit (Or.inr (congrArg _ escapes))
  · next noEscape =>
      split
      · next isStep =>
          cases isStep
          exact .step
      · next noStep =>
          split
          · next isResume =>
              cases isResume
              exact .resume
          · next noResume =>
              exact .nothing (by simp [InputEvent.Acts, InputEvent.Names, InputEvent.Quits,
                InputEvent.code?, ne_codeAt_of_keyOf? missing, noEscape, stepCode, noStep,
                resumeCode, noResume])

theorem reads_translate (event : InputEvent) : Reads event (translate event) := by
  cases event with
  | closed => exact .quit (Or.inl rfl)
  | other => exact .nothing (by simp [InputEvent.Acts, InputEvent.Names, InputEvent.Quits,
      InputEvent.code?])
  | up code =>
      rw [translate]
      split
      · next place found =>
          obtain ⟨key, rfl, rfl⟩ := codeAt_of_keyOf? found
          exact .key key rfl
      · next missing =>
          exact .nothing (by simp [InputEvent.Acts, InputEvent.Names, InputEvent.Quits,
            InputEvent.code?, ne_codeAt_of_keyOf? missing])
  | down code =>
      rw [translate]
      split
      · next place found =>
          obtain ⟨key, rfl, rfl⟩ := codeAt_of_keyOf? found
          exact .key key rfl
      · next missing => exact reads_controlOf missing

end Keyboard

end FrontEnd

open FrontEnd FrontEnd.Keyboard

/-! ### Histories of the keypad -/

namespace Keypad

theorem key?_val (key : Key) : key? key.val = .ok key := by
  unfold key?
  rw [Digit.ofInt?_val]

theorem set_val (keypad : Keypad) (key : Key) (pressed : Bool) :
    keypad.set key.val pressed = .ok (keypad.change key pressed) := by
  unfold set
  rw [key?_val]
  rfl

theorem isPressed_val (keypad : Keypad) (key : Key) :
    keypad.isPressed key.val = .ok (keypad.down.get key) := by
  unfold isPressed
  rw [key?_val]
  rfl

/-- The keypad after an event at the keyboard. -/
def heed (keypad : Keypad) (event : InputEvent) : Keypad :=
  match event.key? with
  | some key => keypad.change key event.pressed
  | none => keypad

def heedAll (keypad : Keypad) (events : List InputEvent) : Keypad :=
  events.foldl heed keypad

@[simp] theorem heedAll_cons (keypad : Keypad) (event : InputEvent) (rest : List InputEvent) :
    keypad.heedAll (event :: rest) = (keypad.heed event).heedAll rest := rfl

theorem heed_of_names (keypad : Keypad) {event : InputEvent} {key : Key}
    (named : event.Names key) : keypad.heed event = keypad.change key event.pressed := by
  unfold heed
  rw [InputEvent.key?_eq_some_iff.mpr named]

theorem heed_of_not_names (keypad : Keypad) {event : InputEvent}
    (unnamed : ∀ key, ¬ event.Names key) : keypad.heed event = keypad := by
  unfold heed
  rw [InputEvent.key?_eq_none_iff.mpr unnamed]

theorem down_heed (keypad : Keypad) (event : InputEvent) (key : Key) :
    (keypad.heed event).down.get key =
      if event.Names key then event.pressed else keypad.down.get key := by
  by_cases mapped : ∃ other, event.Names other
  · obtain ⟨other, named⟩ := mapped
    rw [keypad.heed_of_names named]
    change (keypad.down.set other event.pressed)[key.val] = _
    rw [Vector.getElem_set]
    by_cases same : other = key
    · subst same
      rw [if_pos rfl, if_pos named]
    · rw [if_neg (fun equal => same (Fin.ext equal)),
        if_neg (fun also => same (named.unique also))]
      rfl
  · have unnamed : ∀ other, ¬ event.Names other := not_exists.mp mapped
    rw [keypad.heed_of_not_names unnamed, if_neg (unnamed key)]

/-- Every key is as its last change left it. -/
theorem down_heedAll (keypad : Keypad) (events : List InputEvent) (key : Key) :
    (keypad.heedAll events).down.get key =
      ((events.filter (·.Names key)).getLast?.map InputEvent.pressed).getD (keypad.down.get key) := by
  induction events generalizing keypad with
  | nil => rfl
  | cons event rest ih =>
      have later := ih (keypad.heed event)
      rw [down_heed] at later
      rw [heedAll_cons, later]
      by_cases named : event.Names key
      · rw [if_pos named, List.filter_cons, if_pos (decide_eq_true named), List.getLast?_cons]
        cases (rest.filter (·.Names key)).getLast? <;> rfl
      · rw [if_neg named, List.filter_cons, if_neg (by rwa [decide_eq_true_iff])]

/-- When all keys were up, those are down that were pressed last. -/
theorem down_heedAll_released (events : List InputEvent) (key : Key) :
    (released.heedAll events).down.get key =
      decide ((events.filter (·.Names key)).getLast? = some (.down (codeAt key))) := by
  rw [down_heedAll]
  cases found : (events.filter (·.Names key)).getLast? with
  | none => exact Vector.getElem_replicate key.isLt
  | some last =>
      have named : last.Names key :=
        of_decide_eq_true (List.mem_filter.mp (List.mem_of_getLast? found)).2
      rw [Option.map_some, Option.getD_some, Bool.eq_iff_iff, named.pressed_iff,
        decide_eq_true_iff, Option.some.injEq]

/-- The keypad remembers the key of the last change. -/
theorem last_heedAll (keypad : Keypad) (events : List InputEvent) :
    match (events.filter fun event => ∃ key, event.Names key).getLast? with
    | some event => event.Names (keypad.heedAll events).last
    | none => (keypad.heedAll events).last = keypad.last := by
  induction events generalizing keypad with
  | nil => rfl
  | cons event rest ih =>
      have later := ih (keypad.heed event)
      by_cases mapped : ∃ key, event.Names key
      · rw [List.filter_cons, if_pos (decide_eq_true mapped), List.getLast?_cons]
        obtain ⟨key, named⟩ := mapped
        -- This change is the last one only if no later event changes any key.
        cases found : (rest.filter fun event => ∃ key, event.Names key).getLast? with
        | some last =>
            rw [found] at later
            exact later
        | none =>
            rw [found, keypad.heed_of_names named] at later
            have same : (keypad.heedAll (event :: rest)).last = key := by
              rw [heedAll_cons, keypad.heed_of_names named]
              exact later
            rw [← same] at named
            exact named
      · have unnamed : ∀ key, ¬ event.Names key := not_exists.mp mapped
        rw [keypad.heed_of_not_names unnamed] at later
        rw [heedAll_cons, keypad.heed_of_not_names unnamed, List.filter_cons,
          if_neg (by rwa [decide_eq_true_iff])]
        exact later

end Keypad

/-! ### Histories of a machine -/

namespace Machine

variable {Time : Type}

/-- The machine after an event at the keyboard. -/
def heed (machine : Machine Time) (event : InputEvent) : Machine Time :=
  { machine with
    core := { machine.core with keypad := machine.core.keypad.heed event }
    halted := machine.halted || event.Quits
    paused := machine.paused && event ≠ .down resumeCode
    stepPending := machine.stepPending || (machine.paused && event = .down stepCode)
    resumedAt :=
      if machine.paused ∧ event = .down resumeCode then some machine.counter
      else machine.resumedAt }

def heedAll (machine : Machine Time) (events : List InputEvent) : Machine Time :=
  events.foldl heed machine

/-- Poll the keyboard once for each batch of events. -/
def pollAll (machine : Machine Time) (batches : List (List InputEvent)) :
    Attempt (Machine Time) Unit :=
  Attempt.forEach (fun reached batch => (reached.receive (translateAll batch)).attempt)
    machine batches

theorem handle_key (machine : Machine Time) (key : Key) (pressed : Bool) :
    (machine.handle (.key key.val pressed)).attempt =
      .ok () (machine.withCore
        { machine.core with keypad := machine.core.keypad.change key pressed }) := by
  rw [handle, Keypad.set_val]

theorem handle_resume (machine : Machine Time) :
    (machine.handle .resume).attempt =
      .ok () { machine with
        paused := false
        resumedAt := if machine.paused then some machine.counter else machine.resumedAt } := by
  obtain ⟨core, timers, interval, breakpoints, trace, halted, paused, stepPending, resumedAt⟩ :=
    machine
  cases paused <;> rfl

theorem heed_of_not_acts (machine : Machine Time) {event : InputEvent} (idle : ¬ event.Acts) :
    machine.heed event = machine := by
  obtain ⟨unmapped, stays, noStep, noResume⟩ : (¬ ∃ key, event.Names key) ∧ ¬ event.Quits ∧
      event ≠ .down stepCode ∧ event ≠ .down resumeCode := by
    simpa only [InputEvent.Acts, not_or] using idle
  unfold heed
  rw [machine.core.keypad.heed_of_not_names (not_exists.mp unmapped)]
  simp [stays, noStep, noResume]

theorem receive_translate (machine : Machine Time) (event : InputEvent) :
    (machine.receive (translate event)).attempt = .ok () (machine.heed event) := by
  have reads := reads_translate event
  generalize translate event = requests at reads ⊢
  cases reads with
  | key key named =>
      obtain ⟨stays, noStep, noResume⟩ := named.not_control
      simp only [receive, handle_key]
      unfold heed
      rw [machine.core.keypad.heed_of_names named]
      simp [withCore, stays, noStep, noResume]
  | quit quits =>
      have unnamed : ∀ key, ¬ event.Names key := fun key named => named.not_control.1 quits
      obtain ⟨noStep, noResume⟩ := quits.not_other
      simp only [receive, handle]
      unfold heed
      rw [machine.core.keypad.heed_of_not_names unnamed]
      simp [halt, quits, noStep, noResume]
  | step =>
      have unnamed : ∀ key, ¬ (InputEvent.down stepCode).Names key :=
        fun key named => named.not_control.2.1 rfl
      have stays : ¬ (InputEvent.down stepCode).Quits := by decide
      have noResume : stepCode ≠ resumeCode := by decide
      simp only [receive, handle]
      unfold heed
      rw [machine.core.keypad.heed_of_not_names unnamed]
      simp [stays, noResume]
  | resume =>
      have unnamed : ∀ key, ¬ (InputEvent.down resumeCode).Names key :=
        fun key named => named.not_control.2.2 rfl
      have stays : ¬ (InputEvent.down resumeCode).Quits := by decide
      have noStep : resumeCode ≠ stepCode := by decide
      simp only [receive, handle_resume]
      unfold heed
      rw [machine.core.keypad.heed_of_not_names unnamed]
      simp [stays, noStep]
  | nothing idle => rw [machine.heed_of_not_acts idle, receive]

theorem receive_append (machine : Machine Time) {first : List Event} {next : Machine Time}
    (received : (machine.receive first).attempt = .ok () next) (second : List Event) :
    (machine.receive (first ++ second)).attempt = (next.receive second).attempt := by
  induction first generalizing machine with
  | nil =>
      cases received
      rfl
  | cons event rest ih =>
      rw [List.cons_append]
      simp only [receive] at received ⊢
      cases heard : (machine.handle event).attempt with
      | error fault left =>
          rw [heard] at received
          cases heard.symm.trans received
      | ok answer after =>
          rw [heard] at received
          exact ih after received

theorem receive_translateAll (machine : Machine Time) (batch : List InputEvent) :
    (machine.receive (translateAll batch)).attempt = .ok () (machine.heedAll batch) := by
  induction batch generalizing machine with
  | nil => rfl
  | cons event rest ih =>
      have same : translateAll (event :: rest) = translate event ++ translateAll rest :=
        List.flatMap_cons
      rw [same, machine.receive_append (machine.receive_translate event)]
      exact ih (machine.heed event)

/-- However its events are cut into batches, a history is heard event by event. -/
theorem pollAll_eq (machine : Machine Time) (batches : List (List InputEvent)) :
    machine.pollAll batches = .ok () (machine.heedAll batches.flatten) := by
  induction batches generalizing machine with
  | nil => rfl
  | cons batch rest ih =>
      have polled := ih (machine.heedAll batch)
      unfold pollAll at polled ⊢
      rw [Attempt.forEach_cons_ok rest (machine.receive_translateAll batch), polled]
      unfold heedAll
      rw [List.flatten_cons, List.foldl_append]

theorem heedAll_filter (machine : Machine Time) (events : List InputEvent) :
    machine.heedAll (events.filter (·.Acts)) = machine.heedAll events := by
  induction events generalizing machine with
  | nil => rfl
  | cons event rest ih =>
      by_cases acts : event.Acts
      · rw [List.filter_cons, if_pos (decide_eq_true acts)]
        exact ih (machine.heed event)
      · rw [List.filter_cons, if_neg (by rwa [decide_eq_true_iff]), ih]
        unfold heedAll
        rw [List.foldl_cons, machine.heed_of_not_acts acts]

/-- What a history of events makes of a machine. A single step is only remembered while the
machine is paused, and the first press that resumes it ends the pause. -/
theorem heedAll_eq (machine : Machine Time) (events : List InputEvent) :
    machine.heedAll events = { machine with
      core := { machine.core with keypad := machine.core.keypad.heedAll events }
      halted := machine.halted || ∃ event ∈ events, event.Quits
      paused := machine.paused && .down resumeCode ∉ events
      stepPending := machine.stepPending ||
        (machine.paused && .down stepCode ∈ events.takeWhile (· ≠ .down resumeCode))
      resumedAt :=
        if machine.paused ∧ .down resumeCode ∈ events then some machine.counter
        else machine.resumedAt } := by
  induction events generalizing machine with
  | nil => simp [heedAll, Keypad.heedAll]
  | cons event rest ih =>
      have later := ih (machine.heed event)
      change (machine.heed event).heedAll rest = _
      rw [later, Keypad.heedAll_cons]
      unfold heed
      simp only [Machine.mk.injEq, true_and]
      -- The press that resumes ends the stretch of events in which a step is remembered.
      by_cases isResume : event = .down resumeCode
      · have noStep : InputEvent.down resumeCode ≠ .down stepCode := by decide
        subst isResume
        refine ⟨?_, ?_, ?_, ?_⟩
        · simp [Bool.or_assoc]
        · simp
        · simp [noStep]
        · simp
      · have before : (event :: rest).takeWhile (· ≠ .down resumeCode) =
            event :: rest.takeWhile (· ≠ .down resumeCode) :=
          List.takeWhile_cons_of_pos (decide_eq_true isResume)
        rw [before]
        refine ⟨?_, ?_, ?_, ?_⟩
        · simp [Bool.or_assoc]
        · simp [isResume, Ne.symm isResume]
        · simp [isResume, Bool.or_assoc, Bool.and_or_distrib_left, eq_comm]
        · simp [counter, isResume, Ne.symm isResume]

/-- On a new machine a key is down exactly when its last change was a press, the keypad remembers
the last key that changed, the machine is halted exactly when it was asked to stop, and nothing
else has happened. On any machine a single step and the end of a pause are asked for by a press
and only while it is paused, and the events that mean nothing can be left out. -/
theorem keyboard_reaches_keypad [Scalar Time] {settings : Settings} {program : List UInt8}
    {machine : Machine Time} (started : boot settings program = .ok machine)
    (batches : List (List InputEvent)) :
    let events := batches.flatten
    (∃ reached, machine.pollAll batches = .ok () reached ∧
        (∀ key : Key, reached.core.keypad.isPressed key.val =
          .ok ((events.filter (·.Names key)).getLast? = some (.down (codeAt key)))) ∧
        (match (events.filter fun event => ∃ key, event.Names key).getLast? with
          | some event => event.Names reached.core.keypad.last
          | none => reached.core.keypad.last = Digit.zero) ∧
        (reached.halted = true ↔ ∃ event ∈ events, event.Quits) ∧
        reached = { machine with
          core := { machine.core with keypad := reached.core.keypad }
          halted := reached.halted }) ∧
      ∀ other : Machine Time,
        (∃ reached, other.pollAll batches = .ok () reached ∧
          reached.paused = (other.paused && .down resumeCode ∉ events) ∧
          reached.stepPending = (other.stepPending ||
            (other.paused && .down stepCode ∈ events.takeWhile (· ≠ .down resumeCode)))) ∧
        other.pollAll (batches.map (·.filter (·.Acts))) = other.pollAll batches := by
  intro events
  obtain ⟨allUp, goesOn, runs⟩ : machine.core.keypad = .released ∧ machine.halted = false ∧
      machine.paused = false := by
    obtain ⟨timers, interval, memory, _, _, _, rfl⟩ := boot_eq_ok_iff.mp started
    exact ⟨rfl, rfl, rfl⟩
  have heard := machine.heedAll_eq events
  have keypad : (machine.heedAll events).core.keypad = Keypad.released.heedAll events := by
    rw [heard, allUp]
  refine ⟨⟨_, machine.pollAll_eq batches, ?_, ?_, ?_, ?_⟩, ?_⟩
  · intro key
    rw [keypad, Keypad.isPressed_val, Keypad.down_heedAll_released]
  · rw [keypad]
    exact Keypad.released.last_heedAll events
  · rw [heard, goesOn, Bool.false_or, decide_eq_true_iff]
  · change machine.heedAll events = _
    rw [heard, runs]
    simp
  · intro other
    refine ⟨⟨_, other.pollAll_eq batches, ?_, ?_⟩, ?_⟩
    · rw [heedAll_eq]
    · rw [heedAll_eq]
    · rw [pollAll_eq, pollAll_eq, ← List.filter_flatten, heedAll_filter]

/-- A key that is held and reported twice is down, one that is released without having been
pressed is up, and so is one that was tapped, the last to change. Letting go of Escape does not
halt the machine. -/
theorem keyboard_reaches_keypad_when_held :
    ∃ machine reached : Machine Rat,
      boot ⟨700, false, 0, [], false, "keys"⟩ [0x12, 0x00] = .ok machine ∧
        machine.pollAll
            [[.down (codeOf 'q'), .up (codeOf 'x'), .down (codeOf 'v')],
              [.up escapeCode, .down (codeOf 'q'), .other, .up (codeOf 'v')]] = .ok () reached ∧
          reached.core.keypad.isPressed 4 = .ok true ∧
            reached.core.keypad.isPressed 0 = .ok false ∧
              reached.core.keypad.last = 0xF ∧ reached.halted = false := by
  obtain ⟨machine, started⟩ : ∃ machine : Machine Rat,
      boot ⟨700, false, 0, [], false, "keys"⟩ [0x12, 0x00] = .ok machine := ⟨_, rfl⟩
  obtain ⟨⟨reached, polled, pressed, last, halted, _⟩, _⟩ := keyboard_reaches_keypad started
    [[.down (codeOf 'q'), .up (codeOf 'x'), .down (codeOf 'v')],
      [.up escapeCode, .down (codeOf 'q'), .other, .up (codeOf 'v')]]
  refine ⟨machine, reached, started, polled, ?_, ?_, ?_, ?_⟩
  · exact (pressed 4).trans (congrArg Except.ok (by decide))
  · exact (pressed 0).trans (congrArg Except.ok (by decide))
  · have lastNamed : (InputEvent.up (codeOf 'v')).Names reached.core.keypad.last := last
    exact lastNamed.unique (by decide)
  · rw [Bool.eq_false_iff]
    intro stopped
    exact absurd (halted.mp stopped) (by decide)

end Machine

end Chip8
