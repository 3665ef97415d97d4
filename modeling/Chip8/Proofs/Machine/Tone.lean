import Chip8.Proofs.Machine.Contact

/-!
The tone of a run.

A pass whose timers caught up with the clock sets the tone, to whether the sound timer still runs
then; nothing else does while the run goes on. Behind the last pass the tone is turned off, however
the run ended, unless it was over before it began.
-/

namespace Chip8

variable {Time World : Type}

def Effect.tone? : Effect Time → Option Bool
  | .tone active => some active
  | _ => none

def Contact.tone? : Contact Time → Option Bool
  | .effect asked => asked.tone?
  | _ => none

theorem filterMap_tone?_effects (effects : List (Effect Time)) :
    (effects.map Contact.effect).filterMap Contact.tone? = effects.filterMap Effect.tone? :=
  List.filterMap_map

theorem filterMap_tone?_of_tell {effects : List (Effect Time)}
    (tell : ∀ effect ∈ effects, effect.Tells) : effects.filterMap Effect.tone? = [] :=
  Effect.filterMap_of_tell (fun _ => rfl) (fun _ => rfl) tell

variable [Scalar Time]

/-- What a moment sets the tone to: whether the sound timer runs behind an update. -/
def Moment.tone? (moment : Moment Time) : Option Bool :=
  match moment.action with
  | .update now =>
      match moment.machine.catchUp now with
      | .ok caught => some (decide (0 < caught.core.registers.sound))
      | .error _ => none
  | _ => none

theorem Moment.tone?_update {machine caught : Machine Time} {now : Time}
    (caughtUp : machine.catchUp now = .ok caught) :
    Moment.tone? ⟨machine, .update now⟩ = some caught.core.registers.toneActive := by
  unfold tone?
  simp only [caughtUp]
  rfl

namespace Machine

theorem hearings_tone (machine : Machine Time) (events : List Event) :
    (machine.hearings events).filterMap Moment.tone? = [] := by
  refine List.filterMap_eq_nil_iff.mpr fun moment member => ?_
  obtain ⟨heard, event, rfl⟩ := machine.hearings_hear events moment member
  rfl

theorem slotMoments_tone (machine : Machine Time) :
    machine.slotMoments.filterMap Moment.tone? = [] := by
  unfold slotMoments
  rcases machine.ready_cases with ⟨arrived, answer⟩ | ⟨arrived, answer⟩
  · rw [answer]
    rfl
  · rw [answer]
    rfl

omit [Scalar Time] in
theorem slot_tone (machine : Machine Time) : machine.slot.effects.filterMap Effect.tone? = [] :=
  filterMap_tone?_of_tell machine.slot_effects_tell

omit [Scalar Time] in
theorem receive_tone (machine : Machine Time) (events : List Event) :
    (machine.receive events).effects.filterMap Effect.tone? = [] := by
  obtain ⟨records, told⟩ := machine.receive_effects events
  rw [told]
  exact filterMap_tone?_of_tell (Effect.tells_log records)

/-- A reading sets the tone once if the timers caught up with it, and else not at all. -/
theorem Lap.tones {machine : Machine Time} {due now : Time} {moments : List (Moment Time)}
    {effects : List (Effect Time)} {passed : Passed Time Unit}
    (lap : Lap machine due now moments effects passed) :
    effects.filterMap Effect.tone? = moments.filterMap Moment.tone? := by
  cases lap with
  | lapse caughtUp =>
      unfold Moment.tone?
      simp only [List.filterMap_cons, caughtUp]
      rfl
  | rest caughtUp early =>
      rw [List.filterMap_cons_some (Moment.tone?_update caughtUp)]
      rfl
  | fail caughtUp isDue spent | advance caughtUp isDue spent =>
      rw [List.filterMap_cons_some (Moment.tone?_update caughtUp), slotMoments_tone]
      exact congrArg (List.cons _) (slot_tone _)
  | @stall caught after caughtUp isDue spent =>
      have idle : after.idleEffects.filterMap Effect.tone? = [] := by
        unfold idleEffects
        split <;> rfl
      simp only [List.filterMap_cons_some (Moment.tone?_update caughtUp), slotMoments_tone,
        List.filterMap_cons, Effect.tone?, List.filterMap_append, slot_tone, idle, List.append_nil]

/-- Hearing events sets no tone. -/
theorem heard_tones (machine : Machine Time) (events : List Event) :
    (machine.hearings events).filterMap Moment.tone? =
      ((machine.receive events).effects.map Contact.effect).filterMap Contact.tone? := by
  rw [filterMap_tone?_effects, receive_tone, hearings_tone]

theorem Course.tones {host : Host Time World} {limit : Option Int} {running : Running Time World}
    {moments : List (Moment Time)} {contacts : List (Contact Time)} {passed : Passed Time World}
    (course : Course host limit running moments contacts passed) :
    contacts.filterMap Contact.tone? = moments.filterMap Moment.tone? := by
  cases course with
  | stop stops => rfl
  | refuse goes handed heard | halt goes handed heard halted =>
      simp only [List.filterMap_cons, Contact.tone?, Moment.tone?, heard_tones]
  | interrupt goes handed heard halted read =>
      simp only [List.filterMap_cons, List.filterMap_append, List.filterMap_nil, Contact.tone?,
        Moment.tone?, heard_tones, List.append_nil]
  | goOn goes handed heard halted read lap =>
      simp only [List.filterMap_cons, List.filterMap_append, Contact.tone?, Moment.tone?,
        heard_tones, filterMap_tone?_effects, lap.tones]

theorem Course.ending_ne {host : Host Time World} {limit : Option Int}
    {running : Running Time World} {moments : List (Moment Time)}
    {contacts : List (Contact Time)} {ending : Ending} {machine : Machine Time} {world : World}
    (course : Course host limit running moments contacts (.over ending machine world)) :
    ending ≠ .unfinished := by
  generalize led : Passed.over ending machine world = passed at course
  cases course with
  | goOn goes handed heard halted read lap =>
      cases lap <;> cases led
      all_goals exact Ending.noConfusion
  | _ =>
      cases led
      exact Ending.noConfusion

/-- The tone that a run is left with, when it is over. -/
def closingTones : Ending → List Bool
  | .unfinished => []
  | _ => [false]

theorem closingTones_of_ne {ending : Ending} (isOver : ending ≠ .unfinished) :
    closingTones ending = [false] := by
  cases ending with
  | unfinished => exact absurd rfl isOver
  | _ => rfl

theorem Journey.tones {host : Host Time World} {limit : Option Int} {passes : Nat}
    {running : Running Time World} {moments : List (Moment Time)}
    {contacts : List (Contact Time)} {finished : Finished Time World}
    (journey : Journey host limit passes running moments contacts finished) :
    contacts.filterMap Contact.tone? =
      moments.filterMap Moment.tone? ++ closingTones finished.ending := by
  induction journey with
  | unfinished running => rfl
  | again course _ ih =>
      rw [List.filterMap_append, List.filterMap_append, course.tones, ih, List.append_assoc]
  | @close _ _ _ ending machine world _ course =>
      have settled : (machine.endingEffects ending).filterMap Effect.tone? = [] := by
        cases ending <;> rfl
      rw [List.filterMap_append, course.tones, filterMap_tone?_effects, List.filterMap_cons]
      simp only [Effect.tone?, settled]
      exact congrArg _ (closingTones_of_ne course.ending_ne).symm

/-- What a run sets the tone to, one after another. -/
def tones (host : Host Time World) (limit : Option Int) (passes : Nat) (machine : Machine Time)
    (world : World) : List Bool :=
  (machine.contacts host limit passes world).filterMap Contact.tone?

/-- A run sets the tone as the updates in its history say, and turns it off at the end. One that
was interrupted before it began does not touch it. -/
theorem tones_eq (host : Host Time World) (limit : Option Int) (passes : Nat)
    (machine : Machine Time) (world : World) :
    ((launch host machine world).1 = none ∧ machine.tones host limit passes world = []) ∨
      (launch host machine world).1 ≠ none ∧ machine.tones host limit passes world =
        (machine.history host limit passes world).filterMap Moment.tone? ++
          closingTones (machine.run host limit passes world).ending := by
  unfold tones
  rcases run_cases host limit passes machine world with
    ⟨left, launched, _, _, noted⟩ | ⟨start, left, later, launched, journey, noted⟩
  · rw [launched, noted]
    exact Or.inl ⟨rfl, rfl⟩
  · rw [launched, noted, List.filterMap_append, ← journey.tones]
    exact Or.inr ⟨Option.some_ne_none start, rfl⟩

/-- Once a run is over, the tone was turned off last, if it was touched at all. -/
theorem last_tone_ne_true {host : Host Time World} {limit : Option Int} {passes : Nat}
    {machine : Machine Time} {world : World}
    (isOver : (machine.run host limit passes world).ending ≠ .unfinished) :
    machine.tones host limit passes world = [] ∨
      (machine.tones host limit passes world).getLast? = some false := by
  rcases tones_eq host limit passes machine world with ⟨_, untouched⟩ | ⟨_, told⟩
  · exact Or.inl untouched
  · right
    rw [told, closingTones_of_ne isOver, List.getLast?_concat]

end Machine

end Chip8
