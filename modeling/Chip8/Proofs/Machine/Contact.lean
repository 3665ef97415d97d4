import Chip8.Proofs.Machine.History

/-!
What a run has to do with its host.

A run meets its host in three ways: it is handed the events of a poll, it is shown a time or
interrupted instead, and it has an effect brought about. A host can write all of this down
beside its world, and no run takes notice. What a pass can do is said here once, with the moments
it goes through and the contacts it makes; whatever is to be known about both of them is read off
that.
-/

namespace Chip8

variable {Time World : Type}

inductive Contact (Time : Type)
  | poll (events : List Event)
  | reading (shown : Option Time)
  | effect (effect : Effect Time)

/-- A host that keeps a list of its contacts, the last one at the end. -/
def Host.recorded (host : Host Time World) : Host Time (World × List (Contact Time)) where
  poll := fun (world, contacts) =>
    let (events, polled) := host.poll world
    (events, (polled, contacts ++ [.poll events]))
  readClock := fun (world, contacts) =>
    let (shown, left) := host.readClock world
    (shown, (left, contacts ++ [.reading shown]))
  perform := fun effect (world, contacts) =>
    (host.perform effect world, contacts ++ [.effect effect])

theorem Host.recorded_poll {host : Host Time World} {world polled : World} {events : List Event}
    (handed : host.poll world = (events, polled)) (before : List (Contact Time)) :
    host.recorded.poll (world, before) = (events, (polled, before ++ [.poll events])) := by
  unfold recorded
  simp only [handed]

theorem Host.recorded_readClock {host : Host Time World} {world left : World}
    {shown : Option Time} (read : host.readClock world = (shown, left))
    (before : List (Contact Time)) :
    host.recorded.readClock (world, before) = (shown, (left, before ++ [.reading shown])) := by
  unfold recorded
  simp only [read]

theorem Host.recorded_performAll (host : Host Time World) (effects : List (Effect Time))
    (world : World) (before : List (Contact Time)) :
    host.recorded.performAll effects (world, before) =
      (host.performAll effects world, before ++ effects.map .effect) := by
  induction effects generalizing world before with
  | nil => exact congrArg (Prod.mk _) (List.append_nil before).symm
  | cons effect rest ih =>
      change host.recorded.performAll rest (host.perform effect world, before ++ [.effect effect]) =
        (host.performAll rest (host.perform effect world), _)
      rw [ih, List.append_assoc]
      rfl

/-! ### What requests ask for -/

/-- Whether an effect only tells of the machine: it neither sets the tone nor sleeps. -/
def Effect.Tells : Effect Time → Prop
  | .log _ | .render _ => True
  | .tone _ | .sleep _ => False

theorem Effect.tells_log (records : List Record) :
    ∀ effect ∈ records.map (.log : Record → Effect Time), effect.Tells :=
  List.forall_mem_map.mpr fun _ _ => trivial

/-- What only picks tones and sleeps finds nothing among effects that only tell. -/
theorem Effect.filterMap_of_tell {Picked : Type} {pick : Effect Time → Option Picked}
    (log : ∀ record, pick (.log record) = none) (render : ∀ frame, pick (.render frame) = none)
    {effects : List (Effect Time)} (tell : ∀ effect ∈ effects, effect.Tells) :
    effects.filterMap pick = [] := by
  refine List.filterMap_eq_nil_iff.mpr fun effect member => ?_
  have tells := tell effect member
  cases effect with
  | log record => exact log record
  | render frame => exact render frame
  | tone active | sleep duration => cases tells

theorem Core.executionEffects_tell {Answer : Type} (core : Core) (word : Int)
    (attempt : Attempt Core Answer) :
    ∀ effect ∈ (core.executionEffects word attempt : List (Effect Time)), effect.Tells := by
  unfold executionEffects
  refine List.forall_mem_append.mpr ⟨Effect.tells_log _, ?_⟩
  split
  · split
    · exact List.forall_mem_singleton.mpr trivial
    · exact List.forall_mem_nil _
  · exact List.forall_mem_nil _
  · exact Effect.tells_log _

theorem Core.stepEffects_tell (core : Core) (traced : Bool) (attempt : Attempt Core Bool) :
    ∀ effect ∈ (core.stepEffects traced attempt : List (Effect Time)), effect.Tells := by
  unfold stepEffects
  split
  · exact Effect.tells_log _
  · split
    · exact List.forall_mem_nil _
    · exact List.forall_mem_append.mpr ⟨Effect.tells_log _, core.executionEffects_tell _ attempt⟩

namespace Machine

theorem handle_effects (machine : Machine Time) (event : Event) :
    ∃ records : List Record, (machine.handle event).effects = records.map .log := by
  cases event with
  | key number pressed =>
      rw [handle]
      split <;> exact ⟨[], rfl⟩
  | quit => exact ⟨[_], rfl⟩
  | resume =>
      rw [handle]
      split
      · exact ⟨[_], rfl⟩
      · exact ⟨[], rfl⟩
  | _ => exact ⟨[], rfl⟩

theorem receive_effects (machine : Machine Time) (events : List Event) :
    ∃ records : List Record, (machine.receive events).effects = records.map .log := by
  induction events generalizing machine with
  | nil => exact ⟨[], rfl⟩
  | cons event rest ih =>
      obtain ⟨first, told⟩ := machine.handle_effects event
      rw [receive]
      cases heard : (machine.handle event).attempt with
      | error fault left => exact ⟨first, told⟩
      | ok answer next =>
          obtain ⟨others, toldLater⟩ := ih next
          refine ⟨first ++ others, ?_⟩
          rw [List.map_append, ← told, ← toldLater]

theorem ready_effects (machine : Machine Time) :
    ∃ records : List Record, machine.ready.effects = records.map .log := by
  refine ⟨if machine.atBreakpoint then machine.breakpointRecords else [], ?_⟩
  unfold ready
  cases machine.atBreakpoint
  all_goals
    dsimp only
    split
    · rfl
    · split <;> rfl

theorem slot_effects_tell (machine : Machine Time) :
    ∀ effect ∈ machine.slot.effects, effect.Tells := by
  obtain ⟨records, told⟩ := machine.ready_effects
  have checked : ∀ effect ∈ machine.ready.effects, effect.Tells := by
    rw [told]
    exact Effect.tells_log records
  unfold slot
  rcases machine.ready_cases with ⟨arrived, answer⟩ | ⟨arrived, answer⟩
  · have taken : ∀ effect ∈ machine.ready.effects ++ arrived.step.effects, effect.Tells :=
      List.forall_mem_append.mpr ⟨checked, arrived.core.stepEffects_tell _ _⟩
    simp only [answer]
    cases arrived.step.attempt with
    | ok anything after => cases anything <;> exact taken
    | error fault after => exact taken
  · simp only [answer]
    exact checked

/-! ### What a pass can do -/

variable [Scalar Time]

/-- The outcome of a pass, whatever world it is left in. -/
def Passed.within (world : World) : Passed Time Unit → Passed Time World
  | .again running => .again ⟨running.machine, running.due, world⟩
  | .over ending machine _ => .over ending machine world

/-- A machine that nothing holds back naps when it gets nowhere. -/
def idleEffects (machine : Machine Time) : List (Effect Time) :=
  if Scalar.isZero machine.interval then [.sleep idleDelay] else []

/-- What a pass can make of a reading of the clock, with its moments and effects. -/
inductive Lap (machine : Machine Time) (due now : Time) :
    List (Moment Time) → List (Effect Time) → Passed Time Unit → Prop
  | lapse {fault : Fault} :
      machine.catchUp now = .error fault →
        Lap machine due now [⟨machine, .update now⟩] [] (.over (.failed fault) machine ())
  | rest {caught : Machine Time} :
      machine.catchUp now = .ok caught → Scalar.less now due = true →
        Lap machine due now [⟨machine, .update now⟩]
          [.tone caught.core.registers.toneActive, .sleep (due - now)] (.again ⟨caught, due, ()⟩)
  | fail {caught after : Machine Time} {fault : Fault} :
      machine.catchUp now = .ok caught → Scalar.less now due = false →
        caught.slot.attempt = .error fault after →
          Lap machine due now (⟨machine, .update now⟩ :: caught.slotMoments)
            (.tone caught.core.registers.toneActive :: caught.slot.effects)
            (.over (.failed fault) after ())
  | advance {caught after : Machine Time} :
      machine.catchUp now = .ok caught → Scalar.less now due = false →
        caught.slot.attempt = .ok true after →
          Lap machine due now (⟨machine, .update now⟩ :: caught.slotMoments)
            (.tone caught.core.registers.toneActive :: caught.slot.effects)
            (.again ⟨after, caught.nextDue due now, ()⟩)
  | stall {caught after : Machine Time} :
      machine.catchUp now = .ok caught → Scalar.less now due = false →
        caught.slot.attempt = .ok false after →
          Lap machine due now (⟨machine, .update now⟩ :: caught.slotMoments)
            (.tone caught.core.registers.toneActive :: (caught.slot.effects ++ after.idleEffects))
            (.again ⟨after, caught.nextDue due now, ()⟩)

theorem lap_exists (machine : Machine Time) (due now : Time) :
    ∃ moments effects passed, Lap machine due now moments effects passed := by
  cases caughtUp : machine.catchUp now with
  | error fault => exact ⟨_, _, _, .lapse caughtUp⟩
  | ok caught =>
      cases early : Scalar.less now due with
      | true => exact ⟨_, _, _, .rest caughtUp early⟩
      | false =>
          cases spent : caught.slot.attempt with
          | error fault after => exact ⟨_, _, _, .fail caughtUp early spent⟩
          | ok anything after =>
              cases anything with
              | true => exact ⟨_, _, _, .advance caughtUp early spent⟩
              | false => exact ⟨_, _, _, .stall caughtUp early spent⟩

theorem Lap.sound {machine : Machine Time} {due now : Time} {moments : List (Moment Time)}
    {effects : List (Effect Time)} {passed : Passed Time Unit}
    (lap : Lap machine due now moments effects passed) (host : Host Time World) (world : World) :
    passAt host ⟨machine, due, world⟩ now = passed.within (host.performAll effects world) ∧
      machine.readingMoments due now = moments := by
  unfold passAt readingMoments
  cases lap with
  | lapse caughtUp =>
      simp only [caughtUp]
      exact ⟨rfl, trivial⟩
  | rest caughtUp early =>
      simp only [caughtUp, early, ↓reduceIte]
      exact ⟨rfl, trivial⟩
  | fail caughtUp isDue spent | advance caughtUp isDue spent =>
      simp only [caughtUp, isDue, Bool.false_eq_true, ↓reduceIte, spendSlot, spent]
      exact ⟨rfl, trivial⟩
  | @stall caught after caughtUp isDue spent =>
      -- The nap is an effect like the others here, while the pass asks whether to take one.
      simp only [caughtUp, isDue, Bool.false_eq_true, ↓reduceIte, spendSlot, spent]
      refine ⟨congrArg Passed.again (congrArg (Running.mk _ _) ?_), trivial⟩
      unfold idleEffects Host.performAll
      rw [List.foldl_cons, List.foldl_append]
      split <;> rfl

theorem Lap.trail {machine : Machine Time} {due now : Time} {moments : List (Moment Time)}
    {effects : List (Effect Time)} {passed : Passed Time Unit}
    (lap : Lap machine due now moments effects passed) : Trail machine moments passed.machine := by
  -- The moments are those of a pass on any host.
  let idle : Host Time Unit := ⟨fun _ => ([], ()), fun _ => (none, ()), fun _ _ => ()⟩
  obtain ⟨passes, same⟩ := lap.sound idle ()
  have trail := passAt_trail idle ⟨machine, due, ()⟩ now
  rw [passes, same] at trail
  cases passed <;> exact trail

/-- What a pass can do: stop at once, end with what it was handed, or go on from a reading of the
clock. -/
inductive Course (host : Host Time World) (limit : Option Int) (running : Running Time World) :
    List (Moment Time) → List (Contact Time) → Passed Time World → Prop
  | stop :
      (running.machine.halted || running.machine.limitReached limit) = true →
        Course host limit running [] [] (.over .finished running.machine running.world)
  | refuse {events : List Event} {polled : World} {fault : Fault} {after : Machine Time} :
      (running.machine.halted || running.machine.limitReached limit) = false →
        host.poll running.world = (events, polled) →
          (running.machine.receive events).attempt = .error fault after →
            Course host limit running
              (⟨running.machine, .poll events⟩ :: running.machine.hearings events)
              (.poll events :: (running.machine.receive events).effects.map .effect)
              (.over (.failed fault) after
                (host.performAll (running.machine.receive events).effects polled))
  | halt {events : List Event} {polled : World} {after : Machine Time} :
      (running.machine.halted || running.machine.limitReached limit) = false →
        host.poll running.world = (events, polled) →
          (running.machine.receive events).attempt = .ok () after → after.halted = true →
            Course host limit running
              (⟨running.machine, .poll events⟩ :: running.machine.hearings events)
              (.poll events :: (running.machine.receive events).effects.map .effect)
              (.over .finished after
                (host.performAll (running.machine.receive events).effects polled))
  | interrupt {events : List Event} {polled left : World} {after : Machine Time} :
      (running.machine.halted || running.machine.limitReached limit) = false →
        host.poll running.world = (events, polled) →
          (running.machine.receive events).attempt = .ok () after → after.halted = false →
            host.readClock (host.performAll (running.machine.receive events).effects polled) =
                (none, left) →
              Course host limit running
                (⟨running.machine, .poll events⟩ :: running.machine.hearings events)
                (.poll events :: ((running.machine.receive events).effects.map .effect ++
                  [.reading none]))
                (.over .interrupted after left)
  | goOn {events : List Event} {polled left : World} {after : Machine Time} {now : Time}
      {moments : List (Moment Time)} {effects : List (Effect Time)} {passed : Passed Time Unit} :
      (running.machine.halted || running.machine.limitReached limit) = false →
        host.poll running.world = (events, polled) →
          (running.machine.receive events).attempt = .ok () after → after.halted = false →
            host.readClock (host.performAll (running.machine.receive events).effects polled) =
                (some now, left) →
              Lap after running.due now moments effects passed →
                Course host limit running
                  (⟨running.machine, .poll events⟩ :: (running.machine.hearings events ++ moments))
                  (.poll events :: ((running.machine.receive events).effects.map .effect ++
                    .reading (some now) :: effects.map .effect))
                  (passed.within (host.performAll effects left))

theorem course_exists (host : Host Time World) (limit : Option Int)
    (running : Running Time World) :
    ∃ moments contacts passed, Course host limit running moments contacts passed := by
  cases stops : running.machine.halted || running.machine.limitReached limit with
  | true => exact ⟨_, _, _, .stop stops⟩
  | false =>
      obtain ⟨events, polled⟩ : ∃ events polled, host.poll running.world = (events, polled) :=
        ⟨_, _, rfl⟩
      obtain ⟨polled, handed⟩ := polled
      cases heard : (running.machine.receive events).attempt with
      | error fault after => exact ⟨_, _, _, .refuse stops handed heard⟩
      | ok answer after =>
          cases halted : after.halted with
          | true => exact ⟨_, _, _, .halt stops handed heard halted⟩
          | false =>
              cases read : host.readClock
                  (host.performAll (running.machine.receive events).effects polled) with
              | mk shown left =>
                  cases shown with
                  | none => exact ⟨_, _, _, .interrupt stops handed heard halted read⟩
                  | some now =>
                      obtain ⟨_, _, _, lap⟩ := lap_exists after running.due now
                      exact ⟨_, _, _, .goOn stops handed heard halted read lap⟩

theorem Course.sound {host : Host Time World} {limit : Option Int} {running : Running Time World}
    {moments : List (Moment Time)} {contacts : List (Contact Time)} {passed : Passed Time World}
    (course : Course host limit running moments contacts passed) :
    pass host limit running = passed ∧ passMoments host limit running = moments := by
  unfold pass passMoments
  cases course with
  | stop stops =>
      simp only [stops, ↓reduceIte]
      exact ⟨trivial, trivial⟩
  | refuse goes handed heard =>
      simp only [goes, Bool.false_eq_true, ↓reduceIte, handed, heard, List.append_nil]
      exact ⟨trivial, trivial⟩
  | halt goes handed heard halted =>
      simp only [goes, Bool.false_eq_true, ↓reduceIte, handed, heard, halted, List.append_nil]
      exact ⟨trivial, trivial⟩
  | interrupt goes handed heard halted read =>
      simp only [goes, Bool.false_eq_true, ↓reduceIte, handed, heard, halted, read, List.append_nil]
      exact ⟨trivial, trivial⟩
  | goOn goes handed heard halted read lap =>
      obtain ⟨passes, same⟩ := lap.sound host _
      simp only [goes, Bool.false_eq_true, ↓reduceIte, handed, heard, halted, read, same]
      exact ⟨passes, trivial⟩

/-- A poll without events, at a time that has come to the next slot, leads to a step. -/
theorem pass_of_step {host : Host Time World} {limit : Option Int} {running : Running Time World}
    {polled left : World} {now : Time} {caught arrived : Machine Time} {after : Core}
    (goes : (running.machine.halted || running.machine.limitReached limit) = false)
    (silent : host.poll running.world = ([], polled))
    (read : host.readClock polled = (some now, left))
    (caughtUp : running.machine.catchUp now = .ok caught)
    (isDue : Scalar.less now running.due = false)
    (allowed : caught.ready.attempt = .ok true arrived)
    (taken : arrived.core.step = .ok true after) :
    pass host limit running =
      .again ⟨(arrived.withCore after).forgetResumed, caught.nextDue running.due now,
        host.performAll (.tone caught.core.registers.toneActive :: caught.slot.effects) left⟩ :=
  (Course.goOn goes silent rfl (Bool.or_eq_false_iff.mp goes).1 read
    (.advance caughtUp isDue (slot_of_step allowed taken))).sound.1

theorem Course.trail {host : Host Time World} {limit : Option Int} {running : Running Time World}
    {moments : List (Moment Time)} {contacts : List (Contact Time)} {passed : Passed Time World}
    (course : Course host limit running moments contacts passed) :
    Trail running.machine moments passed.machine := by
  have trail := pass_trail host limit running
  rw [course.sound.1, course.sound.2] at trail
  exact trail

/-! ### A recorded run -/

def Running.recorded (running : Running Time World) (contacts : List (Contact Time)) :
    Running Time (World × List (Contact Time)) :=
  ⟨running.machine, running.due, (running.world, contacts)⟩

def Passed.recorded (passed : Passed Time World) (contacts : List (Contact Time)) :
    Passed Time (World × List (Contact Time)) :=
  match passed with
  | .again running => .again (running.recorded contacts)
  | .over ending machine world => .over ending machine (world, contacts)

def Finished.recorded (finished : Finished Time World) (contacts : List (Contact Time)) :
    Finished Time (World × List (Contact Time)) :=
  ⟨finished.ending, finished.machine, (finished.world, contacts)⟩

/-- A host that writes its contacts down goes through the same pass. -/
theorem Course.recorded {host : Host Time World} {limit : Option Int}
    {running : Running Time World} {moments : List (Moment Time)}
    {contacts : List (Contact Time)} {passed : Passed Time World}
    (course : Course host limit running moments contacts passed)
    (before : List (Contact Time)) :
    Course host.recorded limit (running.recorded before) moments contacts
      (passed.recorded (before ++ contacts)) := by
  cases course with
  | stop stops =>
      rw [List.append_nil]
      exact .stop stops
  | refuse goes handed heard =>
      have recorded : Course host.recorded limit (running.recorded before) _ _ _ := .refuse goes
        (Host.recorded_poll handed before) heard
      rw [Host.recorded_performAll, List.append_assoc] at recorded
      exact recorded
  | halt goes handed heard halted =>
      have recorded : Course host.recorded limit (running.recorded before) _ _ _ := .halt goes
        (Host.recorded_poll handed before) heard halted
      rw [Host.recorded_performAll, List.append_assoc] at recorded
      exact recorded
  | interrupt goes handed heard halted read =>
      have recorded : Course host.recorded limit (running.recorded before) _ _ _ := .interrupt goes
        (Host.recorded_poll handed before) heard halted
        ((congrArg _ (Host.recorded_performAll ..)).trans (Host.recorded_readClock read _))
      rw [List.append_assoc, List.append_assoc] at recorded
      exact recorded
  | @goOn _ _ _ _ _ _ _ passed goes handed heard halted read lap =>
      have recorded : Course host.recorded limit (running.recorded before) _ _ _ := .goOn goes
        (Host.recorded_poll handed before) heard halted
        ((congrArg _ (Host.recorded_performAll ..)).trans (Host.recorded_readClock read _)) lap
      rw [Host.recorded_performAll, List.append_assoc, List.append_assoc, List.append_assoc]
        at recorded
      cases passed <;> exact recorded

/-- The contacts of a whole run, pass by pass, with its moments and what it leaves. -/
inductive Journey (host : Host Time World) (limit : Option Int) :
    Nat → Running Time World → List (Moment Time) → List (Contact Time) →
      Finished Time World → Prop
  | unfinished (running : Running Time World) :
      Journey host limit 0 running [] [] ⟨.unfinished, running.machine, running.world⟩
  | again {passes : Nat} {running next : Running Time World} {moments later : List (Moment Time)}
      {contacts others : List (Contact Time)} {finished : Finished Time World} :
      Course host limit running moments contacts (.again next) →
        Journey host limit passes next later others finished →
          Journey host limit (passes + 1) running (moments ++ later) (contacts ++ others) finished
  | close {running : Running Time World} {moments : List (Moment Time)}
      {contacts : List (Contact Time)} {ending : Ending} {machine : Machine Time} {world : World}
      (passes : Nat) :
      Course host limit running moments contacts (.over ending machine world) →
        Journey host limit (passes + 1) running moments
          (contacts ++ (.tone false :: machine.endingEffects ending).map .effect)
          (settle host ending machine world)

theorem journey_exists (host : Host Time World) (limit : Option Int) (passes : Nat)
    (running : Running Time World) :
    ∃ moments contacts finished, Journey host limit passes running moments contacts finished := by
  induction passes generalizing running with
  | zero => exact ⟨_, _, _, .unfinished running⟩
  | succ passes ih =>
      obtain ⟨moments, contacts, passed, course⟩ := course_exists host limit running
      rcases passed with next | ⟨ending, machine, world⟩
      · obtain ⟨_, _, _, journey⟩ := ih next
        exact ⟨_, _, _, .again course journey⟩
      · exact ⟨_, _, _, .close passes course⟩

section Journey

variable {host : Host Time World} {limit : Option Int} {passes : Nat}
  {running : Running Time World} {moments : List (Moment Time)} {contacts : List (Contact Time)}
  {finished : Finished Time World}

theorem Journey.sound (journey : Journey host limit passes running moments contacts finished) :
    runFrom host limit passes running = finished ∧
      momentsFrom host limit passes running = moments := by
  induction journey with
  | unfinished running => exact ⟨rfl, rfl⟩
  | again course _ ih =>
      obtain ⟨passes, same⟩ := course.sound
      unfold runFrom momentsFrom
      rw [passes, same]
      exact ⟨ih.1, congrArg _ ih.2⟩
  | close _ course =>
      obtain ⟨passes, same⟩ := course.sound
      unfold runFrom momentsFrom
      rw [passes, same]
      exact ⟨rfl, List.append_nil _⟩

theorem Journey.recorded (journey : Journey host limit passes running moments contacts finished)
    (before : List (Contact Time)) :
    Journey host.recorded limit passes (running.recorded before) moments contacts
      (finished.recorded (before ++ contacts)) := by
  induction journey generalizing before with
  | unfinished running =>
      rw [List.append_nil]
      exact .unfinished _
  | again course _ ih =>
      rw [← List.append_assoc]
      exact .again (course.recorded before) (ih _)
  | close passes course =>
      have settled := Journey.close passes (course.recorded before)
      unfold settle at settled
      rw [Host.recorded_performAll, List.append_assoc] at settled
      exact settled

end Journey

/-! ### All contacts of a run -/

/-- The contacts of a run with its host, in order. -/
def contacts (host : Host Time World) (limit : Option Int) (passes : Nat) (machine : Machine Time)
    (world : World) : List (Contact Time) :=
  (machine.run host.recorded limit passes (world, [])).world.2

/-- The contacts by which a run begins. -/
def launchContacts (machine : Machine Time) (shown : Option Time) : List (Contact Time) :=
  [.effect (.log (.info "Emulation starting")), .effect (.render machine.core.frame),
    .reading shown]

omit [Scalar Time] in
theorem launch_recorded {host : Host Time World} {machine : Machine Time} {world left : World}
    {shown : Option Time} (launched : launch host machine world = (shown, left)) :
    launch host.recorded machine (world, []) = (shown, (left, machine.launchContacts shown)) := by
  unfold launch at launched ⊢
  rw [Host.recorded_performAll]
  exact Host.recorded_readClock launched _

/-- A journey from the first reading of the clock is the whole run. -/
theorem Journey.from_launch {host : Host Time World} {limit : Option Int} {passes : Nat}
    {machine : Machine Time} {world left : World} {start : Time} {moments : List (Moment Time)}
    {later : List (Contact Time)} {finished : Finished Time World}
    (journey : Journey host limit passes ⟨machine, start, left⟩ moments later finished)
    (launched : launch host machine world = (some start, left)) :
    machine.run host limit passes world = finished ∧
      machine.history host limit passes world = moments ∧
      machine.contacts host limit passes world = machine.launchContacts (some start) ++ later := by
  have noted := (journey.recorded (machine.launchContacts (some start))).sound.1
  unfold contacts run history
  rw [launch_recorded launched, launched]
  exact ⟨journey.sound.1, journey.sound.2, congrArg (fun finished => finished.world.2) noted⟩

/-- A run is over with its first reading of the clock, or it is a journey from there. -/
theorem run_cases (host : Host Time World) (limit : Option Int) (passes : Nat)
    (machine : Machine Time) (world : World) :
    (∃ left, launch host machine world = (none, left) ∧
        machine.run host limit passes world = ⟨.interrupted, machine, left⟩ ∧
        machine.history host limit passes world = [] ∧
        machine.contacts host limit passes world = machine.launchContacts none) ∨
      ∃ start left later, launch host machine world = (some start, left) ∧
        Journey host limit passes ⟨machine, start, left⟩
          (machine.history host limit passes world) later
          (machine.run host limit passes world) ∧
        machine.contacts host limit passes world =
          machine.launchContacts (some start) ++ later := by
  cases launched : launch host machine world with
  | mk shown left =>
      cases shown with
      | none =>
          unfold contacts run history
          rw [launch_recorded launched, launched]
          exact Or.inl ⟨left, rfl, rfl, rfl, rfl⟩
      | some start =>
          obtain ⟨moments, later, finished, journey⟩ :=
            journey_exists host limit passes ⟨machine, start, left⟩
          obtain ⟨ran, went, noted⟩ := journey.from_launch launched
          rw [ran, went]
          exact Or.inr ⟨start, left, later, rfl, journey, noted⟩

/-- Recording its contacts makes no difference to a run. -/
theorem run_recorded (host : Host Time World) (limit : Option Int) (passes : Nat)
    (machine : Machine Time) (world : World) :
    machine.run host.recorded limit passes (world, []) =
      (machine.run host limit passes world).recorded
        (machine.contacts host limit passes world) := by
  rcases run_cases host limit passes machine world with
    ⟨left, launched, ran, -, noted⟩ | ⟨start, left, later, launched, journey, noted⟩
  · rw [ran, noted, run, launch_recorded launched]
    rfl
  · rw [noted, run, launch_recorded launched]
    exact (journey.recorded (machine.launchContacts (some start))).sound.1

end Machine

end Chip8
