import Chip8.Proofs.Machine.Contact
import Chip8.Proofs.Machine.Reachable
import Chip8.Proofs.Scalar.Exact
import Chip8.Proofs.Timers.Exact

/-!
The pace of a run on exact time.

A slot is a check that a run makes at some reading of the clock. The next one is due an
interval later, or a tenth of a second before that reading if this is later still. From this
recurrence alone it follows that slots never come too early, and that no stall of the host
makes more of them come close together than a tenth of a second has room for. A host sees
which checks were made: behind each of these readings it is told of the tone, and not put to
sleep.
-/

namespace Chip8

/-! ### Slots -/

section Slots

variable {Time World : Type}

/-- The times at which slots were spent: those that the timers were brought up to right before
a check. -/
def slotTimes : List (Moment Time) → List Time
  | ⟨_, .update now⟩ :: ⟨_, .check⟩ :: rest => now :: slotTimes rest
  | _ :: rest => slotTimes rest
  | [] => []

/-- Whether a moment spends a slot: the machine is asked whether an instruction may run. -/
def Moment.isCheck (moment : Moment Time) : Bool :=
  match moment.action with
  | .check => true
  | _ => false

theorem slotTimes_cons {moment : Moment Time} {rest : List (Moment Time)}
    (other : ∀ now, moment.action ≠ .update now) :
    slotTimes (moment :: rest) = slotTimes rest := by
  obtain ⟨machine, action⟩ := moment
  cases action with
  | update now => exact absurd rfl (other now)
  | _ => rfl

/-- Moments whose first is no check go on with slots of their own. -/
theorem slotTimes_append (first : List (Moment Time)) {rest : List (Moment Time)}
    (fresh : ∀ moment ∈ rest.head?, moment.action ≠ .check) :
    slotTimes (first ++ rest) = slotTimes first ++ slotTimes rest := by
  induction first using slotTimes.induct with
  | case1 machine now checked later ih => exact congrArg (now :: ·) ih
  | case2 moment later other ih =>
      have apart : slotTimes (moment :: (later ++ rest)) = slotTimes (later ++ rest) := by
        refine slotTimes.eq_2 _ _ ?_
        intro machine now checked behind isUpdate isCheck
        cases later with
        | nil =>
            rw [List.nil_append] at isCheck
            exact fresh ⟨checked, .check⟩ (by rw [isCheck]; rfl) rfl
        | cons next after =>
            cases isCheck
            exact other machine now checked after isUpdate rfl
      rw [List.cons_append, apart, ih, slotTimes.eq_2 _ _ other]
  | case3 => rfl

end Slots

variable {Time World : Type} [Scalar Time]

namespace Machine

omit [Scalar Time] in
theorem slotTimes_hearings (machine : Machine Time) (events : List Event)
    (rest : List (Moment Time)) :
    slotTimes (machine.hearings events ++ rest) = slotTimes rest := by
  induction events generalizing machine with
  | nil => rfl
  | cons event later ih =>
      change slotTimes (⟨machine, .hear event⟩ :: (_ ++ rest)) = _
      rw [slotTimes_cons fun now => by simp]
      cases (machine.handle event).attempt with
      | ok answer next => exact ih next
      | error fault left => rfl

omit [Scalar Time] in
theorem slotTimes_slotMoments (machine caught : Machine Time) (now : Time) :
    slotTimes (⟨machine, .update now⟩ :: caught.slotMoments) = [now] := by
  unfold slotMoments
  rcases caught.ready_cases with ⟨arrived, answer⟩ | ⟨arrived, answer⟩
  all_goals rw [answer]; rfl

omit [Scalar Time] in
theorem checks_hearings (machine : Machine Time) (events : List Event)
    (rest : List (Moment Time)) :
    (machine.hearings events ++ rest).countP Moment.isCheck = rest.countP Moment.isCheck := by
  have none : (machine.hearings events).countP Moment.isCheck = 0 := by
    refine List.countP_eq_zero.mpr fun moment member => ?_
    obtain ⟨heard, event, rfl⟩ := machine.hearings_hear events moment member
    exact Bool.false_ne_true
  rw [List.countP_append, none, Nat.zero_add]

theorem slotTimes_readingMoments_length (machine : Machine Time) (due now : Time) :
    (slotTimes (machine.readingMoments due now)).length =
      (machine.readingMoments due now).countP Moment.isCheck := by
  unfold readingMoments
  cases machine.catchUp now with
  | error fault => rfl
  | ok caught =>
      dsimp only
      split
      · rfl
      · rw [slotTimes_slotMoments]
        unfold slotMoments
        rcases caught.ready_cases with ⟨arrived, answer⟩ | ⟨arrived, answer⟩
        all_goals rw [answer]; rfl

theorem slotTimes_passMoments_length (host : Host Time World) (limit : Option Int)
    (running : Running Time World) :
    (slotTimes (passMoments host limit running)).length =
      (passMoments host limit running).countP Moment.isCheck := by
  unfold passMoments
  dsimp only
  split
  · rfl
  · rw [slotTimes_cons fun now => by simp, slotTimes_hearings,
      List.countP_cons_of_neg Bool.false_ne_true, checks_hearings]
    split
    · rfl
    · split
      · rfl
      · split
        · rfl
        · exact slotTimes_readingMoments_length _ _ _

theorem nextDue_eq {first second : Machine Time} (same : first.interval = second.interval)
    (due now : Time) : first.nextDue due now = second.nextDue due now := by
  unfold nextDue
  rw [same]

theorem spendSlot_due {host : Host Time World} {running next : Running Time World}
    (led : spendSlot host running = .again next) : next.due = running.due := by
  unfold spendSlot at led
  dsimp only at led
  split at led
  all_goals cases led
  all_goals rfl

theorem passAt_slots (host : Host Time World) (running : Running Time World) (now : Time) :
    (slotTimes (running.machine.readingMoments running.due now) = [] ∧
        ∀ next, passAt host running now = .again next → next.due = running.due) ∨
      (slotTimes (running.machine.readingMoments running.due now) = [now] ∧
        Scalar.less now running.due = false ∧
        ∀ next, passAt host running now = .again next →
          next.due = running.machine.nextDue running.due now) := by
  unfold readingMoments passAt
  cases caughtUp : running.machine.catchUp now with
  | error fault =>
      refine Or.inl ⟨rfl, ?_⟩
      intro next impossible
      cases impossible
  | ok caught =>
      dsimp only
      cases early : Scalar.less now running.due with
      | true =>
          refine Or.inl ⟨rfl, ?_⟩
          intro next led
          cases led
          rfl
      | false =>
          have same : caught.interval = running.machine.interval := by
            obtain ⟨core, timers, moved⟩ := running.machine.updated_eq now
            unfold updated at moved
            rw [caughtUp] at moved
            change caught = _ at moved
            rw [moved]
          refine Or.inr ⟨slotTimes_slotMoments _ caught now, rfl, ?_⟩
          intro next led
          rw [spendSlot_due led]
          exact nextDue_eq same _ _

/-- A pass spends a slot if the reading it makes has come to the time at which the slot is due;
then another time is set for the next one. Otherwise the time stays. -/
theorem pass_slots (host : Host Time World) (limit : Option Int) (running : Running Time World) :
    (slotTimes (passMoments host limit running) = [] ∧
        ∀ next, pass host limit running = .again next → next.due = running.due) ∨
      ∃ now, slotTimes (passMoments host limit running) = [now] ∧
        Scalar.less now running.due = false ∧
        ∀ next, pass host limit running = .again next →
          next.due = running.machine.nextDue running.due now := by
  unfold passMoments pass
  dsimp only
  split
  · exact Or.inl ⟨rfl, fun next impossible => by cases impossible⟩
  · rw [slotTimes_cons fun now => by simp, slotTimes_hearings]
    generalize (host.poll running.world).1 = events
    have heard := (running.machine.hearings_trail events).setup_eq.1
    cases received : (running.machine.receive events).attempt with
    | error fault after => exact Or.inl ⟨rfl, fun next impossible => by cases impossible⟩
    | ok answer after =>
        rw [Response.state_of_ok received] at heard
        dsimp only
        split
        · exact Or.inl ⟨rfl, fun next impossible => by cases impossible⟩
        · generalize host.readClock _ = reading
          obtain ⟨now | now, left⟩ := reading
          · exact Or.inl ⟨rfl, fun next impossible => by cases impossible⟩
          · rcases passAt_slots host ⟨after, running.due, left⟩ now with
              ⟨idle, stays⟩ | ⟨spent, isDue, moved⟩
            · exact Or.inl ⟨idle, stays⟩
            · refine Or.inr ⟨now, spent, isDue, ?_⟩
              intro next led
              rw [moved next led]
              exact nextDue_eq heard _ _

/-- A pass begins with a poll, if it does anything. -/
theorem momentsFrom_head (host : Host Time World) (limit : Option Int) (passes : ℕ)
    (running : Running Time World) :
    ∀ moment ∈ (momentsFrom host limit passes running).head?, moment.action ≠ .check := by
  intro moment member
  cases passes with
  | zero => cases member
  | succ passes =>
      unfold momentsFrom passMoments pass at member
      dsimp only at member
      split at member
      · cases member
      · cases member
        simp

/-- Every slot that a run spends has its time. -/
theorem slotTimes_momentsFrom_length (host : Host Time World) (limit : Option Int) (passes : ℕ)
    (running : Running Time World) :
    (slotTimes (momentsFrom host limit passes running)).length =
      (momentsFrom host limit passes running).countP Moment.isCheck := by
  induction passes generalizing running with
  | zero => rfl
  | succ passes ih =>
      have first := slotTimes_passMoments_length host limit running
      unfold momentsFrom
      rcases pass host limit running with next | ⟨ending, machine, world⟩
      · dsimp only
        rw [slotTimes_append _ (momentsFrom_head host limit passes next), List.length_append,
          List.countP_append, first, ih]
      · dsimp only
        rw [List.append_nil]
        exact first

theorem slotTimes_history_length (host : Host Time World) (limit : Option Int) (passes : ℕ)
    (machine : Machine Time) (world : World) :
    (slotTimes (machine.history host limit passes world)).length =
      (machine.history host limit passes world).countP Moment.isCheck := by
  unfold history
  split
  · rfl
  · exact slotTimes_momentsFrom_length host limit passes _

end Machine

/-- The pace of a machine and the length of its ticks are those it was started with. -/
theorem Reachable.intervals_eq {settings : Settings} {program : List UInt8}
    {machine : Machine Time} (reachable : Reachable settings program machine) :
    Machine.intervalOf settings.speed = .ok machine.interval ∧
      Timers.ofRate (Scalar.ofInt Layout.timerRate) = .ok ⟨machine.timers.interval, none⟩ := by
  induction reachable with
  | boot started =>
      obtain ⟨timers, interval, memory, ticking, paced, _, rfl⟩ :=
        Machine.boot_eq_ok_iff.mp started
      refine ⟨paced, ?_⟩
      unfold Timers.ofRate at ticking ⊢
      obtain ⟨interval, quotient, made⟩ := of_bind_ok ticking
      rw [quotient]
      cases made
      rfl
  | @step machine _ ih =>
      have stepped : machine.step.state = machine.withCore _ := machine.act_state .step
      rw [stepped]
      exact ih
  | @receive machine events _ ih =>
      obtain ⟨pace, _, _, ticks⟩ := (machine.hearings_trail events).setup_eq
      rw [pace, ticks]
      exact ih
  | @ready machine _ ih =>
      obtain ⟨_, _, _, same⟩ := machine.ready_eq
      rw [same]
      exact ih
  | tick _ ih => exact ih
  | @update machine now _ ih =>
      obtain ⟨_, _, same⟩ := machine.updated_eq now
      rw [machine.updated_ticking now, same]
      exact ih
  | @run machine _ host limit passes world _ ih =>
      obtain ⟨pace, _, _, ticks⟩ := (Machine.run_trail host limit passes machine world).setup_eq
      rw [pace, ticks]
      exact ih

/-! ### The recurrence -/

/-- Times of slots that come one after another, the first of them due at a given time. -/
def Paced (interval due : ℚ) : List ℚ → Prop
  | [] => True
  | now :: later => due ≤ now ∧ Paced interval (max (due + interval) (now - 1 / 10)) later

namespace Paced

variable {interval due : ℚ} {times : List ℚ}

theorem no_earlier (paced : Paced interval due times) {k : ℕ} {time : ℚ}
    (found : times[k]? = some time) : due + k * interval ≤ time := by
  induction times generalizing due k with
  | nil => cases found
  | cons now later ih =>
      obtain ⟨isDue, others⟩ := paced
      cases k with
      | zero =>
          cases found
          rw [Nat.cast_zero, zero_mul, add_zero]
          exact isDue
      | succ k =>
          have behind := ih others found
          have further : due + interval ≤ max (due + interval) (now - 1 / 10) := le_max_left _ _
          push_cast
          linarith

/-- However late a slot is, only a tenth of a second is made up for behind it. -/
theorem no_closer (paced : Paced interval due times) {i n : ℕ} {first last : ℚ}
    (atFirst : times[i]? = some first) (atLast : times[i + n + 1]? = some last) :
    first - 1 / 10 + n * interval ≤ last := by
  induction times generalizing due i with
  | nil => cases atFirst
  | cons now later ih =>
      obtain ⟨_, others⟩ := paced
      cases i with
      | zero =>
          cases atFirst
          rw [Nat.zero_add] at atLast
          have behind := others.no_earlier atLast
          have caughtUp : first - 1 / 10 ≤ max (due + interval) (first - 1 / 10) :=
            le_max_right _ _
          linarith
      | succ i =>
          rw [Nat.add_right_comm i 1 n] at atLast
          exact ih others atFirst atLast

end Paced

namespace Machine

theorem nextDue_exact (machine : Machine ℚ) (due now : ℚ) :
    machine.nextDue due now = max (due + machine.interval) (now - 1 / 10) := by
  have lag : (maxLag : ℚ) = 1 / 10 := by norm_num [maxLag, Scalar.ratio, Scalar.ofInt]
  unfold nextDue
  rw [Exact.later_eq, lag]

theorem momentsFrom_paced (host : Host ℚ World) (limit : Option Int) (passes : ℕ)
    (running : Running ℚ World) :
    Paced running.machine.interval running.due
      (slotTimes (momentsFrom host limit passes running)) := by
  induction passes generalizing running with
  | zero => exact trivial
  | succ passes ih =>
      have keeps := (pass_trail host limit running).setup_eq.1
      have slots := pass_slots host limit running
      unfold momentsFrom
      rcases led : pass host limit running with next | ⟨ending, machine, world⟩
      · dsimp only
        rw [led] at keeps
        have further := ih next
        rw [slotTimes_append _ (momentsFrom_head host limit passes next)]
        change next.machine.interval = _ at keeps
        rw [keeps] at further
        rcases slots with ⟨idle, stays⟩ | ⟨now, spent, isDue, moved⟩
        · rw [stays next led] at further
          rw [idle]
          exact further
        · rw [moved next led, nextDue_exact] at further
          rw [spent]
          exact ⟨(Exact.less_eq_false_iff _ _).mp isDue, further⟩
      · dsimp only
        rw [List.append_nil]
        rcases slots with ⟨idle, _⟩ | ⟨now, spent, isDue, _⟩
        · rw [idle]
          exact trivial
        · rw [spent]
          exact ⟨(Exact.less_eq_false_iff _ _).mp isDue, trivial⟩

end Machine

theorem Machine.history_paced (host : Host ℚ World) (limit : Option Int) (passes : ℕ)
    (machine : Machine ℚ) (world : World) {start : ℚ}
    (entered : (launch host machine world).1 = some start) :
    Paced machine.interval start (slotTimes (machine.history host limit passes world)) := by
  unfold history
  cases launched : launch host machine world with
  | mk reading left =>
      rw [launched] at entered
      change reading = some start at entered
      subst entered
      exact momentsFrom_paced host limit passes ⟨machine, start, left⟩

theorem Machine.intervalOf_exact {speed : ℤ} (positive : 0 < speed) :
    intervalOf speed = .ok (1 / (speed : ℚ)) := by
  have nonzero : (speed : ℚ) ≠ 0 := by exact_mod_cast positive.ne'
  unfold intervalOf
  rw [if_pos positive]
  change Scalar.quotient (1 : ℚ) (speed : ℚ) = _
  exact Exact.quotient_eq 1 nonzero

/-! ### Slots that a host sees -/

section Seen

variable {Time : Type}

def Contact.isSleep : Contact Time → Bool
  | .effect (.sleep _) => true
  | _ => false

/-- The readings behind which a host is told of the tone, and not put to sleep right away. -/
def slotReadings : List (Contact Time) → List Time
  | .reading (some now) :: .effect (.tone _) :: later =>
      if later.head?.any Contact.isSleep then slotReadings later else now :: slotReadings later
  | _ :: later => slotReadings later
  | [] => []

theorem slotReadings_effects (effects : List (Effect Time)) (rest : List (Contact Time)) :
    slotReadings (effects.map .effect ++ rest) = slotReadings rest := by
  induction effects with
  | nil => rfl
  | cons effect later ih => exact ih

/-- A reading is spent if what follows the tone only tells of the machine. -/
theorem slotReadings_spent (now : Time) (active : Bool) {effects : List (Effect Time)}
    (tell : ∀ effect ∈ effects, effect.Tells) {rest : List (Contact Time)}
    (awake : rest.head?.any Contact.isSleep = false) :
    slotReadings (.reading (some now) :: (.tone active :: effects).map .effect ++ rest) =
      now :: slotReadings rest := by
  have stays : (effects.map Contact.effect ++ rest).head?.any Contact.isSleep = false := by
    cases effects with
    | nil => exact awake
    | cons first others =>
        have tells := tell first List.mem_cons_self
        cases first with
        | log record => rfl
        | render frame => rfl
        | tone active | sleep duration => cases tells
  have spent : slotReadings (.reading (some now) :: .effect (.tone active) ::
      (effects.map .effect ++ rest)) = now :: slotReadings (effects.map .effect ++ rest) := by
    rw [slotReadings, stays, if_neg Bool.false_ne_true]
  rw [slotReadings_effects] at spent
  exact spent

end Seen

namespace Machine

/-- A machine whose timers tick and whose speed holds it back. -/
structure Throttled (machine : Machine ℚ) : Prop where
  ticking : machine.timers.interval ≠ 0
  paced : machine.interval ≠ 0

theorem Throttled.along {start stop : Machine ℚ} {moments : List (Moment ℚ)}
    (throttled : start.Throttled) (trail : Trail start moments stop) : stop.Throttled := by
  obtain ⟨pace, _, _, ticks⟩ := trail.setup_eq
  exact ⟨ticks ▸ throttled.ticking, pace ▸ throttled.paced⟩

theorem Throttled.catchUp {machine : Machine ℚ} (throttled : machine.Throttled) (now : ℚ) :
    ∃ caught, machine.catchUp now = .ok caught := by
  obtain ⟨due, next, left, updated⟩ :=
    Timers.update_exact_ok throttled.ticking machine.core.registers now
  unfold Machine.catchUp
  rw [updated]
  exact ⟨_, rfl⟩

theorem Throttled.idleEffects {machine : Machine ℚ} (throttled : machine.Throttled) :
    machine.idleEffects = [] := by
  have slow : Scalar.isZero machine.interval = false := beq_eq_false_iff_ne.mpr throttled.paced
  unfold Machine.idleEffects
  rw [slow]
  rfl

section Seen

variable {machine : Machine ℚ} {moments : List (Moment ℚ)} {contacts rest : List (Contact ℚ)}

/-- What a host sees behind a reading says whether its slot was spent. -/
theorem Lap.seen {due now : ℚ} {effects : List (Effect ℚ)} {passed : Passed ℚ Unit}
    (lap : Lap machine due now moments effects passed) (throttled : machine.Throttled)
    (awake : rest.head?.any Contact.isSleep = false) :
    slotReadings (.reading (some now) :: effects.map .effect ++ rest) =
      slotTimes moments ++ slotReadings rest := by
  have still := throttled.along lap.trail
  cases lap with
  | lapse failed =>
      obtain ⟨caught, caughtUp⟩ := throttled.catchUp now
      rw [caughtUp] at failed
      cases failed
  | rest caughtUp early => rfl
  | @fail caught _ _ _ _ _ | @advance caught _ _ _ _ =>
      rw [slotTimes_slotMoments]
      exact slotReadings_spent now _ caught.slot_effects_tell awake
  | @stall caught after _ _ _ =>
      change after.Throttled at still
      rw [slotTimes_slotMoments, still.idleEffects, List.append_nil]
      exact slotReadings_spent now _ caught.slot_effects_tell awake

theorem Course.seen {World : Type} {host : Host ℚ World} {limit : Option Int}
    {running : Running ℚ World} {passed : Passed ℚ World}
    (course : Course host limit running moments contacts passed)
    (throttled : running.machine.Throttled) (awake : rest.head?.any Contact.isSleep = false) :
    slotReadings (contacts ++ rest) = slotTimes moments ++ slotReadings rest := by
  have polled : ∀ events, slotTimes
      (⟨running.machine, .poll events⟩ :: running.machine.hearings events) = [] := by
    intro events
    have heard := slotTimes_hearings running.machine events []
    rw [List.append_nil] at heard
    rw [slotTimes_cons fun now => by simp, heard]
    rfl
  cases course with
  | stop _ => rfl
  | @refuse events | @halt events =>
      rw [polled]
      exact slotReadings_effects _ rest
  | @interrupt events =>
      rw [polled, List.cons_append, List.append_assoc]
      exact slotReadings_effects _ (.reading none :: rest)
  | @goOn events _ _ after now moments effects _ _ _ heard _ _ lap =>
      have kept : after.Throttled := by
        have trail := running.machine.hearings_trail events
        rw [Response.state_of_ok heard] at trail
        exact throttled.along trail
      rw [slotTimes_cons fun now => by simp, slotTimes_hearings, ← lap.seen kept awake,
        List.cons_append, List.append_assoc]
      exact slotReadings_effects _ _

theorem Course.head_awake {World : Type} {host : Host ℚ World} {limit : Option Int}
    {running : Running ℚ World} {passed : Passed ℚ World}
    (course : Course host limit running moments contacts passed)
    (awake : rest.head?.any Contact.isSleep = false) :
    (contacts ++ rest).head?.any Contact.isSleep = false := by
  cases course with
  | stop _ => exact awake
  | _ => rfl

end Seen

/-- A host sees every slot of a run whose machine is held back by its speed, and no others. -/
theorem Journey.seen {World : Type} {host : Host ℚ World} {limit : Option Int} {passes : ℕ}
    {running : Running ℚ World} {moments : List (Moment ℚ)} {contacts : List (Contact ℚ)}
    {finished : Finished ℚ World}
    (journey : Journey host limit passes running moments contacts finished)
    (throttled : running.machine.Throttled) :
    slotReadings contacts = slotTimes moments ∧
      contacts.head?.any Contact.isSleep = false := by
  induction journey with
  | unfinished running => exact ⟨rfl, rfl⟩
  | @again passes running next _ _ _ _ _ course further ih =>
      obtain ⟨later, awake⟩ := ih (throttled.along course.trail)
      have fresh := further.sound.2 ▸ momentsFrom_head _ _ passes next
      refine ⟨?_, course.head_awake awake⟩
      rw [course.seen throttled awake, later, slotTimes_append _ fresh]
  | @close running moments contacts ending machine world passes course =>
      refine ⟨?_, course.head_awake rfl⟩
      have ended := course.seen throttled
        (show ((.tone false :: machine.endingEffects ending).map Contact.effect).head?.any
          Contact.isSleep = false from rfl)
      have silent := slotReadings_effects (.tone false :: machine.endingEffects ending) []
      rw [List.append_nil] at silent
      rw [ended, silent]
      exact List.append_nil _

end Machine

theorem Reachable.interval_eq {settings : Settings} {program : List UInt8} {machine : Machine ℚ}
    (reachable : Reachable settings program machine) (positive : 0 < settings.speed) :
    machine.interval = 1 / settings.speed := by
  have given := reachable.intervals_eq.1
  rw [Machine.intervalOf_exact positive] at given
  exact (Except.ok.inj given).symm

theorem Reachable.throttled {settings : Settings} {program : List UInt8} {machine : Machine ℚ}
    (reachable : Reachable settings program machine) (positive : 0 < settings.speed) :
    machine.Throttled := by
  constructor
  · have ticking := reachable.intervals_eq.2
    rw [Timers.ofRate_timerRate] at ticking
    rw [← congrArg Timers.interval (Except.ok.inj ticking)]
    norm_num
  · rw [reachable.interval_eq positive]
    exact one_div_ne_zero (by exact_mod_cast positive.ne')

/-- What a host sees of a whole run says which slots were spent. -/
theorem Machine.Throttled.slotReadings_contacts {machine : Machine ℚ}
    (throttled : machine.Throttled) (host : Host ℚ World) (limit : Option Int) (passes : ℕ)
    (world : World) {start : ℚ} (entered : (launch host machine world).1 = some start) :
    ∃ later, machine.contacts host limit passes world =
        machine.launchContacts (some start) ++ later ∧
      slotReadings later = slotTimes (machine.history host limit passes world) := by
  rcases machine.run_cases host limit passes world with
    ⟨left, launched, _⟩ | ⟨first, left, later, launched, journey, noted⟩
  · rw [launched] at entered
    cases entered
  · rw [launched] at entered
    cases entered
    exact ⟨later, noted, (journey.seen throttled).1⟩

/-- A machine that was started with a speed spends its slots at that many to the second. Whatever
times its host shows, every slot of a run has its time. None comes before the intervals behind the
earlier ones have passed since the run was entered; and from one slot to another there are no more
than the time between them and a tenth of a second have room for. These times are the readings that
the host sees spent: behind the first one, those at which it is told of the tone and not put to
sleep. -/
theorem Machine.slots_paced :
    (∀ {settings : Settings} {program : List UInt8} {machine : Machine ℚ},
        Reachable settings program machine → 0 < settings.speed →
          machine.interval = 1 / settings.speed) ∧
      (∀ {World : Type} (host : Host ℚ World) (limit : Option Int) (passes : ℕ)
        (machine : Machine ℚ) (world : World) {speed start : ℚ}, 0 < speed →
        machine.interval = 1 / speed → (launch host machine world).1 = some start →
          let history := machine.history host limit passes world
          (slotTimes history).length = history.countP Moment.isCheck ∧
            (∀ (k : ℕ) (time : ℚ), (slotTimes history)[k]? = some time →
              start + k / speed ≤ time) ∧
            ∀ (i j : ℕ) (first last : ℚ), i ≤ j → (slotTimes history)[i]? = some first →
              (slotTimes history)[j]? = some last →
                ((j - i + 1 : ℕ) : ℚ) ≤ (last - first + 1 / 10) * speed + 2) ∧
      ∀ {settings : Settings} {program : List UInt8} {machine : Machine ℚ},
        Reachable settings program machine → 0 < settings.speed →
          ∀ {World : Type} (host : Host ℚ World) (limit : Option Int) (passes : ℕ) (world : World)
            {start : ℚ}, (launch host machine world).1 = some start →
              ∃ later, machine.contacts host limit passes world =
                  machine.launchContacts (some start) ++ later ∧
                slotReadings later = slotTimes (machine.history host limit passes world) := by
  refine ⟨fun reachable positive => reachable.interval_eq positive, ?_, ?_⟩
  · intro World host limit passes machine world speed start positive pace entered
    have paced := machine.history_paced host limit passes world entered
    rw [pace] at paced
    refine ⟨machine.slotTimes_history_length host limit passes world, ?_, ?_⟩
    · intro k time found
      have late := paced.no_earlier found
      rw [mul_one_div] at late
      exact late
    · intro i j first last order atFirst atLast
      obtain ⟨n, rfl⟩ := Nat.exists_eq_add_of_le order
      rw [Nat.add_sub_cancel_left]
      cases n with
      | zero =>
          cases atFirst.symm.trans atLast
          rw [sub_self]
          push_cast
          linarith
      | succ n =>
          have apart := mul_le_mul_of_nonneg_right (paced.no_closer atFirst atLast) positive.le
          have between : n * (1 / speed) * speed = n := by field_simp
          push_cast
          linarith
  · intro settings program machine reachable positive World host limit passes world start entered
    exact (reachable.throttled positive).slotReadings_contacts host limit passes world entered

/-- A machine that pauses right away goes on spending slots. After a stall of a second three of
them are made up for at once, which is all that there is room for. -/
theorem slots_paced_after_stall :
    ∃ machine : Machine ℚ,
      Machine.boot ⟨10, false, 0, [0x200], false, "pause"⟩ [0x12, 0x00] = .ok machine ∧
        let host : Host ℚ (List ℚ) :=
          ⟨fun times => ([], times), fun times => (times.head?, times.tail), fun _ times => times⟩
        let contacts := machine.contacts host none 5 [0, 0, 1, 1, 1, 1]
        slotTimes (machine.history host none 5 [0, 0, 1, 1, 1, 1]) = [0, 1, 1, 1] ∧
          (∃ later, contacts = machine.launchContacts (some 0) ++ later ∧
            slotReadings later = [0, 1, 1, 1]) ∧
          machine.interval = 1 / (10 : ℤ) ∧ 0 + (1 : ℕ) / 10 ≤ (1 : ℚ) ∧
            ((3 - 1 + 1 : ℕ) : ℚ) ≤ (1 - 1 + 1 / 10) * 10 + 2 := by
  let host : Host ℚ (List ℚ) :=
    ⟨fun times => ([], times), fun times => (times.head?, times.tail), fun _ times => times⟩
  let started : Except Fault (Machine ℚ) :=
    Machine.boot ⟨10, false, 0, [0x200], false, "pause"⟩ [0x12, 0x00]
  obtain ⟨machine, booted⟩ : ∃ machine, started = .ok machine := ⟨_, rfl⟩
  have ran : (started.toOption.map fun machine =>
      slotTimes (machine.history host none 5 [0, 0, 1, 1, 1, 1])) = some [0, 1, 1, 1] := by
    decide +kernel
  rw [booted] at ran
  have slots : slotTimes (machine.history host none 5 [0, 0, 1, 1, 1, 1]) = [0, 1, 1, 1] :=
    Option.some.inj ran
  obtain ⟨atSpeed, bounds, seen⟩ := Machine.slots_paced
  have pace : machine.interval = 1 / (10 : ℤ) := atSpeed (.boot booted) (by decide)
  obtain ⟨_, later, apart⟩ := bounds host none 5 machine [0, 0, 1, 1, 1, 1] (by norm_num) pace rfl
  obtain ⟨contacts, noted, readings⟩ :=
    seen (.boot booted) (by decide) host none 5 [0, 0, 1, 1, 1, 1] rfl
  rw [slots] at later apart readings
  exact ⟨machine, booted, slots, ⟨contacts, noted, readings⟩, pace, later 1 1 rfl,
    apart 1 3 1 1 (by decide) rfl rfl⟩

end Chip8
