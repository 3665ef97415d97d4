import Chip8.FrontEnd

/-!
What a front end does before it is closed.

A run polls a front end, has it render frames and turns its tone on and off. None of this
closes anything, and none of it changes whether there is a sound to be stopped. So the
commands that close the speaker and the window are given by the closing alone, once each, at
the very end. A front end writes down what it is asked to do, so that the closing of a part
shows there even if it takes no command.
-/

namespace Chip8.FrontEnd

def Call.Closes : Call → Prop
  | .close _ => True
  | _ => False

/-- The calls that close a front end: its keyboard, its speaker and its window. -/
def closings : List Call :=
  [.close .input, .close .speaker, .close .renderer]

def use (frontEnd : FrontEnd) : Call → FrontEnd
  | .poll => frontEnd.poll.2
  | .render frame => frontEnd.render frame
  | .setTone active => frontEnd.setTone active
  | .close part => frontEnd.closePart part

def useAll (frontEnd : FrontEnd) (calls : List Call) : FrontEnd :=
  calls.foldl use frontEnd

theorem useAll_concat (frontEnd : FrontEnd) (calls : List Call) (last : Call) :
    frontEnd.useAll (calls ++ [last]) = (frontEnd.useAll calls).use last :=
  List.foldl_append

theorem close_eq (frontEnd : FrontEnd) : frontEnd.close = frontEnd.useAll closings := rfl

/-- A poll changes nothing but the input that is left. -/
theorem poll_eq (frontEnd : FrontEnd) :
    ∃ batches, frontEnd.poll.2 = { frontEnd.note .poll with batches } := by
  unfold poll
  dsimp only
  split <;> exact ⟨_, rfl⟩

/-- A rendering changes nothing but the window. -/
theorem render_eq (frontEnd : FrontEnd) (frame : Frame) :
    ∃ window, frontEnd.render frame =
      { (frontEnd.note (.render frame)).give
          (frontEnd.window.render frame.screen (some frame.registers)).commands with window } := by
  unfold render
  dsimp only
  split <;> exact ⟨_, rfl⟩

theorem calls_use (frontEnd : FrontEnd) (call : Call) :
    (frontEnd.use call).calls = frontEnd.calls ++ [call] := by
  have noted : (frontEnd.use call).asked = call :: frontEnd.asked := by
    cases call with
    | poll =>
        obtain ⟨batches, polled⟩ := frontEnd.poll_eq
        exact congrArg FrontEnd.asked polled
    | render frame =>
        obtain ⟨window, rendered⟩ := frontEnd.render_eq frame
        exact congrArg FrontEnd.asked rendered
    | setTone active => rfl
    | close part => rfl
  unfold calls
  rw [noted, List.reverse_cons]

/-- A front end has been asked for what it was asked for, call by call and nothing else. -/
theorem calls_useAll (frontEnd : FrontEnd) (calls : List Call) :
    (frontEnd.useAll calls).calls = frontEnd.calls ++ calls := by
  induction calls generalizing frontEnd with
  | nil => exact (List.append_nil _).symm
  | cons call rest ih =>
      change ((frontEnd.use call).useAll rest).calls = _
      rw [ih, calls_use, List.append_assoc, List.singleton_append]

/-- Whether a command takes away what the others need: the window or the mixer. -/
def Command.Closes (command : Command) : Prop :=
  command = .closeDisplay ∨ command = .closeMixer

instance (command : Command) : Decidable command.Closes :=
  inferInstanceAs (Decidable (_ ∨ _))

/-- A front end that has not given a command that closes anything. -/
def Open (frontEnd : FrontEnd) : Prop :=
  ∀ command ∈ frontEnd.given, ¬ command.Closes

variable {frontEnd : FrontEnd}

theorem commands_give (frontEnd : FrontEnd) (commands : List Command) :
    (frontEnd.give commands).commands = frontEnd.commands ++ commands := by
  unfold FrontEnd.commands give
  rw [List.reverse_append, List.reverse_reverse]

theorem commands_closePart (frontEnd : FrontEnd) (part : Collaborator) :
    (frontEnd.closePart part).commands = frontEnd.commands ++ frontEnd.closeCommands part :=
  (frontEnd.note (.close part)).commands_give _

/-- The closing commands come behind all others: those of the keyboard, those of the
speaker and those of the window. -/
theorem commands_close (frontEnd : FrontEnd) :
    frontEnd.close.commands = frontEnd.commands ++
      (Keyboard.closeCommands ++ frontEnd.speaker.closeCommands ++ Window.closeCommands) := by
  change (((frontEnd.closePart .input).closePart .speaker).closePart .renderer).commands = _
  rw [commands_closePart, commands_closePart, commands_closePart, List.append_assoc,
    List.append_assoc, List.append_assoc]
  rfl

theorem Open.give (isOpen : frontEnd.Open) {commands : List Command}
    (harmless : ∀ command ∈ commands, ¬ command.Closes) : (frontEnd.give commands).Open := by
  intro command member
  rcases List.mem_append.mp member with given | earlier
  · exact harmless command (List.mem_reverse.mp given)
  · exact isOpen command earlier

theorem openCommands_harmless (window : Window) (caption : String) :
    ∀ command ∈ window.openCommands caption, ¬ command.Closes := by
  intro command member
  unfold Window.openCommands Window.prepareCommands Window.fontCommands at member
  simp only [List.cons_append, List.nil_append, List.mem_cons, List.not_mem_nil, or_false]
    at member
  rcases member with rfl | rfl | rfl | rfl | rfl | rfl <;> exact of_decide_eq_false rfl

theorem render_harmless {width height : Nat} (window : Window) (display : Display width height)
    (registers : Option Registers) :
    ∀ command ∈ (window.render display registers).commands, ¬ command.Closes := by
  have drawn : ∀ command ∈ window.pixelCommands width display.pixels.toArray,
      ¬ command.Closes := by
    intro command member
    obtain ⟨change, _, rfl⟩ := List.mem_map.mp member
    exact of_decide_eq_false rfl
  have panel : ∀ shown, ∀ command ∈ window.panelCommands shown, ¬ command.Closes := by
    intro shown command member
    rcases List.mem_cons.mp member with rfl | member
    · exact of_decide_eq_false rfl
    · obtain ⟨line, _, rfl⟩ := List.mem_map.mp member
      exact of_decide_eq_false rfl
  unfold Window.render Window.renderPixels
  dsimp only
  split
  · exact drawn
  · intro command member
    rcases List.mem_append.mp member with member | present
    · rcases List.mem_append.mp member with member | member
      · exact drawn command member
      · cases registers with
        | none => cases member
        | some shown => exact panel shown command member
    · cases List.mem_singleton.mp present
      exact of_decide_eq_false rfl

/-- A call that closes nothing leads to commands that close nothing, and leaves the sound in
place. -/
theorem use_gives (frontEnd : FrontEnd) {call : Call} (keeps : ¬ call.Closes) :
    ∃ commands, (frontEnd.use call).given = (frontEnd.give commands).given ∧
      (∀ command ∈ commands, ¬ command.Closes) ∧
      (frontEnd.use call).speaker.audible = frontEnd.speaker.audible := by
  cases call with
  | close part => exact absurd trivial keeps
  | poll =>
      obtain ⟨batches, polled⟩ := frontEnd.poll_eq
      change ∃ commands, frontEnd.poll.2.given = _ ∧ _ ∧ frontEnd.poll.2.speaker.audible = _
      rw [polled]
      exact ⟨[], rfl, List.forall_mem_nil _, rfl⟩
  | render frame =>
      obtain ⟨window, rendered⟩ := frontEnd.render_eq frame
      change ∃ commands, (frontEnd.render frame).given = _ ∧ _ ∧
        (frontEnd.render frame).speaker.audible = _
      rw [rendered]
      exact ⟨_, rfl, render_harmless frontEnd.window frame.screen (some frame.registers), rfl⟩
  | setTone active =>
      refine ⟨(frontEnd.speaker.setTone active).2, rfl, ?_, ?_⟩
      · unfold Speaker.setTone
        split
        · exact List.forall_mem_nil _
        · cases frontEnd.speaker.audible with
          | false => exact List.forall_mem_nil _
          | true =>
              cases active <;> exact List.forall_mem_singleton.mpr (of_decide_eq_false rfl)
      · change (frontEnd.speaker.setTone active).1.audible = _
        unfold Speaker.setTone
        split <;> rfl

/-- However a front end is used, short of closing it, it stays open, and its sound in place. -/
theorem useAll_open (isOpen : frontEnd.Open) {calls : List Call}
    (keep : ∀ call ∈ calls, ¬ call.Closes) :
    (frontEnd.useAll calls).Open ∧
      (frontEnd.useAll calls).speaker.audible = frontEnd.speaker.audible := by
  induction calls generalizing frontEnd with
  | nil => exact ⟨isOpen, rfl⟩
  | cons call rest ih =>
      obtain ⟨keeps, others⟩ := List.forall_mem_cons.mp keep
      obtain ⟨commands, given, harmless, audible⟩ := frontEnd.use_gives keeps
      have next : (frontEnd.use call).Open := by
        unfold Open
        rw [given]
        exact isOpen.give harmless
      obtain ⟨still, same⟩ := ih next others
      exact ⟨still, same.trans audible⟩

/-- A front end that has just been opened has been asked for nothing and has closed nothing, and
it has a sound exactly when there is a device for it. -/
theorem ofScale_open {Time : Type} [Scalar Time] {scale : Int} {equipment : Equipment}
    {volume : Time} (made : ofScale scale equipment volume = .ok frontEnd) :
    frontEnd.calls = [] ∧ frontEnd.Open ∧ frontEnd.speaker.audible = equipment.device := by
  obtain ⟨⟨speaker, sounds⟩, toned, same⟩ := of_bind_ok made
  cases same
  have silent : (∀ command ∈ sounds, ¬ command.Closes) ∧ speaker.audible = equipment.device := by
    unfold Speaker.ofTone at toned
    split at toned
    · next device =>
        obtain ⟨sound, _, same⟩ := of_bind_ok toned
        cases same
        refine ⟨?_, device.symm⟩
        exact List.forall_mem_cons.mpr ⟨of_decide_eq_false rfl,
          List.forall_mem_singleton.mpr (of_decide_eq_false rfl)⟩
    · next missing =>
        cases toned
        exact ⟨List.forall_mem_singleton.mpr (of_decide_eq_false rfl),
          (Bool.eq_false_iff.mpr missing).symm⟩
  refine ⟨rfl, ?_, silent.2⟩
  intro command member
  rcases List.mem_append.mp (List.mem_reverse.mp member) with member | keyboard
  · rcases List.mem_append.mp member with window | sound
    · exact openCommands_harmless _ _ command window
    · exact silent.1 command sound
  · cases List.mem_singleton.mp keyboard
    exact of_decide_eq_false rfl

end Chip8.FrontEnd
