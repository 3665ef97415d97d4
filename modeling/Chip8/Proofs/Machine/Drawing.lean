import Chip8.Proofs.Display.Collision
import Chip8.Proofs.Machine.Reachable

/-!
The instruction that draws.

It takes as many bytes as it is told to from the index register on, as the rows of a sprite, and
draws them where two registers say. Sixteen rows are never reached, so a sprite always fits on the
screen and the flag says whether a lit pixel went dark, also when the flag register was one of
the two that gave the place.
-/

namespace Chip8

/-- What an effect shows, if it shows something. -/
def Effect.frame? {Time : Type} : Effect Time → Option Frame
  | .render frame => some frame
  | _ => none

theorem Layout.displayWidth_pos : 0 < displayWidth := by decide

theorem Layout.displayHeight_pos : 0 < displayHeight := by decide

namespace Core

/-- The rows of a sprite that lies at the index register. Behind the last cell of memory it goes
on at the first. -/
def spriteRows (core : Core) (count : ℕ) : List Int :=
  (List.range count).map fun (offset : ℕ) =>
    ((core.memory.byteAt ((core.registers.index + offset) % 4096)).toNat : Int)

/-- Where the set bits of a sprite come to lie on the screen. -/
def spritePlaces (core : Core) (x y : RegisterIndex) (rows : Digit) :
    List (Fin (Layout.displayWidth * Layout.displayHeight)) :=
  Display.places Layout.displayWidth_pos Layout.displayHeight_pos (core.byte x).toNat
    (core.byte y).toNat (core.spriteRows rows.val)

variable {core : Core}

theorem nodup_spritePlaces (core : Core) (x y : RegisterIndex) (rows : Digit) :
    (core.spritePlaces x y rows).Nodup := by
  refine Display.nodup_places _ _ _ _ (by decide) ?_
  have few := rows.isLt
  unfold spriteRows Layout.displayHeight
  rw [List.length_map, List.length_range]
  omega

theorem Bounded.perform_draw (bounded : core.Bounded) (x y : RegisterIndex) (rows : Digit) :
    ∃ after, core.perform (.draw x y rows) = .ok () after ∧
      after.screen = (core.screen.flipAll (core.spritePlaces x y rows)).2 ∧
      after.byte Layout.flagRegister =
        (if (core.screen.flipAll (core.spritePlaces x y rows)).1 then 1 else 0) ∧
      (∀ z, z ≠ Layout.flagRegister → after.byte z = core.byte z) ∧
      after.registers.index = core.registers.index ∧ after.memory = core.memory := by
  have read : core.sprite rows.val = .ok _ :=
    bounded.memory.readBlock_eq core.registers.index rows.val
  generalize bytes_eq : (List.range rows.val).map _ = bytes at read
  have numbers : bytes.map (fun row => (row.toNat : Int)) = core.spriteRows rows.val := by
    rw [← bytes_eq, List.map_map]
    rfl
  have painted : core.screen.paint (by decide) (by decide) (core.byte x).toNat (core.byte y).toNat
      (bytes.map fun row => (row.toNat : Int)) =
        core.screen.flipAll (core.spritePlaces x y rows) := by
    rw [numbers, Display.paint_eq]
    rfl
  refine ⟨(core.paintSprite x y bytes).advance, ?_, ?_, ?_, ?_, rfl, rfl⟩
  · rw [Core.perform, read]
    rfl
  · rw [← painted]
    rfl
  · rw [← painted]
    exact Registers.byte_put_self ..
  · intro z other
    exact Registers.byte_put_of_ne _ _ other.symm

end Core

variable {Time : Type}

/-- The effects of an instruction that completes: its records, and a frame if it redraws. -/
theorem Core.executionEffects_assembled {core after : Core} {Answer : Type}
    (instruction : Instruction) (answer : Answer) :
    (core.executionEffects instruction.assemble (.ok answer after) : List (Effect Time)) =
      (core.records instruction).map .log ++
        if redraws instruction then [.render (core.shownFrame after)] else [] := by
  unfold executionEffects
  rw [Instruction.carriedOut?_assemble]

variable [Scalar Time]

/-- Whatever state a machine is in, drawing flips a pixel where an odd number of set bits of the
sprite come to lie, and shows the screen as it is then. The flag says whether a pixel that was lit
before is dark now. Each set bit lights a pixel more, but for those that switch one off. No other
register, no memory and not the index register changes. -/
theorem Reachable.draw_reports_collisions {settings : Settings} {program : List UInt8}
    {machine : Machine Time} (reachable : Reachable settings program machine)
    (x y : RegisterIndex) (rows : Digit) :
    let before := machine.core
    let sprite := before.spriteRows rows.val
    let drawing := machine.execute (nibbleWord 0xD x y rows)
    ∃ next frame, drawing.attempt = .ok () next ∧
      (∀ column : ℕ, column < 64 → ∀ row : ℕ, row < 32 → ∃ lit,
        before.screen.pixel column row = .ok lit ∧
        next.core.screen.pixel column row =
          .ok (lit ^^ decide (Odd (Sprite.hits sprite 64 32 (before.byte x).toNat
            (before.byte y).toNat column row).card))) ∧
      next.core.byte Layout.flagRegister =
        (if (before.screen.switchedOff next.core.screen).Nonempty then 1 else 0) ∧
      next.core.screen.lit + 2 * (before.screen.switchedOff next.core.screen).card =
        before.screen.lit + (Sprite.bits sprite).card ∧
      drawing.effects.filterMap Effect.frame? = [frame] ∧ frame.screen = next.core.screen ∧
      (∀ z, z ≠ Layout.flagRegister → next.core.byte z = before.byte z) ∧
      next.core.registers.index = before.registers.index ∧ next.core.memory = before.memory := by
  intro before sprite drawing
  have bounded := reachable.core_wellFormed.toBounded
  have distinct := before.nodup_spritePlaces x y rows
  have collided := before.screen.flipAll_collides_iff distinct
  obtain ⟨after, performed, screen, flag, bytes, index, memory⟩ := bounded.perform_draw x y rows
  have executed : drawing = _ := Machine.execute_assembled performed
  refine ⟨machine.withCore after, before.shownFrame after, ?_, ?_, ?_, ?_, ?_, rfl, bytes, index,
    memory⟩
  · rw [executed]
  · intro column inRow row inColumn
    change ∃ lit, _ ∧ after.screen.pixel column row = _
    rw [screen]
    exact Display.pixel_flipAll_places _ _ before.screen _ _ sprite inRow inColumn
  · rw [← screen] at collided
    exact flag.trans (if_congr collided rfl rfl)
  · change after.screen.lit + 2 * (before.screen.switchedOff after.screen).card = _
    rw [screen, Display.lit_flipAll _ distinct, Core.spritePlaces, Display.length_places]
  · have quiet : ((before.records (.draw x y rows)).map
        (Effect.log : Record → Effect Time)).filterMap Effect.frame? = [] := by
      rw [List.filterMap_map]
      exact List.filterMap_eq_nil_iff.mpr fun _ _ => rfl
    rw [executed, Core.executionEffects_assembled, List.filterMap_append, quiet]
    rfl

/-- A program that draws two rows of its own image. Where it draws them a second time, the first
pixel goes dark again and the flag is set. -/
theorem draw_reports_collisions_over_itself :
    ∃ machine : Machine Rat,
      Machine.boot ⟨700, false, 0, [], false, "sprite"⟩
          [0xA2, 0x04, 0xDF, 0x02, 0xFF, 0x81] = .ok machine ∧
        let drawn := machine.step.state.step.state
        drawn.core.screen.pixel (0 : ℕ) (0 : ℕ) = .ok true ∧
          ∃ next, (drawn.execute (nibbleWord 0xD 0xF 0 2)).attempt = .ok () next ∧
            next.core.screen.pixel (0 : ℕ) (0 : ℕ) = .ok false ∧
            next.core.byte Layout.flagRegister = 1 := by
  obtain ⟨machine, started⟩ : ∃ machine : Machine Rat,
      Machine.boot ⟨700, false, 0, [], false, "sprite"⟩
        [0xA2, 0x04, 0xDF, 0x02, 0xFF, 0x81] = .ok machine := ⟨_, rfl⟩
  have start : machine.core.waiting = none ∧ machine.core.screen = Display.dark ∧
      machine.core.byte 0 = 0 ∧ machine.core.byte 0xF = 0 ∧
      machine.core.registers.counter = 0x200 := by
    obtain ⟨timers, interval, memory, _, _, _, rfl⟩ := Machine.boot_eq_ok_iff.mp started
    exact ⟨rfl, rfl, rfl, rfl, rfl⟩
  have image := Machine.boot_byteAt started
  let aimed := machine.withCore (machine.core.setIndex 0x204).advance.counted
  have aims : machine.core.fetch = .ok (Instruction.loadIndex 0x204).assemble :=
    (Machine.boot_fetch started).trans (congrArg Except.ok (by decide))
  have atAimed : machine.step.state = aimed :=
    Machine.step_of_perform start.1 aims rfl
  have reached := Reachable.step (.boot started)
  rw [atAimed] at reached
  have draws : aimed.core.fetch = .ok (nibbleWord 0xD 0xF 0 2) :=
    (reached.core_wellFormed.toBounded.fetch_of_bytes (congrArg (· + 2) start.2.2.2.2) (by decide)
      (image 2 rfl) (image 3 rfl)).trans (congrArg Except.ok (by decide))
  have hit : ∀ core : Core, core.registers.index = 0x204 → core.memory = machine.core.memory →
      core.byte 0xF = 0 → core.byte 0 = 0 →
      decide (Odd (Sprite.hits (core.spriteRows 2) 64 32 (core.byte 0xF).toNat (core.byte 0).toNat
        0 0).card) = true := by
    intro core isIndex isMemory isFlag isZero
    have rows : core.spriteRows 2 = [0xFF, 0x81] := by
      unfold Core.spriteRows
      rw [isIndex, isMemory]
      change [((machine.core.memory.byteAt (0x200 + (4 : ℕ))).toNat : Int),
        ((machine.core.memory.byteAt (0x200 + (5 : ℕ))).toNat : Int)] = _
      rw [image 4 rfl, image 5 rfl]
      rfl
    rw [rows, isFlag, isZero]
    decide
  obtain ⟨drawn, _, executed, pixels, flag, _, _, _, bytes, index, memory⟩ :=
    reached.draw_reports_collisions 0xF 0 2
  have atDrawn : machine.step.state.step.state = aimed.withCore drawn.core.counted := by
    rw [atAimed]
    exact Machine.step_of_execute start.1 draws executed
  have wasDark : aimed.core.screen = Display.dark := start.2.1
  have lit : drawn.core.screen.pixel (0 : ℕ) (0 : ℕ) = .ok true := by
    obtain ⟨before, isBefore, isLit⟩ := pixels 0 (by decide) 0 (by decide)
    rw [wasDark, Display.pixel_dark (by decide) (by decide)] at isBefore
    cases isBefore
    have flipped := hit aimed.core rfl rfl start.2.2.2.1 start.2.2.1
    exact isLit.trans (congrArg (fun odd => Except.ok (false ^^ odd)) flipped)
  have cleared : drawn.core.byte 0xF = 0 := by
    refine flag.trans (if_neg ?_)
    rw [wasDark, Display.switchedOff_dark]
    exact Finset.not_nonempty_empty
  have reachedAgain := Reachable.step (.step (.boot started))
  rw [atDrawn] at reachedAgain
  obtain ⟨next, _, again, pixelsAgain, flagAgain, _⟩ := reachedAgain.draw_reports_collisions 0xF 0 2
  have dark : next.core.screen.pixel (0 : ℕ) (0 : ℕ) = .ok false := by
    obtain ⟨before, isBefore, isDark⟩ := pixelsAgain 0 (by decide) 0 (by decide)
    obtain rfl := Except.ok.inj (lit.symm.trans isBefore)
    have flipped := hit drawn.core.counted index memory cleared
      ((bytes 0 (by decide)).trans start.2.2.1)
    exact isDark.trans (congrArg (fun odd => Except.ok (true ^^ odd)) flipped)
  refine ⟨machine, started, ?_⟩
  rw [atDrawn]
  refine ⟨lit, next, again, dark, flagAgain.trans (if_pos ?_)⟩
  exact Display.switchedOff_nonempty_of_pixel (by decide) (by decide) lit dark

end Chip8
