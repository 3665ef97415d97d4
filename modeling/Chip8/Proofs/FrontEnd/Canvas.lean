import Chip8.FrontEnd.Window
import Mathlib.Algebra.Order.Ring.Int
import Mathlib.Data.Int.DivMod
import Mathlib.Data.List.FinRange
import Mathlib.Logic.Function.Basic
import Mathlib.Tactic.Linarith
import Mathlib.Tactic.Positivity

/-!
What a window shows.

The commands of a window are carried out on a canvas. The pixels of a screen are blocks of the
canvas that have nothing in common with each other or with the panel below them. So drawing the
pixels that have changed, on a canvas that shows the screen rendered before, comes to the same
as drawing all of them.
-/

namespace Chip8.FrontEnd

/-! ### Canvases -/

/-- The color of every place, by column and row. -/
abbrev Canvas : Type :=
  Int → Int → Color

/-- How a line is written from a corner on: what it makes of a canvas. -/
abbrev Ink : Type :=
  String → Int → Int → Canvas → Canvas

def Area.Contains (area : Area) (column row : Int) : Prop :=
  area.left ≤ column ∧ column < area.left + area.width ∧
    area.top ≤ row ∧ row < area.top + area.height

instance (area : Area) (column row : Int) : Decidable (area.Contains column row) :=
  inferInstanceAs (Decidable (_ ∧ _))

namespace Canvas

/-- Carry out a command. Whatever the ink, a line is written at or below its top only. -/
def paint (ink : Ink) (canvas : Canvas) : Command → Canvas
  | .fill color area | .rectangle color area => fun column row =>
      if area.Contains column row then color else canvas column row
  | .text line left top => fun column row =>
      if top ≤ row then ink line left top canvas column row else canvas column row
  | _ => canvas

@[simp] theorem paint_fill (ink : Ink) (canvas : Canvas) (color : Color) (area : Area)
    (column row : Int) :
    canvas.paint ink (.fill color area) column row =
      if area.Contains column row then color else canvas column row := rfl

@[simp] theorem paint_rectangle (ink : Ink) (canvas : Canvas) (color : Color) (area : Area)
    (column row : Int) :
    canvas.paint ink (.rectangle color area) column row =
      if area.Contains column row then color else canvas column row := rfl

def paintAll (ink : Ink) (canvas : Canvas) (commands : List Command) : Canvas :=
  commands.foldl (paint ink) canvas

theorem paintAll_append (ink : Ink) (canvas : Canvas) (first second : List Command) :
    canvas.paintAll ink (first ++ second) = (canvas.paintAll ink first).paintAll ink second :=
  List.foldl_append

end Canvas

/-- The block that the pixel at a column and a row of the screen is magnified to. -/
def block (scale : Int) (x y : Nat) : Area :=
  ⟨x * scale, y * scale, scale, scale⟩

def pixelColor (lit : Bool) : Color :=
  if lit then litColor else darkColor

/-- A canvas shows a screen if the block of every pixel has the color of the pixel throughout. -/
def Canvas.Shows (canvas : Canvas) (scale : Int) (screen : Screen) : Prop :=
  ∀ x < Layout.displayWidth, ∀ y < Layout.displayHeight,
    ∃ lit, screen.pixel x y = .ok lit ∧
      ∀ column row, (block scale x y).Contains column row → canvas column row = pixelColor lit

/-! ### Blocks -/

/-- Where the pixels of a screen are kept. -/
abbrev Place : Type :=
  Fin (Layout.displayWidth * Layout.displayHeight)

namespace Place

def block (scale : Int) (place : Place) : Area :=
  FrontEnd.block scale (place.val % Layout.displayWidth) (place.val / Layout.displayWidth)

theorem pixel_eq (screen : Screen) (place : Place) {x y : Nat} (inRow : x < Layout.displayWidth)
    (inColumn : y < Layout.displayHeight) (same : place.val = y * Layout.displayWidth + x) :
    screen.pixel x y = .ok screen.pixels[place] := by
  have position : Display.position (by decide) (by decide) x y = place := by
    apply Fin.ext
    unfold Layout.displayWidth Layout.displayHeight at *
    change ((y : Int) % (32 : Nat)).toNat * 64 + ((x : Int) % (64 : Nat)).toNat = _
    omega
  unfold Display.pixel
  rw [dif_pos (by decide)]
  exact congrArg (fun kept : Place => Except.ok screen.pixels[kept]) position

variable {scale : Int} {place other : Place} {column row : Int}

/-- A block is found again from any place of the canvas in it, so blocks lie apart. -/
theorem block_disjoint (magnified : 1 ≤ scale) (inside : (place.block scale).Contains column row)
    (inOther : (other.block scale).Contains column row) : place = other := by
  have positive : 0 < scale := magnified
  obtain ⟨left, right, top, bottom⟩ := inside
  obtain ⟨otherLeft, otherRight, otherTop, otherBottom⟩ := inOther
  have sameColumn := ((Int.ediv_eq_iff_of_pos positive).mpr ⟨left, right⟩).symm.trans
    ((Int.ediv_eq_iff_of_pos positive).mpr ⟨otherLeft, otherRight⟩)
  have sameRow := ((Int.ediv_eq_iff_of_pos positive).mpr ⟨top, bottom⟩).symm.trans
    ((Int.ediv_eq_iff_of_pos positive).mpr ⟨otherTop, otherBottom⟩)
  apply Fin.ext
  rw [← Nat.div_add_mod place.val Layout.displayWidth, Int.ofNat_inj.mp sameColumn,
    Int.ofNat_inj.mp sameRow, Nat.div_add_mod]

/-- Blocks lie within the screen, as magnified. -/
theorem block_within (magnified : 1 ≤ scale) (inside : (place.block scale).Contains column row) :
    (Area.mk 0 0 (Layout.displayWidth * scale) (Layout.displayHeight * scale)).Contains
      column row := by
  have within : ∀ {index size : Nat} {point : Int}, index < size → index * scale ≤ point →
      point < index * scale + scale → 0 ≤ point ∧ point < 0 + size * scale := by
    intro index size point isInside lower upper
    have next : (index : Int) + 1 ≤ size := by exact_mod_cast isInside
    have room := mul_le_mul_of_nonneg_right next (zero_le_one.trans magnified)
    have nonneg : 0 ≤ (index : Int) * scale := by positivity
    constructor <;> linarith
  obtain ⟨left, right, top, bottom⟩ := inside
  obtain ⟨first, last⟩ := within (Nat.mod_lt place.val (by decide)) left right
  obtain ⟨highest, lowest⟩ := within (Nat.div_lt_of_lt_mul place.isLt) top bottom
  exact ⟨first, last, highest, lowest⟩

end Place

/-- A canvas on which the block of every place has the color of the pixel kept there. -/
def Canvas.ShowsAt (canvas : Canvas) (scale : Int) (lit : Place → Bool) : Prop :=
  ∀ place column row, (Place.block scale place).Contains column row →
    canvas column row = pixelColor (lit place)

namespace Canvas

variable {canvas : Canvas} {scale : Int} {screen : Screen}

theorem shows_iff : canvas.Shows scale screen ↔ canvas.ShowsAt scale (screen.pixels[·]) := by
  constructor
  · intro shows place column row inside
    have inRow : place.val % Layout.displayWidth < Layout.displayWidth := Nat.mod_lt _ (by decide)
    have inColumn : place.val / Layout.displayWidth < Layout.displayHeight :=
      Nat.div_lt_of_lt_mul place.isLt
    obtain ⟨lit, found, uniform⟩ := shows _ inRow _ inColumn
    rw [place.pixel_eq screen inRow inColumn (Nat.div_add_mod' _ _).symm] at found
    cases found
    exact uniform column row inside
  · intro shows x inRow y inColumn
    have room : y * Layout.displayWidth + x < Layout.displayWidth * Layout.displayHeight := by
      unfold Layout.displayWidth Layout.displayHeight at *
      omega
    let place : Place := ⟨y * Layout.displayWidth + x, room⟩
    have column_eq : place.val % Layout.displayWidth = x := by
      rw [Nat.mul_add_mod_self_right, Nat.mod_eq_of_lt inRow]
    have row_eq : place.val / Layout.displayWidth = y := by
      change (y * Layout.displayWidth + x) / Layout.displayWidth = y
      rw [Nat.mul_comm, Nat.mul_add_div (by decide), Nat.div_eq_of_lt inRow, Nat.add_zero]
    refine ⟨_, place.pixel_eq screen inRow inColumn rfl, ?_⟩
    intro column row inside
    refine shows place column row ?_
    unfold Place.block
    rw [column_eq, row_eq]
    exact inside

/-! ### Painting -/

theorem ShowsAt.rectangle {lit : Place → Bool} (shows : canvas.ShowsAt scale lit)
    (magnified : 1 ≤ scale) (ink : Ink) (place : Place) (now : Bool) :
    (canvas.paint ink (.rectangle (pixelColor now) (place.block scale))).ShowsAt scale
      (Function.update lit place now) := by
  intro other column row inside
  rw [paint_rectangle]
  by_cases covered : (place.block scale).Contains column row
  · rw [if_pos covered, Place.block_disjoint magnified inside covered, Function.update_self]
  · rw [if_neg covered, shows other column row inside, Function.update_of_ne]
    rintro rfl
    exact covered inside

end Canvas

/-- Whether a command leaves everything above a height alone. -/
def Command.Below (height : Int) : Command → Prop
  | .fill _ area | .rectangle _ area => height ≤ area.top
  | .text _ _ top => height ≤ top
  | _ => True

namespace Canvas

variable {canvas : Canvas} {scale : Int}

theorem paint_above {height : Int} {command : Command} (below : command.Below height) (ink : Ink)
    (canvas : Canvas) (column : Int) {row : Int} (above : row < height) :
    canvas.paint ink command column row = canvas column row := by
  cases command with
  | fill color area | rectangle color area =>
      refine if_neg ?_
      rintro ⟨_, _, covered, _⟩
      exact absurd (below.trans covered) (not_le.mpr above)
  | text line left top =>
      refine if_neg ?_
      intro covered
      exact absurd (below.trans covered) (not_le.mpr above)
  | _ => rfl

theorem ShowsAt.below {lit : Place → Bool} (shows : canvas.ShowsAt scale lit)
    (magnified : 1 ≤ scale) (ink : Ink) {commands : List Command}
    (below : ∀ command ∈ commands, command.Below (Layout.displayHeight * scale)) :
    (canvas.paintAll ink commands).ShowsAt scale lit := by
  induction commands generalizing canvas with
  | nil => exact shows
  | cons command rest ih =>
      refine ih ?_ fun next member => below next (List.mem_cons_of_mem _ member)
      intro place column row inside
      obtain ⟨_, _, _, low⟩ := Place.block_within magnified inside
      rw [zero_add] at low
      rw [paint_above (below command List.mem_cons_self) ink canvas column low]
      exact shows place column row inside

end Canvas

/-! ### Redrawing -/

/-- The rectangle for a pixel, if it differs on two screens. -/
def changed? (scale : Int) (old new : Screen) (place : Place) : Option (Color × Area) :=
  if old.pixels[place] = new.pixels[place] then none
  else some (pixelColor new.pixels[place], place.block scale)

/-- The rectangles that lead from one screen to another: one for each pixel that differs. -/
def redrawn (scale : Int) (old new : Screen) : List (Color × Area) :=
  (List.finRange _).filterMap (changed? scale old new)

def drawing (drawn : Color × Area) : Command :=
  .rectangle drawn.1 drawn.2

def Command.drawn? : Command → Option (Color × Area)
  | .rectangle color area => some (color, area)
  | _ => none

/-- The rectangles among commands. -/
def rectangles (commands : List Command) : List (Color × Area) :=
  commands.filterMap Command.drawn?

/-- Pixels are drawn one by one. Those drawn so far are those of the new screen, and those left
out do not differ. -/
theorem Canvas.ShowsAt.redraw {canvas : Canvas} {scale : Int} {old new : Screen}
    (magnified : 1 ≤ scale) (ink : Ink) {places : List Place} {lit : Place → Bool}
    (shows : canvas.ShowsAt scale lit)
    (ahead : ∀ place ∈ places, lit place = old.pixels[place] ∨ lit place = new.pixels[place])
    (behind : ∀ place ∉ places, lit place = new.pixels[place]) :
    (canvas.paintAll ink ((places.filterMap (changed? scale old new)).map drawing)).ShowsAt scale
      (new.pixels[·]) := by
  induction places generalizing canvas lit with
  | nil =>
      have same : lit = (new.pixels[·]) := funext fun place => behind place List.not_mem_nil
      rw [← same]
      exact shows
  | cons place rest ih =>
      by_cases same : old.pixels[place] = new.pixels[place]
      · have skipped : changed? scale old new place = none := if_pos same
        rw [List.filterMap_cons_none skipped]
        refine ih shows (fun next member => ahead next (List.mem_cons_of_mem _ member)) ?_
        intro other absent
        by_cases isPlace : other = place
        · rw [isPlace]
          rcases ahead place List.mem_cons_self with found | found
          · exact found.trans same
          · exact found
        · exact behind other (List.not_mem_cons_of_ne_of_not_mem isPlace absent)
      · have drawn : changed? scale old new place =
            some (pixelColor new.pixels[place], place.block scale) := if_neg same
        rw [List.filterMap_cons_some drawn]
        refine ih (shows.rectangle magnified ink place new.pixels[place]) ?_ ?_
        · intro next member
          by_cases isPlace : next = place
          · rw [isPlace, Function.update_self]
            exact Or.inr rfl
          · rw [Function.update_of_ne isPlace]
            exact ahead next (List.mem_cons_of_mem _ member)
        · intro other absent
          by_cases isPlace : other = place
          · rw [isPlace, Function.update_self]
          · rw [Function.update_of_ne isPlace]
            exact behind other (List.not_mem_cons_of_ne_of_not_mem isPlace absent)

namespace Window

theorem changes_eq (first : Nat) (olds news : List Bool) :
    changes first olds news = ((olds.zip news).zipIdx first).filterMap fun (pair, index) =>
      if pair.1 = pair.2 then none else some (index, pair.2) := by
  induction olds generalizing first news with
  | nil => rfl
  | cons old olds ih =>
      cases news with
      | nil => rfl
      | cons new news =>
          rw [changes, List.zip_cons_cons, List.zipIdx_cons, ih]
          by_cases same : old = new
          · simp only [if_pos same, List.filterMap_cons]
          · simp only [if_neg same, List.filterMap_cons]

variable {window : Window}

/-- A window that remembers a screen draws the pixels in which another one differs from it. -/
theorem pixelCommands_eq {old : Screen} (remembers : window.shown = old.pixels.toArray)
    (new : Screen) :
    window.pixelCommands Layout.displayWidth new.pixels.toArray =
      (redrawn window.scale old new).map drawing := by
  have paired : (old.pixels.toList.zip new.pixels.toList).zipIdx 0 =
      (List.finRange (Layout.displayWidth * Layout.displayHeight)).map fun place =>
        ((old.pixels[place], new.pixels[place]), place.val) := by
    apply List.ext_getElem
    · simp
    · intro index left right
      simp
  have row_eq (place : Place) : window.pixelCommand Layout.displayWidth place.val =
      fun lit => drawing (pixelColor lit, place.block window.scale) := by
    have column : Int.fmod place.val Layout.displayWidth =
        (place.val % Layout.displayWidth : Nat) := by
      rw [Int.fmod_eq_emod_of_nonneg _ (Int.natCast_nonneg _), Int.natCast_emod]
    have row : Int.fdiv place.val Layout.displayWidth =
        (place.val / Layout.displayWidth : Nat) := by
      rw [Int.fdiv_eq_ediv_of_nonneg _ (Int.natCast_nonneg _), Int.natCast_ediv]
    funext lit
    unfold pixelCommand
    rw [column, row]
    rfl
  unfold pixelCommands redrawn
  rw [remembers, changes_eq]
  change List.map _ (List.filterMap _ ((old.pixels.toList.zip new.pixels.toList).zipIdx 0)) = _
  rw [paired, List.filterMap_map, List.map_filterMap, List.map_filterMap]
  congr 1
  funext place
  unfold changed?
  by_cases same : old.pixels[place] = new.pixels[place]
  · simp only [Function.comp_apply, if_pos same, Option.map_none]
  · simp only [Function.comp_apply, if_neg same, Option.map_some, row_eq]

/-- What is drawn for the panel, if the window has been given the registers. -/
def panelPart (window : Window) (registers : Option Registers) : List Command :=
  registers.elim [] window.panelCommands

/-- A rendering draws what differs from the screen that the window remembers, and remembers the
new one. -/
theorem render_eq {old : Screen} (remembers : window.shown = old.pixels.toArray) (new : Screen)
    (registers : Option Registers) :
    window.render new registers =
      ⟨(redrawn window.scale old new).map drawing ++ window.panelPart registers ++ [.present],
        .ok { window with shown := new.pixels.toArray }⟩ := by
  have sized : ¬ window.shown.size < new.pixels.toArray.size := by
    rw [remembers, Vector.size_toArray, Vector.size_toArray]
    exact Nat.lt_irrefl _
  unfold render renderPixels panelPart
  rw [pixelCommands_eq remembers, if_neg sized]
  cases registers <;> rfl

/-- Beside its rectangles, a rendering fills the panel and writes its lines. -/
theorem mem_panelPart {registers : Option Registers} {command : Command}
    (member : command ∈ window.panelPart registers ++ [.present]) :
    (∃ color left width height,
        command = .fill color ⟨left, window.screenHeight, width, height⟩) ∨
      (∃ (line : String) (row : Nat),
        command = .text line 0 (window.screenHeight + window.lineHeight * row)) ∨
      command = .present := by
  rcases List.mem_append.mp member with panel | present
  · cases registers with
    | none => cases panel
    | some shown =>
        rcases List.mem_cons.mp panel with filled | written
        · exact Or.inl ⟨_, _, _, _, filled⟩
        · obtain ⟨⟨line, row⟩, _, same⟩ := List.mem_map.mp written
          exact Or.inr (Or.inl ⟨line, row, same.symm⟩)
  · exact Or.inr (Or.inr (List.mem_singleton.mp present))

theorem panelPart_below (spaced : 0 ≤ window.lineHeight) (registers : Option Registers) :
    ∀ command ∈ window.panelPart registers ++ [.present],
      command.Below (Layout.displayHeight * window.scale) := by
  intro command member
  rcases mem_panelPart member with ⟨_, _, _, _, rfl⟩ | ⟨line, row, rfl⟩ | rfl
  · exact le_refl _
  · exact le_add_of_nonneg_right (mul_nonneg spaced (Int.natCast_nonneg row))
  · exact trivial

/-- The rectangles of a rendering are those for the pixels that differ from the screen that the
window remembers, one for each. -/
theorem rectangles_render {old : Screen} (remembers : window.shown = old.pixels.toArray)
    (new : Screen) (registers : Option Registers) :
    rectangles (window.render new registers).commands = redrawn window.scale old new := by
  have panel : rectangles (window.panelPart registers ++ [.present]) = [] := by
    refine List.filterMap_eq_nil_iff.mpr ?_
    intro command member
    rcases mem_panelPart member with ⟨_, _, _, _, rfl⟩ | ⟨_, _, rfl⟩ | rfl
    all_goals rfl
  rw [render_eq remembers]
  unfold rectangles at panel ⊢
  rw [List.append_assoc, List.filterMap_append, panel, List.append_nil, List.filterMap_map]
  exact List.filterMap_some

end Window

/-- A window is in step with its commands if these have drawn the screen that it remembers,
whatever the canvas was before and whatever lines were written on it. -/
structure Window.InStep (scale : Int) (window : Window) (commands : List Command)
    (screen : Screen) : Prop where
  scale_eq : window.scale = scale
  spaced : 0 ≤ window.lineHeight
  remembers : window.shown = screen.pixels.toArray
  shows : ∀ (ink : Ink) (canvas : Canvas), (canvas.paintAll ink commands).Shows scale screen

namespace Window.InStep

variable {scale : Int} {window : Window} {commands : List Command} {screen : Screen}

/-- A window that has just been opened shows a dark screen. -/
theorem opened {lineHeight : Int} (magnified : 1 ≤ scale) (spaced : 0 ≤ lineHeight)
    (caption : String) :
    (ofScale scale lineHeight).InStep scale ((ofScale scale lineHeight).openCommands caption)
      Display.dark where
  scale_eq := rfl
  spaced := spaced
  remembers := Vector.toArray_replicate.symm
  shows ink canvas := by
    rw [Canvas.shows_iff]
    intro place column row inside
    have dark : (Display.dark : Screen).pixels[place] = false := Vector.getElem_replicate _
    change (canvas.paint ink (.fill darkColor _)) column row =
      pixelColor (Display.dark : Screen).pixels[place]
    rw [Canvas.paint_fill, dark]
    exact if_pos (Place.block_within magnified inside)

theorem append (inStep : window.InStep scale commands screen) (magnified : 1 ≤ scale)
    {more : List Command}
    (below : ∀ command ∈ more, command.Below (Layout.displayHeight * scale)) :
    window.InStep scale (commands ++ more) screen where
  scale_eq := inStep.scale_eq
  spaced := inStep.spaced
  remembers := inStep.remembers
  shows ink canvas := by
    have shows := inStep.shows ink canvas
    rw [Canvas.shows_iff] at shows ⊢
    rw [Canvas.paintAll_append]
    exact shows.below magnified ink below

/-- Rendering draws a new screen in place of the one drawn before. -/
theorem render (inStep : window.InStep scale commands screen) (magnified : 1 ≤ scale)
    (new : Screen) (registers : Option Registers) :
    ∃ next, (window.render new registers).window = .ok next ∧
      next.InStep scale (commands ++ (window.render new registers).commands) new := by
  obtain ⟨rfl, spaced, remembers, shows⟩ := inStep
  have rendered := render_eq remembers new registers
  have drawn : Window.InStep window.scale { window with shown := new.pixels.toArray }
      (commands ++ (redrawn window.scale screen new).map drawing) new := by
    refine ⟨rfl, spaced, rfl, ?_⟩
    intro ink canvas
    have before := shows ink canvas
    rw [Canvas.shows_iff] at before ⊢
    rw [Canvas.paintAll_append]
    exact before.redraw magnified ink (fun _ _ => Or.inl rfl)
      fun place absent => absurd (List.mem_finRange place) absent
  refine ⟨_, by rw [rendered], ?_⟩
  have whole := drawn.append magnified (panelPart_below spaced registers)
  rw [List.append_assoc, ← List.append_assoc _ (window.panelPart registers)] at whole
  rw [rendered]
  exact whole

end Window.InStep

end Chip8.FrontEnd
