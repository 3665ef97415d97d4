import Chip8.Capacity
import Chip8.Display

/-!
Displays whose sides may be negative.

The cells of a display are as many as the product of its sides, so two negative sides
will do as well as two positive ones. Columns and rows are then reduced to numbers
from zero down, and a cell ahead of the first is counted from the end. A display of
negative height has no rows to show.

With positive sides every pixel is kept where a plain display keeps it.
-/

namespace Chip8

structure SignedDisplay (width height : Int) where
  cells : Display width.natAbs height.natAbs

namespace SignedDisplay

variable {width height : Int}

def dark : SignedDisplay width height :=
  ⟨Display.dark⟩

def dark? (width height : Int) : Except Fault (SignedDisplay width height) :=
  (Capacity.cells? (width * height)).map fun _ => dark

/-- The index of the pixel at a column and a row, the negative ones counted from the
end. -/
def index (width height x y : Int) : Int :=
  (y.fmod height * width + x.fmod width) % (width.natAbs * height.natAbs : Nat)

theorem index_toNat_lt {width height : Int} (wide : 0 < width.natAbs) (high : 0 < height.natAbs)
    (x y : Int) : (index width height x y).toNat < width.natAbs * height.natAbs := by
  have positive : 0 < width.natAbs * height.natAbs := Nat.mul_pos wide high
  unfold index
  have := Int.emod_lt_of_pos (y.fmod height * width + x.fmod width)
    (b := ((width.natAbs * height.natAbs : Nat) : Int)) (Int.natCast_pos.mpr positive)
  omega

def position (wide : 0 < width.natAbs) (high : 0 < height.natAbs) (x y : Int) :
    Fin (width.natAbs * height.natAbs) :=
  ⟨(index width height x y).toNat, index_toNat_lt wide high x y⟩

def draw (display : SignedDisplay width height) (x y : Int) (sprite : List Int) :
    Except Fault (Bool × SignedDisplay width height) :=
  let drawn :=
    if sized : 0 < width.natAbs ∧ 0 < height.natAbs then
      .ok (display.cells.paintBy (position sized.1 sized.2) x y sprite)
    else display.cells.drawNowhere sprite
  drawn.map fun (collision, cells) => (collision, ⟨cells⟩)

def pixel (display : SignedDisplay width height) (x y : Int) : Except Fault Bool :=
  if sized : 0 < width.natAbs ∧ 0 < height.natAbs then
    .ok display.cells.pixels[position sized.1 sized.2 x y]
  else .error .divisionByZero

def rows (display : SignedDisplay width height) : List (List Bool) :=
  if height < 0 then [] else display.cells.rows

def lit (display : SignedDisplay width height) : Nat :=
  display.cells.lit

def render (display : SignedDisplay width height) : String :=
  Display.picture display.rows

theorem position_ofNat {width height : Nat} (wide : 0 < width) (high : 0 < height) (x y : Int) :
    (position (Int.natAbs_natCast width ▸ wide) (Int.natAbs_natCast height ▸ high) x y).val =
      (Display.position wide high x y).val := by
  have below := Display.position_lt wide high x y
  have column := Int.emod_nonneg x (b := (width : Int)) (by omega)
  have row := Int.emod_nonneg y (b := (height : Int)) (by omega)
  change (index width height x y).toNat = (y % height).toNat * width + (x % width).toNat
  unfold index
  rw [Int.natAbs_natCast, Int.natAbs_natCast,
    Int.fmod_eq_emod_of_nonneg y (Int.natCast_nonneg height),
    Int.fmod_eq_emod_of_nonneg x (Int.natCast_nonneg width)]
  have whole : y % height * width + x % width =
      (((y % height).toNat * width + (x % width).toNat : Nat) : Int) := by
    rw [Int.natCast_add, Int.natCast_mul, Int.toNat_of_nonneg row, Int.toNat_of_nonneg column]
  rw [whole, Int.emod_eq_of_lt (Int.natCast_nonneg _) (Int.ofNat_lt.mpr below), Int.toNat_natCast]

/-- Given positive sides, a sprite is drawn as on a plain display. -/
theorem draw_ofNat {width height : Nat} (wide : 0 < width) (high : 0 < height)
    (display : Display width height) (x y : Int) (sprite : List Int) :
    (⟨display⟩ : SignedDisplay width height).draw x y sprite =
      (display.draw x y sprite).map fun (collision, drawn) => (collision, ⟨drawn⟩) := by
  have sized : 0 < (width : Int).natAbs ∧ 0 < (height : Int).natAbs := ⟨wide, high⟩
  have places : (position sized.1 sized.2 : Int → Int → Fin (width * height)) =
      Display.position wide high :=
    funext fun column => funext fun row => Fin.ext (position_ofNat wide high column row)
  unfold draw Display.draw
  dsimp only
  rw [dif_pos sized, dif_pos ⟨wide, high⟩, Display.paint, ← places]
  rfl

end SignedDisplay

end Chip8
