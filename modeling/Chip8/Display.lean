import Chip8.Fault
import Chip8.Layout

/-!
The display: a grid of pixels that wraps around at all four edges.

Pixels are kept row by row. A sprite is a list of rows of eight pixels, the
leftmost in the highest bit; drawing it flips the pixels under its set bits, and
reports whether a lit pixel was among them.
-/

namespace Chip8

structure Display (width height : Nat) where
  pixels : Vector Bool (width * height)
deriving DecidableEq, Repr

abbrev Screen : Type := Display Layout.displayWidth Layout.displayHeight

/-- The cells of a sprite whose bits are set, as row and column, row by row from
left to right. -/
def Sprite.cells (sprite : List Int) : List (Nat × Nat) :=
  sprite.zipIdx.flatMap fun (bits, row) =>
    (List.range 8).filterMap fun (column : Nat) =>
      if bits >>> (7 - column) % 2 = 1 then some (row, column) else none

namespace Display

variable {width height : Nat}

def dark : Display width height :=
  ⟨Vector.replicate (width * height) false⟩

theorem position_lt (wide : 0 < width) (high : 0 < height) (x y : Int) :
    (y % height).toNat * width + (x % width).toNat < width * height := by
  have column : (x % width).toNat < width := by
    have := Int.emod_lt_of_pos x (b := width) (by omega)
    omega
  have row : (y % height).toNat + 1 ≤ height := by
    have := Int.emod_lt_of_pos y (b := height) (by omega)
    omega
  have rows := Nat.mul_le_mul_right width row
  rw [Nat.add_mul, Nat.one_mul, Nat.mul_comm height width] at rows
  omega

/-- Where the pixel at a column and a row is kept; both are taken modulo the size. -/
def position (wide : 0 < width) (high : 0 < height) (x y : Int) : Fin (width * height) :=
  ⟨(y % height).toNat * width + (x % width).toNat, position_lt wide high x y⟩

def flip (display : Display width height) (place : Fin (width * height)) :
    Bool × Display width height :=
  (display.pixels[place], ⟨display.pixels.set place (!display.pixels[place])⟩)

/-- Draw a sprite with its first cell at the given column and row, and say whether a
lit pixel was flipped. Where the pixel at a column and a row is kept is for `place` to
say. -/
def paintBy (place : Int → Int → Fin (width * height)) (display : Display width height)
    (x y : Int) (sprite : List Int) : Bool × Display width height :=
  (Sprite.cells sprite).foldl
    (fun (collision, shown) (row, column) =>
      let (lit, flipped) := shown.flip (place (x + column) (y + row))
      (collision || lit, flipped))
    (false, display)

def paint (wide : 0 < width) (high : 0 < height) (display : Display width height)
    (x y : Int) (sprite : List Int) : Bool × Display width height :=
  display.paintBy (position wide high) x y sprite

/-- Draw on a display without a row or a column. There is no place to draw at: with
rows, the first set bit of a sprite fails, without, its first row. -/
def drawNowhere (display : Display width height) (sprite : List Int) :
    Except Fault (Bool × Display width height) :=
  if (height = 0 ∧ sprite ≠ []) ∨ Sprite.cells sprite ≠ [] then .error .divisionByZero
  else .ok (false, display)

def draw (display : Display width height) (x y : Int) (sprite : List Int) :
    Except Fault (Bool × Display width height) :=
  if sized : 0 < width ∧ 0 < height then .ok (display.paint sized.1 sized.2 x y sprite)
  else display.drawNowhere sprite

def pixel (display : Display width height) (x y : Int) : Except Fault Bool :=
  if sized : 0 < width ∧ 0 < height then
    .ok display.pixels[position sized.1 sized.2 x y]
  else .error .divisionByZero

def rows (display : Display width height) : List (List Bool) :=
  (List.range height).map fun row =>
    (display.pixels.toArray.extract (row * width) ((row + 1) * width)).toList

def lit (display : Display width height) : Nat :=
  display.pixels.toArray.foldl (fun count pixel => if pixel then count + 1 else count) 0

def picture (rows : List (List Bool)) : String :=
  "\n".intercalate (rows.map fun row =>
    String.ofList (row.map fun lit => if lit then '#' else '.'))

def render (display : Display width height) : String :=
  picture display.rows

end Display

end Chip8
