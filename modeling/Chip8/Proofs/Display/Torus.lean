import Chip8.Display.Signed
import Mathlib.Algebra.Group.Nat.Even
import Mathlib.Data.Finset.Card
import Mathlib.Data.Finset.Prod
import Mathlib.Data.Int.Bitwise

/-!
Drawing on the torus.

A sprite is drawn by flipping pixels one after the other. A pixel that is flipped an even
number of times is back where it was, so all that counts is whether an even or an odd number
of set bits come to lie on it, however often the sprite overlaps itself. So a sprite drawn
twice leaves no trace, two sprites can be drawn in either order, and going once around the
display makes no difference.
-/

namespace Chip8

/-! ### The set bits of a sprite -/

namespace Sprite

/-- The set bits of a sprite, as row and column. -/
def bits (sprite : List Int) : Finset (ℕ × ℕ) :=
  (Finset.range sprite.length ×ˢ Finset.range 8).filter fun (row, column) =>
    (sprite.getD row 0).testBit (7 - column)

/-- The set bits that come to lie on the pixel at a column and a row when the sprite is drawn
with its first cell at `x` and `y`. -/
def hits (sprite : List Int) (width height : ℕ) (x y : Int) (column row : ℕ) : Finset (ℕ × ℕ) :=
  (bits sprite).filter fun cell =>
    (x + cell.2) % width = column ∧ (y + cell.1) % height = row

theorem shifted_odd_iff (number : Int) (place : ℕ) :
    number >>> place % 2 = 1 ↔ number.testBit place = true := by
  cases number with
  | ofNat number =>
      change ((number >>> place : ℕ) : Int) % 2 = 1 ↔ Nat.testBit number place = true
      rw [Nat.testBit_eq_decide_div_mod_eq, decide_eq_true_iff, Nat.shiftRight_eq_div_pow]
      omega
  | negSucc number =>
      change Int.negSucc (number >>> place) % 2 = 1 ↔ (!Nat.testBit number place) = true
      rw [Nat.testBit_eq_decide_div_mod_eq, Nat.shiftRight_eq_div_pow, Bool.not_eq_true',
        decide_eq_false_iff_not]
      omega

theorem mem_cells {sprite : List Int} {row column : ℕ} :
    (row, column) ∈ cells sprite ↔ (row, column) ∈ bits sprite := by
  unfold cells bits
  simp only [List.mem_flatMap, List.mem_filterMap, List.mem_range, Finset.mem_filter,
    Finset.mem_product, Finset.mem_range, Option.ite_none_right_eq_some, Option.some.injEq,
    Prod.mk.injEq, shifted_odd_iff]
  constructor
  · rintro ⟨⟨number, _⟩, listed, _, inside, set, rfl, rfl⟩
    have found := List.mk_mem_zipIdx_iff_getElem?.mp listed
    obtain ⟨within, _⟩ := List.getElem?_eq_some_iff.mp found
    rw [List.getD_eq_getElem?_getD, found]
    exact ⟨⟨within, inside⟩, set⟩
  · rintro ⟨⟨within, inside⟩, set⟩
    have found := List.getElem?_eq_getElem within
    rw [List.getD_eq_getElem?_getD, found] at set
    exact ⟨(sprite[row], row), List.mk_mem_zipIdx_iff_getElem?.mpr found, column, inside, set,
      rfl, rfl⟩

theorem nodup_cells (sprite : List Int) : (cells sprite).Nodup := by
  refine List.nodup_flatMap.mpr ⟨?_, ?_⟩
  · rintro ⟨number, row⟩ _
    refine List.Nodup.filterMap ?_ List.nodup_range
    intro column other cell inFirst inSecond
    simp only [Option.mem_def, Option.ite_none_right_eq_some, Option.some.injEq] at inFirst inSecond
    have same := inFirst.2.trans inSecond.2.symm
    exact (Prod.mk.injEq .. ▸ same).2
  · have apart : (sprite.zipIdx.map Prod.snd).Nodup := by
      rw [List.zipIdx_map_snd]
      exact List.nodup_range'
    refine (List.pairwise_map.mp apart).imp ?_
    rintro ⟨_, row⟩ ⟨_, other⟩ different
    refine List.disjoint_left.mpr ?_
    intro cell inFirst inSecond
    simp only [List.mem_filterMap, Option.ite_none_right_eq_some, Option.some.injEq]
      at inFirst inSecond
    obtain ⟨_, _, _, rfl⟩ := inFirst
    obtain ⟨_, _, _, same⟩ := inSecond
    exact different (congrArg Prod.fst same).symm

theorem toFinset_cells (sprite : List Int) : (cells sprite).toFinset = bits sprite := by
  ext ⟨row, column⟩
  rw [List.mem_toFinset, mem_cells]

/-- Counting set bits in the order in which they are drawn, or as a set. -/
theorem countP_cells (sprite : List Int) (counted : ℕ × ℕ → Bool) :
    (cells sprite).countP counted = ((bits sprite).filter (counted ·)).card := by
  rw [List.countP_eq_length_filter,
    ← List.toFinset_card_of_nodup ((nodup_cells sprite).filter counted),
    List.toFinset_filter, toFinset_cells]

end Sprite

namespace Display

variable {width height : ℕ}

/-! ### Flipping pixels one after the other -/

/-- Flip pixels one after the other, and say whether one of them was lit at its turn. -/
def flipAll (display : Display width height) :
    List (Fin (width * height)) → Bool × Display width height
  | [] => (false, display)
  | place :: rest =>
      let (lit, flipped) := display.flip place
      let (collision, drawn) := flipped.flipAll rest
      (lit || collision, drawn)

theorem ext_pixels {display other : Display width height}
    (same : ∀ place : Fin (width * height), display.pixels.get place = other.pixels.get place) :
    display = other := by
  cases display
  cases other
  congr 1
  exact Vector.ext fun place inside => same ⟨place, inside⟩

theorem pixels_dark (place : Fin (width * height)) :
    (dark : Display width height).pixels.get place = false :=
  Vector.getElem_replicate place.isLt

theorem pixels_flip (display : Display width height) (place other : Fin (width * height)) :
    (display.flip place).2.pixels.get other = (display.pixels.get other ^^ decide (place = other)) := by
  change (display.pixels.set place (!display.pixels.get place))[other.val] = _
  rw [Vector.getElem_set]
  by_cases same : place = other
  · subst same
    simp
  · rw [if_neg fun equal => same (Fin.ext equal), decide_eq_false same, Bool.xor_false]
    rfl

/-- A pixel changes exactly if it is flipped an odd number of times. -/
theorem pixels_flipAll (display : Display width height) (places : List (Fin (width * height)))
    (place : Fin (width * height)) :
    (display.flipAll places).2.pixels.get place =
      (display.pixels.get place ^^ decide (Odd (places.count place))) := by
  induction places generalizing display with
  | nil => simp [flipAll]
  | cons first rest ih =>
      change ((display.flip first).2.flipAll rest).2.pixels.get place = _
      rw [ih, pixels_flip, Bool.xor_assoc, List.count_cons]
      congr 1
      by_cases here : first = place
      · simp only [here, decide_true, beq_self_eq_true, if_true, Nat.odd_add_one, decide_not,
          Bool.true_xor]
      · simp only [here, decide_false, beq_eq_false_iff_ne.mpr here, Bool.false_eq_true, if_false,
          Nat.add_zero, Bool.false_xor]

/-- Flipping the same pixels again takes every one of them back. -/
theorem flipAll_again (display : Display width height) (places : List (Fin (width * height))) :
    ((display.flipAll places).2.flipAll places).2 = display := by
  refine ext_pixels fun place => ?_
  rw [pixels_flipAll, pixels_flipAll, Bool.xor_assoc, Bool.xor_self, Bool.xor_false]

theorem flipAll_comm (display : Display width height)
    (first second : List (Fin (width * height))) :
    ((display.flipAll first).2.flipAll second).2 =
      ((display.flipAll second).2.flipAll first).2 := by
  refine ext_pixels fun place => ?_
  rw [pixels_flipAll, pixels_flipAll, pixels_flipAll, pixels_flipAll, Bool.xor_right_comm]

/-! ### The pixels under a sprite -/

/-- Where the set bits of a sprite come to lie, in the order in which they are drawn. -/
def places (wide : 0 < width) (high : 0 < height) (x y : Int) (sprite : List Int) :
    List (Fin (width * height)) :=
  (Sprite.cells sprite).map fun (row, column) => position wide high (x + column) (y + row)

theorem paint_eq (wide : 0 < width) (high : 0 < height) (display : Display width height)
    (x y : Int) (sprite : List Int) :
    display.paint wide high x y sprite = display.flipAll (places wide high x y sprite) := by
  have folded : ∀ (cells : List (ℕ × ℕ)) (collision : Bool) (shown : Display width height),
      cells.foldl
          (fun (collision, shown) (row, column) =>
            let (lit, flipped) := shown.flip (position wide high (x + column) (y + row))
            (collision || lit, flipped))
          (collision, shown) =
        let after := shown.flipAll
          (cells.map fun (row, column) => position wide high (x + column) (y + row))
        (collision || after.1, after.2) := by
    intro cells
    induction cells with
    | nil =>
        intro collision shown
        simp only [List.foldl_nil, List.map_nil, flipAll, Bool.or_false]
    | cons cell rest ih =>
        intro collision shown
        simp only [List.foldl_cons, List.map_cons, flipAll, ih, Bool.or_assoc]
  exact (folded (Sprite.cells sprite) false display).trans (by simp only [Bool.false_or]; rfl)

theorem position_eq_iff (wide : 0 < width) (high : 0 < height) {x y column row : Int} :
    position wide high x y = position wide high column row ↔
      x % width = column % width ∧ y % height = row % height := by
  have bounds : ∀ (number : Int) {size : ℕ}, 0 < size →
      0 ≤ number % size ∧ number % size < size := by
    intro number size positive
    have cast : (0 : Int) < size := Int.natCast_pos.mpr positive
    exact ⟨Int.emod_nonneg _ cast.ne', Int.emod_lt_of_pos _ cast⟩
  have ⟨xNonneg, xInside⟩ := bounds x wide
  have ⟨columnNonneg, columnInside⟩ := bounds column wide
  have ⟨yNonneg, _⟩ := bounds y high
  have ⟨rowNonneg, _⟩ := bounds row high
  constructor
  · intro same
    have places := congrArg Fin.val same
    change (y % height).toNat * width + (x % width).toNat =
      (row % height).toNat * width + (column % width).toNat at places
    -- A place is found again by quotient and remainder.
    have columns := congrArg (· % width) places
    have rows := congrArg (· / width) places
    simp only [Nat.mul_comm _ width, Nat.mul_add_div wide, Nat.mul_add_mod_self_left]
      at columns rows
    rw [Nat.mod_eq_of_lt (by omega), Nat.mod_eq_of_lt (by omega)] at columns
    rw [Nat.div_eq_of_lt (by omega), Nat.div_eq_of_lt (by omega)] at rows
    omega
  · rintro ⟨columns, rows⟩
    apply Fin.ext
    change (y % height).toNat * width + (x % width).toNat = _
    rw [columns, rows]
    rfl

/-- Where a pixel is kept, as an index that both wrapped coordinates go into. -/
theorem val_position (wide : 0 < width) (high : 0 < height) (x y : Int) :
    ((position wide high x y).val : Int) = y % height * width + x % width := by
  have column := Int.emod_nonneg x (b := (width : Int)) (by omega)
  have row := Int.emod_nonneg y (b := (height : Int)) (by omega)
  change (((y % height).toNat * width + (x % width).toNat : ℕ) : Int) = _
  rw [Int.natCast_add, Int.natCast_mul, Int.toNat_of_nonneg row, Int.toNat_of_nonneg column]

/-- A pixel is flipped once for every set bit that comes to lie on it. -/
theorem count_places (wide : 0 < width) (high : 0 < height) (x y : Int) (sprite : List Int)
    {column row : ℕ} (inRow : column < width) (inColumn : row < height) :
    (places wide high x y sprite).count (position wide high column row) =
      (Sprite.hits sprite width height x y column row).card := by
  have columnMod : (column : Int) % width = column :=
    Int.emod_eq_of_lt (Int.natCast_nonneg column) (Int.ofNat_lt.mpr inRow)
  have rowMod : (row : Int) % height = row :=
    Int.emod_eq_of_lt (Int.natCast_nonneg row) (Int.ofNat_lt.mpr inColumn)
  unfold places Sprite.hits
  rw [List.count, List.countP_map, Sprite.countP_cells]
  congr 1
  refine Finset.filter_congr fun cell _ => ?_
  rw [Function.comp_apply, beq_iff_eq, position_eq_iff, columnMod, rowMod]

theorem places_wrapped (wide : 0 < width) (high : 0 < height) (x y across along : Int)
    (sprite : List Int) :
    places wide high (x + across * width) (y + along * height) sprite =
      places wide high x y sprite := by
  refine List.map_congr_left fun cell _ => ?_
  rw [position_eq_iff, Int.add_right_comm x, Int.add_right_comm y, Int.add_mul_emod_self_right,
    Int.add_mul_emod_self_right]
  exact ⟨rfl, rfl⟩

theorem pixel_of_sized (wide : 0 < width) (high : 0 < height) (display : Display width height)
    (x y : Int) : display.pixel x y = .ok (display.pixels.get (position wide high x y)) :=
  dif_pos ⟨wide, high⟩

theorem pixel_dark (wide : 0 < width) (high : 0 < height) (x y : Int) :
    (dark : Display width height).pixel x y = .ok false := by
  rw [pixel_of_sized wide high]
  exact congrArg Except.ok (pixels_dark _)

theorem draw_of_sized (wide : 0 < width) (high : 0 < height) (display : Display width height)
    (x y : Int) (sprite : List Int) :
    display.draw x y sprite = .ok (display.flipAll (places wide high x y sprite)) := by
  rw [draw, dif_pos ⟨wide, high⟩, paint_eq]

theorem pixel_flipAll_places (wide : 0 < width) (high : 0 < height)
    (display : Display width height) (x y : Int) (sprite : List Int) {column row : ℕ}
    (inRow : column < width) (inColumn : row < height) :
    ∃ lit, display.pixel column row = .ok lit ∧
      (display.flipAll (places wide high x y sprite)).2.pixel column row =
        .ok (lit ^^ decide (Odd (Sprite.hits sprite width height x y column row).card)) := by
  refine ⟨_, pixel_of_sized wide high display column row, ?_⟩
  rw [pixel_of_sized wide high, pixels_flipAll, count_places wide high x y sprite inRow inColumn]

/-- Drawing never fails on a display that has a row and a column. It flips every pixel as often
as set bits of the sprite come to lie on it, and so it is undone by drawing again, it does not
matter in which order two sprites are drawn, and the place may be any number of times around
the display away. The same is drawn if the sides of the display are given as integers. -/
theorem draw_flips_by_parity (wide : 0 < width) (high : 0 < height)
    (display : Display width height) (x y : Int) (sprite : List Int) :
    ∃ collision drawn, display.draw x y sprite = .ok (collision, drawn) ∧
      (∀ column < width, ∀ row < height, ∃ lit, display.pixel column row = .ok lit ∧
        drawn.pixel column row =
          .ok (lit ^^ decide (Odd (Sprite.hits sprite width height x y column row).card))) ∧
      (∀ cell ∈ Sprite.bits sprite,
        let index := (y + cell.1) % height * width + (x + cell.2) % width
        (position wide high (x + cell.2) (y + cell.1)).val = index ∧
          0 ≤ index ∧ index < width * height) ∧
      (∃ again, drawn.draw x y sprite = .ok (again, display)) ∧
      (∀ otherX otherY otherSprite, ∃ other both first second third,
        display.draw otherX otherY otherSprite = .ok (first, other) ∧
          drawn.draw otherX otherY otherSprite = .ok (second, both) ∧
          other.draw x y sprite = .ok (third, both)) ∧
      (∀ across along : Int,
        display.draw (x + across * width) (y + along * height) sprite = .ok (collision, drawn)) ∧
      (⟨display⟩ : SignedDisplay width height).draw x y sprite = .ok (collision, ⟨drawn⟩) := by
  refine ⟨_, _, draw_of_sized wide high display x y sprite, ?_, ?_, ?_, ?_, ?_, ?_⟩
  · intro column inRow row inColumn
    exact pixel_flipAll_places wide high display x y sprite inRow inColumn
  · intro cell _
    have stored := val_position wide high (x + cell.2) (y + cell.1)
    have inside := (position wide high (x + cell.2) (y + cell.1)).isLt
    refine ⟨stored, ?_, ?_⟩
    · rw [← stored]
      exact Int.natCast_nonneg _
    · rw [← stored]
      exact_mod_cast inside
  · rw [draw_of_sized wide high]
    exact ⟨_, congrArg Except.ok (Prod.ext rfl (flipAll_again display _))⟩
  · intro otherX otherY otherSprite
    simp only [draw_of_sized wide high]
    exact ⟨_, _, _, _, _, rfl, rfl, congrArg Except.ok (Prod.ext rfl (flipAll_comm display _ _))⟩
  · intro across along
    rw [draw_of_sized wide high, places_wrapped]
  · rw [SignedDisplay.draw_ofNat wide high, draw_of_sized wide high]
    rfl

/-- Three rows that overlap themselves on a display of three columns and two rows. Four set bits
come to lie on one pixel and three on another, so only that one is lit. -/
theorem draw_flips_by_parity_of_overlap :
    ∃ collision drawn,
      (dark : Display 3 2).draw (-1) 5 [0xFF, 0x80, 0x80] = .ok (collision, drawn) ∧
        drawn.pixel (2 : ℕ) (1 : ℕ) = .ok false ∧ drawn.pixel (0 : ℕ) (1 : ℕ) = .ok true ∧
        ∃ again, drawn.draw (-1) 5 [0xFF, 0x80, 0x80] = .ok (again, dark) := by
  obtain ⟨collision, drawn, done, flipped, _, restored, _⟩ :=
    draw_flips_by_parity (by decide) (by decide) (dark : Display 3 2) (-1) 5 [0xFF, 0x80, 0x80]
  obtain ⟨first, isFirst, four⟩ := flipped 2 (by decide) 1 (by decide)
  obtain ⟨second, isSecond, three⟩ := flipped 0 (by decide) 1 (by decide)
  obtain rfl := Except.ok.inj ((pixel_dark (by decide) (by decide) _ _).symm.trans isFirst)
  obtain rfl := Except.ok.inj ((pixel_dark (by decide) (by decide) _ _).symm.trans isSecond)
  refine ⟨collision, drawn, done, four.trans ?_, three.trans ?_, restored⟩
  · exact congrArg Except.ok (by decide)
  · exact congrArg Except.ok (by decide)

end Display

end Chip8
