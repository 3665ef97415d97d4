import Chip8.Proofs.Display.Torus
import Mathlib.Algebra.BigOperators.Fin
import Mathlib.Data.Int.ModEq

/-!
Collisions.

The collision of a drawing is told from what each pixel was at its turn. On a display that is
at least as wide as a sprite and as high, no two set bits come to lie on the same pixel, so
what a pixel was at its turn is what it was before the drawing. There is a collision exactly
if a lit pixel goes dark, and the pixels that go dark make up the difference between the set
bits and the pixels gained.
-/

namespace Chip8.Display

variable {width height : ℕ}

/-- The pixels that are lit before and dark after. -/
def switchedOff (before after : Display width height) : Finset (Fin (width * height)) :=
  Finset.univ.filter fun place => before.pixels.get place = true ∧ after.pixels.get place = false

theorem mem_switchedOff {before after : Display width height} {place : Fin (width * height)} :
    place ∈ before.switchedOff after ↔
      before.pixels.get place = true ∧ after.pixels.get place = false := by
  unfold switchedOff
  rw [Finset.mem_filter, and_iff_right (Finset.mem_univ place)]

theorem switchedOff_nonempty_of_pixel (wide : 0 < width) (high : 0 < height)
    {before after : Display width height} {x y : Int} (wasLit : before.pixel x y = .ok true)
    (isDark : after.pixel x y = .ok false) : (before.switchedOff after).Nonempty := by
  rw [pixel_of_sized wide high, Except.ok.injEq] at wasLit isDark
  exact ⟨_, mem_switchedOff.mpr ⟨wasLit, isDark⟩⟩

theorem lit_eq_sum (display : Display width height) :
    display.lit = ∑ place : Fin (width * height), (display.pixels.get place).toNat := by
  have counted : ∀ (pixels : List Bool) (start : ℕ),
      pixels.foldl (fun count pixel => if pixel then count + 1 else count) start =
        start + (pixels.map Bool.toNat).sum := by
    intro pixels
    induction pixels with
    | nil => exact fun _ => rfl
    | cons pixel rest ih =>
        intro start
        rw [List.foldl_cons, ih, List.map_cons, List.sum_cons]
        cases pixel with
        | true => exact Nat.add_assoc start 1 _
        | false => rw [Bool.toNat_false, Nat.zero_add, if_neg Bool.false_ne_true]
  have listed : display.pixels.toList = List.ofFn fun place => display.pixels[place.val] := by
    rw [← Vector.toList_ofFn, Vector.ofFn_getElem]
  unfold lit
  rw [← Array.foldl_toList, counted, Nat.zero_add]
  change (display.pixels.toList.map Bool.toNat).sum = _
  rw [listed, List.map_ofFn, List.sum_ofFn]
  rfl

/-! ### Dark displays -/

theorem switchedOff_dark (after : Display width height) : dark.switchedOff after = ∅ := by
  refine Finset.eq_empty_of_forall_notMem fun place member => ?_
  have wasLit := (mem_switchedOff.mp member).1
  rw [pixels_dark] at wasLit
  cases wasLit

/-! ### Distinct pixels -/

section Distinct

variable {places : List (Fin (width * height))}

theorem pixels_flipAll_of_nodup (display : Display width height) (distinct : places.Nodup)
    (place : Fin (width * height)) :
    (display.flipAll places).2.pixels.get place =
      (display.pixels.get place ^^ decide (place ∈ places)) := by
  rw [pixels_flipAll, distinct.count]
  by_cases flipped : place ∈ places
  · simp [flipped]
  · simp [flipped]

/-- A pixel that has not had its turn is as it was. -/
theorem flipAll_collides (display : Display width height) (distinct : places.Nodup) :
    (display.flipAll places).1 = true ↔ ∃ place ∈ places, display.pixels.get place = true := by
  induction places generalizing display with
  | nil => simp only [flipAll, Bool.false_eq_true, List.not_mem_nil, false_and, exists_false]
  | cons first rest ih =>
      obtain ⟨apart, distinctRest⟩ := List.nodup_cons.mp distinct
      change (display.pixels.get first || ((display.flip first).2.flipAll rest).1) = true ↔ _
      rw [Bool.or_eq_true, ih _ distinctRest, List.exists_mem_cons_iff]
      refine or_congr_right (exists_congr fun place => and_congr_right fun later => ?_)
      have untouched : first ≠ place := fun same => apart (same ▸ later)
      rw [pixels_flip, decide_eq_false untouched, Bool.xor_false]

theorem flipAll_collides_iff (display : Display width height) (distinct : places.Nodup) :
    (display.flipAll places).1 = true ↔
      (display.switchedOff (display.flipAll places).2).Nonempty := by
  rw [flipAll_collides display distinct]
  refine exists_congr fun place => ?_
  rw [mem_switchedOff, pixels_flipAll_of_nodup display distinct, and_comm]
  refine and_congr_right fun wasLit => ?_
  rw [wasLit, Bool.true_xor, Bool.not_eq_false', decide_eq_true_iff]

/-- Every flip lights a pixel or switches one off. -/
theorem lit_flipAll (display : Display width height) (distinct : places.Nodup) :
    (display.flipAll places).2.lit + 2 * (display.switchedOff (display.flipAll places).2).card =
      display.lit + places.length := by
  have flips : places.length = ∑ place, if place ∈ places then 1 else 0 := by
    rw [← List.toFinset_card_of_nodup distinct, Finset.card_eq_sum_ones, ← Finset.sum_filter]
    congr 1
    ext place
    simp only [List.mem_toFinset, Finset.mem_filter, Finset.mem_univ, true_and]
  rw [lit_eq_sum, lit_eq_sum, flips, switchedOff, Finset.card_filter, Finset.mul_sum,
    ← Finset.sum_add_distrib, ← Finset.sum_add_distrib]
  refine Finset.sum_congr rfl fun place _ => ?_
  rw [pixels_flipAll_of_nodup display distinct]
  by_cases flipped : place ∈ places
  · cases display.pixels.get place <;> simp [flipped]
  · cases display.pixels.get place <;> simp [flipped]

end Distinct

/-! ### Sprites that fit on the display -/

/-- Two columns less than a turn apart that fall together are the same. -/
theorem eq_of_wrapped_eq {origin : Int} {size first second : ℕ} (firstInside : first < size)
    (secondInside : second < size) (same : (origin + first) % size = (origin + second) % size) :
    first = second := by
  have congruent : (first : Int) ≡ second [ZMOD size] := Int.ModEq.add_left_cancel' origin same
  exact (Int.natCast_modEq_iff.mp congruent).eq_of_lt_of_lt firstInside secondInside

theorem nodup_places (wide : 0 < width) (high : 0 < height) (x y : Int) {sprite : List Int}
    (broad : 8 ≤ width) (tall : sprite.length ≤ height) :
    (places wide high x y sprite).Nodup := by
  refine (Sprite.nodup_cells sprite).map_on ?_
  rintro ⟨row, column⟩ inFirst ⟨otherRow, otherColumn⟩ inSecond same
  obtain ⟨columns, rows⟩ := (position_eq_iff wide high).mp same
  have inside : ∀ {row column : ℕ}, (row, column) ∈ Sprite.cells sprite →
      row < height ∧ column < width := by
    intro row column member
    have cell := (Finset.mem_filter.mp (Sprite.mem_cells.mp member)).1
    obtain ⟨inRows, inColumns⟩ := Finset.mem_product.mp cell
    exact ⟨(Finset.mem_range.mp inRows).trans_le tall,
      (Finset.mem_range.mp inColumns).trans_le broad⟩
  rw [Prod.mk.injEq]
  exact ⟨eq_of_wrapped_eq (inside inFirst).1 (inside inSecond).1 rows,
    eq_of_wrapped_eq (inside inFirst).2 (inside inSecond).2 columns⟩

theorem length_places (wide : 0 < width) (high : 0 < height) (x y : Int) (sprite : List Int) :
    (places wide high x y sprite).length = (Sprite.bits sprite).card := by
  unfold places
  rw [List.length_map, ← Sprite.toFinset_cells,
    List.toFinset_card_of_nodup (Sprite.nodup_cells sprite)]

end Chip8.Display
