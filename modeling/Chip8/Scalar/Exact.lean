import Chip8.Scalar

/-!
Exact time: rational numbers as scalars. No operation rounds and every integer
fits.
-/

namespace Chip8

instance : Scalar Rat where
  ofInt value := value
  isFinite _ := true
  less first second := decide (first < second)
  integerPart value := .ok (value.num.tdiv value.den)

end Chip8
