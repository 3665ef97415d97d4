import Chip8.Scalar

/-!
Floating-point time: binary64 numbers as scalars.

The integer part is read off the bits of the number, so it is exact however large
the number is.
-/

namespace Chip8

def Binary64.fractionRange : Nat := 0x10000000000000

/-- The integer part of a number, from its sign, its exponent and its significand. -/
def Binary64.integerPart (value : Float) : Except Fault Int :=
  let bits := value.toBits.toNat
  let exponent := bits / fractionRange % 2048
  let fraction := bits % fractionRange
  if exponent = 2047 then
    .error (if fraction = 0 then .tooLarge else .notANumber)
  else
    let significand := if exponent = 0 then fraction else fractionRange + fraction
    let magnitude : Nat := if exponent < 1075 then significand >>> (1075 - exponent)
      else significand <<< (exponent - 1075)
    .ok (if bits ≥ 2048 * fractionRange then -(magnitude : Int) else magnitude)

instance : Scalar Float where
  ofInt := Float.ofInt
  isFinite := Float.isFinite
  less first second := first < second
  integerPart := Binary64.integerPart

end Chip8
