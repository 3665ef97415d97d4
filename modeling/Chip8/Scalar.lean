import Chip8.Fault

/-!
The arithmetic of time.

Clock readings, intervals and rates are values of a type of scalars. The program
runs on binary floating point; exact rationals are a second instance, in which
every conversion succeeds and no sum is rounded. Nothing outside the instances
depends on which of the two is used.
-/

namespace Chip8

class Scalar (Time : Type) extends Add Time, Sub Time, Mul Time, Div Time, BEq Time where
  ofInt : Int → Time
  isFinite : Time → Bool
  less : Time → Time → Bool
  /-- The integer between zero and a scalar that lies nearest to the scalar. -/
  integerPart : Time → Except Fault Int

namespace Scalar

variable {Time : Type} [Scalar Time]

/-- An integer as a scalar, unless it is larger than every finite one. -/
def ofInteger (value : Int) : Except Fault Time :=
  let scalar : Time := ofInt value
  if isFinite scalar then .ok scalar else .error .tooLarge

def isZero (value : Time) : Bool :=
  value == ofInt 0

/-- The quotient of two scalars, unless the divisor is zero. -/
def quotient (dividend divisor : Time) : Except Fault Time :=
  if isZero divisor then .error .divisionByZero else .ok (dividend / divisor)

def ratio (numerator denominator : Int) : Time :=
  ofInt numerator / ofInt denominator

/-- The later of two times; the first unless the second is strictly later. -/
def later (first second : Time) : Time :=
  if less first second then second else first

end Scalar

end Chip8
