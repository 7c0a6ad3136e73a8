import Mathlib.Data.Rat.Floor

namespace FixLoop
namespace Library
namespace Double

/-!
# Double-precision numbers

A finite double is represented by its rational value.  A value is rounded to
a multiple of the spacing of the doubles around it, half to even.
-/

/-- The exponent of the largest power of two that is at most the value. -/
def exponent (value : ℚ) : Int :=
  let estimate : Int := (Nat.log2 value.num.natAbs : Int) - Nat.log2 value.den
  if (2 : ℚ) ^ estimate ≤ |value| then estimate else estimate - 1

/-- The distance of neighbouring doubles. -/
def spacing (value : ℚ) : ℚ :=
  (2 : ℚ) ^ max (exponent value - 52) (-1074)

/-- The nearest integer, half to even. -/
def nearest (value : ℚ) : Int :=
  let below := ⌊value⌋
  if value - below < 1 / 2 then below
  else if 1 / 2 < value - below then below + 1
  else if below % 2 = 0 then below else below + 1

def maxExponent : Nat := 1024

/-- All doubles are smaller than this. -/
def limit : ℚ :=
  ((2 ^ maxExponent : Nat) : ℚ)

/-- The nearest double, unless it is too large. -/
def round (value : ℚ) : Option ℚ :=
  if value = 0 then some 0
  else
    let rounded := nearest (value / spacing value) * spacing value
    if |rounded| < limit then some rounded else none

/-- `int(value)` of a double. -/
def truncate (value : ℚ) : Int :=
  if 0 ≤ value then ⌊value⌋ else ⌈value⌉

/-- The double product of the literal and an integer. -/
def scale (literal : ℚ) (factor : Int) : Option ℚ :=
  (round literal).bind fun ratio => (round factor).bind fun number => round (ratio * number)

end Double
end Library
end FixLoop
