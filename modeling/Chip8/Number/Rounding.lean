/-!
# Rounding

Two grids matter: the integers, and the binary fractions with 53 significant
bits in which measured quantities are kept. On both, the nearest point wins and
a tie goes to the even neighbour.
-/

namespace Chip8.Rounding

/-- The integer nearest to a quotient. Comparing twice the remainder with the
denominator tells on which side of the midpoint the quotient lies. -/
def quotient (numerator : Int) (denominator : Nat) : Int :=
  let below := numerator / denominator
  let twice := 2 * (numerator % denominator)
  if twice < denominator then below
  else if denominator < twice then below + 1
  else below + below % 2

/-- The integer nearest to a rational number. -/
def toInteger (value : Rat) : Int := quotient value.num value.den

/-- The integer next to a rational number on the side of zero. -/
def towardZero (value : Rat) : Int := value.num.tdiv value.den

/-- Significant bits of a measured quantity. -/
def precision : Nat := 53

/-- The finest binary grid: no quantity is resolved below this power of one half. -/
def finestScale : Int := 1074

/-- Two to an integer power. -/
def twoPow (exponent : Int) : Rat :=
  if 0 ≤ exponent then (Nat.pow 2 exponent.toNat : Rat)
  else 1 / (Nat.pow 2 (-exponent).toNat : Rat)

/-- The scale at which a nonzero magnitude has exactly `precision` bits before
its binary point, or the finest scale. The logarithms of numerator and
denominator give it up to one step, which the comparison settles. -/
def scaleOf (magnitude : Rat) : Int :=
  let estimate : Int :=
    (precision : Int) - 1 - ((magnitude.num.natAbs.log2 : Int) - (magnitude.den.log2 : Int))
  let scale :=
    if magnitude * twoPow estimate < twoPow (precision - 1) then estimate + 1 else estimate
  if finestScale < scale then finestScale else scale

/-- The nearest binary fraction of `precision` bits. The exponent is not bounded
above, so that every quantity has a nearest one. -/
def toBinary (value : Rat) : Rat :=
  if value = 0 then 0
  else
    let scale := scaleOf (if value < 0 then -value else value)
    (toInteger (value * twoPow scale) : Rat) * twoPow (-scale)

end Chip8.Rounding
