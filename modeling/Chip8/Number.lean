import Chip8.Number.Measure
import Chip8.Text.Numeral

/-!
# Rates and durations

A rate or a duration is an exact integer or a measured quantity. Integers stay
exact among themselves; as soon as a measured quantity takes part, both operands
are measured and the result is rounded once. An integer that is too large to be
measured ends a calculation, and so does a measure that has no nearest integer
where one is asked for.
-/

namespace Chip8

/-- An exact integer, or a measured quantity. -/
inductive Number where
  | whole (value : Int)
  | measured (value : Measure)
deriving DecidableEq, Repr, Inhabited

/-- Why a calculation has no result. -/
inductive Number.Misuse where
  /-- An integer is beyond all measures. -/
  | largeInteger
  /-- The quotient of two integers is beyond all measures. -/
  | largeQuotient
  /-- No integer is near an infinite measure. -/
  | infinite
  /-- No integer is near an undefined measure. -/
  | undefined
  /-- Whether the operands are whole decides on the wording. -/
  | zeroDivisor (whole : Bool)
deriving DecidableEq, Repr

def Number.Misuse.message : Number.Misuse → String
  | largeInteger => "int too large to convert to float"
  | largeQuotient => "integer division result too large for a float"
  | infinite => "cannot convert float infinity to integer"
  | undefined => "cannot convert float NaN to integer"
  | zeroDivisor true => "division by zero"
  | zeroDivisor false => "float division by zero"

namespace Number

/-- The quantity denoted. Here an integer is not rounded. -/
def denoted : Number → Measure
  | whole n => .finite n
  | measured m => m

/-- The quantity as measured: an integer moves to its nearest measure. -/
def measure : Number → Except Misuse Measure
  | measured m => .ok m
  | whole n =>
    match Measure.ofRat n with
    | .finite nearest => .ok (.finite nearest)
    | _ => .error .largeInteger

/-- The nearest measure of a rational number. -/
def ofRat (value : Rat) : Number := measured (.ofRat value)

def add : Number → Number → Except Misuse Number
  | whole a, whole b => .ok (whole (a + b))
  | a, b => return measured ((← a.measure).add (← b.measure))

def mul : Number → Number → Except Misuse Number
  | whole a, whole b => .ok (whole (a * b))
  | a, b => return measured ((← a.measure).mul (← b.measure))

/-- The quotient of two integers. It is rounded once, from its exact value. -/
def quotient (a b : Int) : Except Misuse Number :=
  if b = 0 then .error (.zeroDivisor true)
  else
    match Measure.ofRat ((a : Rat) / (b : Rat)) with
    | .finite nearest => .ok (measured (.finite nearest))
    | _ => .error .largeQuotient

/-- The quotient is always measured. -/
def div : Number → Number → Except Misuse Number
  | whole a, whole b => quotient a b
  | a, b => do
    let dividend ← a.measure
    let divisor ← b.measure
    if divisor = .finite 0 then throw (.zeroDivisor false)
    pure (measured (dividend.div divisor))

/-- An integer at a measure, by a rule for fractions. -/
def integerBy (rule : Rat → Int) : Number → Except Misuse Int
  | whole n => .ok n
  | measured (.finite value) => .ok (rule value)
  | measured (.infinite _) => .error .infinite
  | measured .undefined => .error .undefined

/-- The nearest integer, a tie to the even one. -/
def round : Number → Except Misuse Int := integerBy Rounding.toInteger

/-- Drop the fraction. -/
def truncate : Number → Except Misuse Int := integerBy Rounding.towardZero

/-- The nearest integer to a quantity in units of which so many make one. -/
def inUnits (units : Nat) (a : Number) : Except Misuse Int := do
  (← a.mul (whole units)).round

/-- Microseconds in a second. -/
def microseconds : Nat := 1000000

/-- An amount of seconds in whole microseconds. -/
def toMicroseconds : Number → Except Misuse Int := inUnits microseconds

/-- A number of equal quantities, together. -/
def times (count : Nat) : Number → Number
  | whole n => whole (count * n)
  | measured m => measured ((Measure.ofRat count).mul m)

/-- Comparison is between the quantities denoted, whatever their form. -/
def le (a b : Number) : Bool := a.denoted.le b.denoted

def isZero (a : Number) : Bool := a.denoted == .finite 0

/-- Whether a quantity may be a rate: it is not zero or below. -/
def isRate (a : Number) : Bool := !a.le (whole 0)

/-- The decimal exponents outside of which a fraction is beyond all finite
measures, or below the finest one. -/
def decimalReach : Int := 400

/-- Measure a decimal fraction. -/
def ofDecimal (digits exponent : Int) : Number :=
  let magnitude := (Nat.toDigits 10 digits.natAbs).length + exponent
  if digits = 0 ∨ magnitude < -decimalReach then measured (.finite 0)
  else if decimalReach < magnitude then measured (.infinite (digits < 0))
  else if 0 ≤ exponent then ofRat ((digits * Nat.pow 10 exponent.toNat : Int) : Rat)
  else ofRat ((digits : Rat) / (Nat.pow 10 (-exponent).toNat : Rat))

/-- Measure a quantity as typed. -/
def ofReal : Text.Numeral.Real → Number
  | .decimal digits exponent => ofDecimal digits exponent
  | .infinite negative => measured (.infinite negative)
  | .undefined => measured .undefined

end Number

end Chip8
