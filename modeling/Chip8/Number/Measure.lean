import Chip8.Number.Rounding

/-!
# Measures

A measured quantity is a binary fraction of 53 bits below two to the power of
1024. What is larger is infinite on its side of zero, and what has no answer,
such as the difference of two infinite measures, is undefined. Arithmetic on
fractions is exact and rounded once.
-/

namespace Chip8

/-- A measured quantity. -/
inductive Measure where
  | finite (value : Rat)
  | infinite (negative : Bool)
  | undefined
deriving DecidableEq, Repr, Inhabited

namespace Measure

/-- The least power of two that is beyond all finite measures. -/
def reach : Rat := Rounding.twoPow 1024

/-- The nearest measure of a rational number. -/
def ofRat (value : Rat) : Measure :=
  let nearest := Rounding.toBinary value
  if reach ≤ nearest then infinite false
  else if nearest ≤ -reach then infinite true
  else finite nearest

/-- An infinite measure scaled by a finite quantity. -/
def scaleInfinite (negative : Bool) (factor : Rat) : Measure :=
  if factor = 0 then undefined else infinite (negative != decide (factor < 0))

def add : Measure → Measure → Measure
  | finite a, finite b => ofRat (a + b)
  | infinite s, infinite t => if s = t then infinite s else undefined
  | infinite s, finite _ | finite _, infinite s => infinite s
  | undefined, _ | _, undefined => undefined

def mul : Measure → Measure → Measure
  | finite a, finite b => ofRat (a * b)
  | infinite s, infinite t => infinite (s != t)
  | infinite s, finite q | finite q, infinite s => scaleInfinite s q
  | undefined, _ | _, undefined => undefined

/-- The quotient by a measure other than zero. -/
def div : Measure → Measure → Measure
  | finite a, finite b => ofRat (a / b)
  | infinite s, finite b => infinite (s != decide (b < 0))
  | finite _, infinite _ => finite 0
  | infinite _, infinite _ => undefined
  | undefined, _ | _, undefined => undefined

/-- The order of measures. An undefined one stands in no order. -/
def le : Measure → Measure → Bool
  | undefined, _ | _, undefined => false
  | infinite true, _ | _, infinite false => true
  | finite a, finite b => a ≤ b
  | _, _ => false

end Measure

end Chip8
