import Chip8.Text.Blank
import Chip8.Text.Digit

/-!
# Numerals

Reading integers and decimal fractions as people type them: blanks around, a
sign, digits of any script with single underscores between them. In base
sixteen the numeral may carry its own base mark, and one underscore may follow
the mark.
-/

namespace Chip8.Text.Numeral

/-- The blanks allowed around a numeral. Information separators are not among them. -/
def isOuterBlank (c : Char) : Bool := isBlank c && !(0x1C ≤ c.toNat && c.toNat ≤ 0x1F)

/-- Write each decimal digit in its European form and drop the outer blanks, so
that only one form of each numeral is left to read. -/
def normalize (text : List Char) : List Char :=
  (trimBy isOuterBlank text).map fun c =>
    match decimalValue? c with
    | some value => Char.ofNat ('0'.toNat + value)
    | none => c

/-- Continue a positional numeral after a digit: further digits, each with at
most one underscore before it. -/
def afterDigit (base value : Nat) : List Char → Option Nat
  | [] => some value
  | '_' :: c :: rest => do
    let digit ← digitValue? base c
    afterDigit base (base * value + digit) rest
  | c :: rest => do
    let digit ← digitValue? base c
    afterDigit base (base * value + digit) rest

/-- A positional numeral starts with a digit. -/
def digits? (base : Nat) : List Char → Option Nat
  | [] => none
  | c :: rest => do
    let digit ← digitValue? base c
    afterDigit base digit rest

/-- Split a sign off; its absence counts as plus. -/
def splitSign : List Char → Bool × List Char
  | '-' :: rest => (true, rest)
  | '+' :: rest => (false, rest)
  | rest => (false, rest)

/-- Apply a sign. -/
def signed (negative : Bool) (value : Nat) : Int := if negative then -value else value

/-- A base-sixteen numeral, after its sign: an optional mark, and after the mark
an optional underscore. -/
def hexDigits? : List Char → Option Nat
  | '0' :: 'x' :: '_' :: rest => digits? 16 rest
  | '0' :: 'X' :: '_' :: rest => digits? 16 rest
  | '0' :: 'x' :: rest => digits? 16 rest
  | '0' :: 'X' :: rest => digits? 16 rest
  | rest => digits? 16 rest

/-- Read a base-sixteen integer. -/
def hexInteger? (text : List Char) : Option Int :=
  let (negative, rest) := splitSign (normalize text)
  (hexDigits? rest).map (signed negative)

/-- The longest decimal integer that is read, in digits. -/
def longestInteger : Nat := 4300

/-- Read a decimal integer, unless it has too many digits. -/
def integer? (text : List Char) : Option Int :=
  let (negative, rest) := splitSign (normalize text)
  if (rest.filter (· != '_')).length ≤ longestInteger then
    (digits? 10 rest).map (signed negative)
  else none

/-- A real quantity as typed: a decimal fraction, a value beyond all fractions,
or no value at all. -/
inductive Real where
  /-- The digits times ten to the power of the exponent. -/
  | decimal (digits : Int) (exponent : Int)
  | infinite (negative : Bool)
  | undefined
deriving DecidableEq, Repr

/-- An underscore joins two digits and stands nowhere else. -/
def joinsDigits : List Char → Bool
  | a :: '_' :: c :: rest => a.isDigit && c.isDigit && joinsDigits (c :: rest)
  | '_' :: _ => false
  | [_, '_'] => false
  | _ :: rest => joinsDigits rest
  | [] => true

/-- An exponent part: its mark, a sign and digits. No part at all is exponent zero. -/
def exponent? : List Char → Option Int
  | [] => some 0
  | c :: rest =>
    if c = 'e' ∨ c = 'E' then
      let (negative, rest) := splitSign rest
      if rest.all Char.isDigit then (digits? 10 rest).map (signed negative) else none
    else none

/-- The digits before and after the point. One of the two sides may be empty. -/
def fraction? (rest : List Char) : Option (Nat × Int) :=
  let whole := rest.takeWhile Char.isDigit
  let afterWhole := rest.dropWhile Char.isDigit
  let (part, tail) :=
    match afterWhole with
    | '.' :: more => (more.takeWhile Char.isDigit, more.dropWhile Char.isDigit)
    | other => ([], other)
  do
    let value ← digits? 10 (whole ++ part)
    let exponent ← exponent? tail
    pure (value, exponent - part.length)

/-- Read a real quantity. -/
def real? (text : List Char) : Option Real :=
  let shown := normalize text
  if joinsDigits shown then
    let (negative, rest) := splitSign (shown.filter (· != '_'))
    let word := String.ofList (rest.map Char.toLower)
    if word = "inf" ∨ word = "infinity" then
      if shown.contains '_' then none else some (.infinite negative)
    else if word = "nan" then
      if shown.contains '_' then none else some .undefined
    else (fraction? rest).map fun (value, exponent) => .decimal (signed negative value) exponent
  else none

end Chip8.Text.Numeral
