import Chip8.Text.Hex
import Chip8.Text.Numeral
import Chip8.Text.Quoted

/-!
# Addresses and address ranges as typed

Addresses are typed in hexadecimal, and a range as its first and its last
address around a colon. Ranges that overlap or touch are merged, so that every
address is listed once and in ascending order.
-/

namespace Chip8

/-- The addresses from the first to the last, both included. -/
structure AddressRange where
  first : Int
  last : Int
deriving DecidableEq, Repr

namespace AddressRange

/-- Why a typed text is no address or no range. -/
inductive Misuse where
  | notHexadecimal (typed : String)
  | outside (trimmed : String) (limit : Int)
  | notTwoParts (typed : String)
  | reversed
deriving DecidableEq, Repr

def Misuse.message : Misuse → String
  | notHexadecimal typed => "not a hexadecimal value: " ++ Text.quoted typed
  | outside trimmed limit => trimmed ++ " is outside 0.." ++ Hex.paddedInt 1 limit
  | notTwoParts typed => "expected START:END, got " ++ Text.quoted typed
  | reversed => "range end lies before its start"

/-- The highest address of a standard memory. -/
def highest : Nat := 0xFFF

/-- Drop the mark of a hexadecimal number. -/
def dropMark : List Char → List Char
  | '0' :: 'x' :: rest => rest
  | '0' :: 'X' :: rest => rest
  | text => text

/-- Read a hexadecimal number between zero and a limit. -/
def readHex (limit : Int) (typed : String) : Except Misuse Int :=
  let trimmed := Text.trim typed.toList
  match Text.Numeral.hexInteger? (dropMark trimmed) with
  | none => .error (.notHexadecimal typed)
  | some value =>
    if value < 0 ∨ limit < value then .error (.outside (String.ofList trimmed) limit)
    else .ok value

/-- Read an address of a standard memory. -/
def readAddress (typed : String) : Except Misuse Int := readHex highest typed

/-- Cut a text at its first colon. -/
def cut? (text : List Char) : Option (List Char × List Char) :=
  match text.dropWhile (· != ':') with
  | [] => none
  | _ :: rest => some (text.takeWhile (· != ':'), rest)

/-- Read a range. -/
def ofText (typed : String) : Except Misuse AddressRange := do
  match cut? typed.toList with
  | none => throw (.notTwoParts typed)
  | some (left, right) =>
    let first ← readAddress (String.ofList left)
    let last ← readAddress (String.ofList right)
    if last < first then throw .reversed
    pure ⟨first, last⟩

/-- The number of addresses. -/
def length (range : AddressRange) : Int := range.last - range.first + 1

/-- Whether an address lies in the range. -/
def holds (range : AddressRange) (address : Int) : Bool :=
  range.first ≤ address && address ≤ range.last

/-- Addresses in one row of a listing. -/
def rowLength : Nat := 16

/-- The multiple of the row length at or below the first address. -/
def base (range : AddressRange) : Int := range.first - range.first % rowLength

/-- The number of rows that start at or below the last address. -/
def rowCount (range : AddressRange) : Nat :=
  ((range.last + rowLength - range.base) / rowLength).toNat

/-- A number of rows from an address on. -/
def rowsFrom (base : Int) : Nat → List Int
  | 0 => []
  | count + 1 => base :: rowsFrom (base + rowLength) count

/-- The multiples of the row length from the one at or below the first address
up to the last address. -/
def rows (range : AddressRange) : List Int := rowsFrom range.base range.rowCount

/-- The order of ranges: by the first address, then by the last. -/
def le (a b : AddressRange) : Bool :=
  a.first < b.first || (a.first == b.first && a.last ≤ b.last)

/-- Join a range to the merged ones below it, of which the highest comes first. -/
def join : List AddressRange → AddressRange → List AddressRange
  | [], range => [range]
  | highest :: lower, range =>
    if range.first ≤ highest.last + 1 then ⟨highest.first, max highest.last range.last⟩ :: lower
    else range :: highest :: lower

/-- All addresses of a standard memory. -/
def full : AddressRange := ⟨0, highest⟩

/-- Sort ranges and join those that overlap or touch. No range means all addresses. -/
def merge (ranges : List AddressRange) : List AddressRange :=
  if ranges.isEmpty then [full] else ((ranges.mergeSort le).foldl join []).reverse

end AddressRange

end Chip8
