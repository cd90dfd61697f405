import Chip8.AddressRange
import Chip8.Memory

/-!
# Memory dumps

A dump lists memory as a table, sixteen bytes in a row, or hands out the bytes
themselves. The table shows whole rows, also where a range starts or ends
within one.
-/

namespace Chip8.HexDump

/-- The head of a table: the offsets within a row. -/
def header : String :=
  "ADDR " ++ " ".intercalate
    ((List.range AddressRange.rowLength).map fun column => "+" ++ Hex.padded 1 column)

/-- The row of bytes at an address. -/
def row (memory : Memory) (address : Int) : Except Fault String :=
  (memory.readBlock address AddressRange.rowLength).map fun bytes =>
    Hex.paddedInt 4 address ++ " " ++
      " ".intercalate (bytes.map fun value => Hex.padded 2 value.toNat)

/-- A number of rows from an address on, up to the first that cannot be read. -/
def rowsFrom (memory : Memory) (base : Int) : Nat → Except Fault (List String)
  | 0 => pure []
  | count + 1 => do
    let first ← row memory base
    let rest ← rowsFrom memory (base + AddressRange.rowLength) count
    pure (first :: rest)

/-- The rows of a table are those of its addresses, one after the other. -/
theorem rowsFrom_eq_mapM (memory : Memory) (base : Int) (count : Nat) :
    rowsFrom memory base count = (AddressRange.rowsFrom base count).mapM (row memory) := by
  induction count generalizing base with
  | zero => rfl
  | succ count inductionHypothesis =>
    simp [rowsFrom, AddressRange.rowsFrom, inductionHypothesis]

/-- The table of one range. -/
def table (memory : Memory) (range : AddressRange) : Except Fault String :=
  (rowsFrom memory range.base range.rowCount).map fun rows => "\n".intercalate (header :: rows)

/-- The tables of some ranges, with an empty line between two of them. -/
def text (memory : Memory) (ranges : List AddressRange) : Except Fault String :=
  (ranges.mapM (table memory)).map fun tables => "\n\n".intercalate tables

/-- The bytes of some ranges, one range after the other. -/
def bytes (memory : Memory) (ranges : List AddressRange) : Except Fault (List UInt8) :=
  (ranges.mapM fun range => memory.readBlock range.first range.length.toNat).map List.flatten

end Chip8.HexDump
