import Chip8.Number
import Chip8.Rom

/-!
# Endings

A program that ends with an exit code has judged its own run. A breakdown is the
other way to end: something that no code stands for went wrong, and the program
stops where it is.
-/

namespace Chip8

/-- Why a program breaks down. -/
inductive Breakdown where
  /-- A file cannot be written. -/
  | disk (failure : Disk.Failure)
  /-- No file can have the path that was given. -/
  | noPath
  /-- A calculation has no result. -/
  | number (misuse : Number.Misuse)
  /-- A text was expected from an option that was given without a value. -/
  | textExpected
  /-- A number or a path was expected from an option that was given without a value. -/
  | valueExpected
deriving DecidableEq, Repr

def Breakdown.message : Breakdown → String
  | disk failure => failure.reason
  | noPath => Rom.Refusal.noPath.message
  | number misuse => misuse.message
  | textExpected => "a text is missing"
  | valueExpected => "a value is missing"

/-- How a program ends. -/
inductive Ending where
  | exit (code : Nat)
  | broken (breakdown : Breakdown)
deriving DecidableEq, Repr

end Chip8
