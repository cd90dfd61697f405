import Chip8.Text.Hex

/-!
# Faults of a running program

A program stops on a fault when an instruction cannot be carried out. Each
fault carries what a person needs to find its cause: the word and where it
stands, the address that was touched, or the depth that was reached.
-/

namespace Chip8

/-- Why an instruction could not be carried out. -/
inductive Fault where
  /-- The word at the address has no meaning. -/
  | unknownOpcode (word : UInt16) (address : Int)
  /-- No instruction can be fetched at an odd address or at the end of memory. -/
  | invalidFetch (address : UInt16)
  /-- The address cannot be read, or cannot be written. -/
  | memoryAccess (address : Int) (write : Bool)
  /-- A call would leave this many return addresses on the stack. -/
  | stackOverflow (depth : Nat)
  /-- A return found no return address. -/
  | stackUnderflow
deriving DecidableEq, Repr

namespace Fault

/-- The name of the kind of fault, as the window shows it. -/
def name : Fault → String
  | unknownOpcode .. => "UnknownOpcode"
  | invalidFetch .. => "InvalidFetch"
  | memoryAccess .. => "MemoryAccessError"
  | stackOverflow .. => "StackOverflow"
  | stackUnderflow => "StackUnderflow"

/-- The sentence that reports the fault. -/
def message : Fault → String
  | unknownOpcode word address =>
    "unknown opcode " ++ Hex.padded 4 word.toNat ++ " at " ++ Hex.paddedInt 3 address
  | invalidFetch address => "cannot fetch instruction at " ++ Hex.padded 4 address.toNat
  | memoryAccess address write =>
    "invalid memory " ++ (if write then "write" else "read") ++ " at " ++ Hex.paddedInt 4 address
  | stackOverflow depth => "call stack overflow (depth " ++ toString depth ++ ")"
  | stackUnderflow => "return with an empty call stack"

end Fault

end Chip8
