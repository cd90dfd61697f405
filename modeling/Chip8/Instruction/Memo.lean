import Chip8.Instruction

/-!
# The memo of decoded words

A program meets its words again and again, so what a word means is found once and then
remembered. One memo serves all machines, whatever their sets are and whichever of their
calls fail.

An entry stands under its word and its set, and not under an address, since a word means
the same wherever it is met. A word without meaning leaves no entry: its fault names the
address of the call, and the next call may come from another one.
-/

namespace Chip8

/-- A call for the meaning of a number, of which the low sixteen bits count, in the plain or
the extended set. The address is where the number was met. -/
structure Memo.Call where
  number : Int
  extended : Bool
  address : Int
deriving DecidableEq, Repr

/-- What has been decoded, the latest first. -/
structure Memo where
  entries : List ((Word × Bool) × Instruction)
deriving Repr

namespace Memo

def empty : Memo := ⟨[]⟩

/-- The word that a call asks for. -/
def Call.word (call : Call) : Word := .ofInt call.number

/-- What is remembered of a word in a set. -/
def find? (memo : Memo) (word : Word) (extended : Bool) : Option Instruction :=
  memo.entries.lookup (word, extended)

/-- Remember what a word means in a set. -/
def enter (memo : Memo) (word : Word) (extended : Bool) (instruction : Instruction) : Memo :=
  ⟨((word, extended), instruction) :: memo.entries⟩

/-- Answer a call from the memo, or else decode its word and remember what it means. -/
def decode (memo : Memo) (call : Call) : Except Fault Instruction × Memo :=
  match memo.find? call.word call.extended with
  | some instruction => (.ok instruction, memo)
  | none =>
    match Instruction.decode call.extended call.address call.word with
    | .ok instruction => (.ok instruction, memo.enter call.word call.extended instruction)
    | .error fault => (.error fault, memo)

/-- The answers to calls that are made one after the other. -/
def decodeAll (memo : Memo) : List Call → List (Except Fault Instruction)
  | [] => []
  | call :: rest => (memo.decode call).1 :: (memo.decode call).2.decodeAll rest

end Memo

end Chip8
