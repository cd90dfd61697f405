import Chip8.Fault

/-!
# The call stack

A bounded stack of return addresses. A push beyond the bound and a pop from an
empty stack are faults, and neither changes the stack.
-/

namespace Chip8

/-- Return addresses, the latest first, and how many fit. -/
structure CallStack where
  capacity : Nat
  entries : List UInt16
deriving DecidableEq, Repr

namespace CallStack

/-- The depth of a standard machine's stack. -/
def standardCapacity : Nat := 16

def empty : CallStack := ⟨standardCapacity, []⟩

/-- An empty stack for the given number of addresses; below one nothing fits. -/
def ofCapacity (capacity : Int) : CallStack := ⟨capacity.toNat, []⟩

/-- The number of return addresses. -/
def depth (stack : CallStack) : Nat := stack.entries.length

/-- The return addresses, the oldest first. -/
def oldestFirst (stack : CallStack) : List UInt16 := stack.entries.reverse

def push (stack : CallStack) (address : UInt16) : Except Fault CallStack :=
  if stack.capacity ≤ stack.depth then .error (.stackOverflow (stack.depth + 1))
  else .ok { stack with entries := address :: stack.entries }

def pop (stack : CallStack) : Except Fault (UInt16 × CallStack) :=
  match stack.entries with
  | [] => .error .stackUnderflow
  | address :: rest => .ok (address, { stack with entries := rest })

def clear (stack : CallStack) : CallStack := { stack with entries := [] }

/-- A pop gives back what was pushed last, and the stack below it. -/
theorem pop_of_push {stack pushed : CallStack} {address : UInt16}
    (fits : stack.push address = .ok pushed) : pushed.pop = .ok (address, stack) := by
  unfold push at fits
  split at fits
  · cases fits
  · cases fits
    rfl

end CallStack

end Chip8
