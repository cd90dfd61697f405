import Chip8.Number

/-!
# Deadlines

A session may be given an amount of time. The watch is read once before it
starts and once after each frame; time is up at the first reading that has
reached the deadline. An amount below zero, or one that is undefined, sets no
deadline.
-/

namespace Chip8.Session

/-- The deadline of a session that starts at a reading, if it is given an amount
of seconds that sets one. -/
def deadline (amount : Option Number) (start : Number) :
    Except Number.Misuse (Option Number) :=
  match amount with
  | some seconds =>
    if (Number.whole 0).le seconds then (start.add seconds).map some else .ok none
  | none => .ok none

/-- Whether a reading has reached the deadline, if there is one. -/
def timeUp (deadline : Option Number) (reading : Number) : Bool :=
  match deadline with
  | some deadline => deadline.le reading
  | none => false

/-- A watch whose readings are the multiples of a step, from zero on. -/
def evenWatch (step : Number) (count : Nat) : Number := step.times count

end Chip8.Session
