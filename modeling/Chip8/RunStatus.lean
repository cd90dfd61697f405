/-!
# Run status

A machine runs, is paused, or is stopped. Pausing and resuming lead back and
forth between running and paused; a stopped machine ignores both.
-/

namespace Chip8

inductive RunStatus where
  | running
  | paused
  | stopped
deriving DecidableEq, Repr

/-- No status has the code. -/
structure RunStatus.Misuse where
  code : Int
deriving DecidableEq, Repr

def RunStatus.Misuse.message (misuse : RunStatus.Misuse) : String :=
  toString misuse.code ++ " is not a valid RunStatus"

namespace RunStatus

/-- The number that stands for a status. -/
def code : RunStatus → Nat
  | running => 0
  | paused => 1
  | stopped => 2

/-- The status that a number stands for. -/
def ofCode? (code : Int) : Except Misuse RunStatus :=
  if code = 0 then .ok running
  else if code = 1 then .ok paused
  else if code = 2 then .ok stopped
  else .error ⟨code⟩

def isRunning (status : RunStatus) : Bool := status == running

/-- Only a running machine can be paused. -/
def pause : RunStatus → RunStatus
  | running => paused
  | status => status

/-- Only a paused machine can be resumed. -/
def resume : RunStatus → RunStatus
  | paused => running
  | status => status

/-- The codes denote the statuses. -/
theorem ofCode_code (status : RunStatus) : ofCode? status.code = .ok status := by
  cases status <;> rfl

end RunStatus

end Chip8
