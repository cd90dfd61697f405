import Chip8.Machine.Execution

/-!
# Runs

A run drives a machine through steps and timer ticks until something stops it.
After a fault the machine stays as it was before the step that failed, and
everything done until then counts. A time or a number of steps that cannot be
told stops a run as well.

A frame is a fixed number of steps and one tick. A slice of time is as many
steps and ticks as the clock finds in it, with the steps spread evenly over the
ticks.
-/

namespace Chip8

/-- What stops a run. -/
inductive Run.Stop where
  | fault (fault : Fault)
  | number (misuse : Number.Misuse)
deriving DecidableEq, Repr

/-- How far a machine came, and why it came no further. -/
structure Run where
  machine : Machine
  accesses : Array Access
  stop : Option Run.Stop

namespace Run

def begin (machine : Machine) : Run := ⟨machine, #[], none⟩

/-- A run that has come to nothing. -/
def refuse (machine : Machine) (misuse : Number.Misuse) : Run :=
  ⟨machine, #[], some (.number misuse)⟩

/-- One more step, unless the run has stopped. -/
def step (run : Run) : Run :=
  match run.stop with
  | some _ => run
  | none =>
    let traced := run.machine.step
    let accesses := run.accesses ++ traced.accesses
    match traced.result with
    | .ok (.untimed misuse, machine) => ⟨machine, accesses, some (.number misuse)⟩
    | .ok (_, machine) => ⟨machine, accesses, none⟩
    | .error fault => ⟨run.machine, accesses, some (.fault fault)⟩

/-- One more timer tick, unless the run has stopped. -/
def tick (run : Run) : Run :=
  match run.stop with
  | some _ => run
  | none =>
    { run with machine := run.machine.tick, stop := run.machine.lostTime?.map .number }

/-- Repeat an action that leaves a stopped run as it is. -/
def iterate (action : Run → Run) : Nat → Run → Run
  | 0, run => run
  | count + 1, run => if run.stop.isSome then run else iterate action count (action run)

/-- A number of steps. -/
def steps (count : Nat) (run : Run) : Run := iterate step count run

/-- The steps due before the end of a tick, when a number of steps is spread
over a number of ticks. -/
def due (steps ticks tick : Nat) : Nat := steps * tick / ticks

/-- The remaining ticks of a slice, each after its share of the steps. -/
def share (steps ticks : Nat) : Nat → Run → Run
  | 0, run => run
  | left + 1, run =>
    if run.stop.isSome then run
    else
      let tick := ticks - (left + 1)
      share steps ticks left
        ((run.steps (due steps ticks (tick + 1) - due steps ticks tick)).tick)

/-- A slice of steps and ticks. Without a tick the steps stand alone. -/
def slice (steps ticks : Nat) (run : Run) : Run :=
  if ticks = 0 then run.steps steps else share steps ticks ticks run

/-- One frame of a number of steps. -/
def frame (steps : Nat) (run : Run) : Run := (run.steps steps).tick

end Run

namespace Machine

/-- One frame of a running machine, with its number of steps. A machine that
does not run does nothing. -/
def runFrame (machine : Machine) : Run × Nat :=
  if machine.isRunning then
    match machine.clock.stepsPerFrame with
    | .ok steps => ((Run.begin machine).frame steps, steps)
    | .error misuse => (.refuse machine misuse, 0)
  else (.begin machine, 0)

/-- Let a duration pass on a running machine, with the number of steps that fall
into it. The clock moves on even if a step fails. -/
def emulate (machine : Machine) (duration : Number) : Run × Int :=
  if machine.isRunning then
    match machine.clock.advance duration with
    | .ok ((steps, ticks), clock) =>
      ((Run.begin { machine with clock }).slice steps.toNat ticks.toNat, steps)
    | .error misuse => (.refuse machine misuse, 0)
  else (.begin machine, 0)

/-- Repeat a run up to the first that is stopped, with the count of each one
before it. -/
def repeated (act : Machine → Run × Int) : Nat → Machine → List Int × Run
  | 0, machine => ([], .begin machine)
  | times + 1, machine =>
    let (run, count) := act machine
    if run.stop.isSome then ([], run)
    else
      let (counts, rest) := repeated act times run.machine
      (count :: counts, { rest with accesses := run.accesses ++ rest.accesses })

end Machine

end Chip8
