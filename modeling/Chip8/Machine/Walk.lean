import Chip8.Machine.Run

/-!
# Walks

A walk takes a machine through several steps and keeps the trail of the complete
ones: how each of them ended, and where the program counter stood after it.
-/

namespace Chip8

/-- How far a walk has come. The trail has its latest step first. -/
structure Walk where
  machine : Machine
  accesses : Array Access
  trail : List (Progress × UInt16)
  stop : Option Run.Stop

namespace Walk

def begin (machine : Machine) : Walk := ⟨machine, #[], [], none⟩

/-- One more step. -/
def step (walk : Walk) : Walk :=
  let traced := walk.machine.step
  let seen := { walk with accesses := walk.accesses ++ traced.accesses }
  match traced.result with
  | .ok (.untimed misuse, machine) => { seen with machine, stop := some (.number misuse) }
  | .ok (progress, machine) =>
    { seen with machine, trail := (progress, machine.registers.pc) :: walk.trail }
  | .error fault => { seen with stop := some (.fault fault) }

/-- A number of steps, or fewer if something stops the walk. -/
def steps : Nat → Walk → Walk
  | 0, walk => walk
  | count + 1, walk => if walk.stop.isSome then walk else steps count walk.step

end Walk

end Chip8
