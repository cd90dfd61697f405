import Chip8.FrameClock
import Chip8.RunStatus

/-!
# The chassis

What every machine has, whatever its processor: a run status and a clock, and a
socket for a processor core. A reset restarts the clock and resets the core, if
there is one that can be reset.
-/

namespace Chip8

/-- What sits in the socket. -/
inductive Core where
  | absent
  /-- A core without a reset of its own. -/
  | plain
  /-- A core that was reset this often. -/
  | resettable (resets : Nat)
deriving DecidableEq, Repr

/-- Reset a core that can be reset. -/
def Core.reset : Core → Core
  | resettable resets => resettable (resets + 1)
  | core => core

/-- How often a core was reset. -/
def Core.resets : Core → Nat
  | resettable resets => resets
  | _ => 0

/-- A machine around a processor core. -/
structure Chassis where
  clock : FrameClock
  status : RunStatus
  core : Core
deriving DecidableEq, Repr

namespace Chassis

/-- Instructions per second where nothing else is said. -/
def standardRate : Number := .ofRat 700

/-- A stopped machine around a core. -/
def around (core : Core) (clock : FrameClock) : Chassis := ⟨clock, .stopped, core⟩

/-- Whether a core sits in the socket and knows its machine. -/
def linked (chassis : Chassis) : Bool := chassis.core != .absent

def reset (chassis : Chassis) : Chassis :=
  { chassis with clock := chassis.clock.reset, core := chassis.core.reset }

/-- Start from the beginning. -/
def powerOn (chassis : Chassis) : Chassis := { chassis.reset with status := .running }

def powerOff (chassis : Chassis) : Chassis := { chassis with status := .stopped }

def pause (chassis : Chassis) : Chassis := { chassis with status := chassis.status.pause }

def resume (chassis : Chassis) : Chassis := { chassis with status := chassis.status.resume }

def setStatus? (chassis : Chassis) (code : Int) : Except RunStatus.Misuse Chassis :=
  (RunStatus.ofCode? code).map fun status => { chassis with status }

def setRate? (chassis : Chassis) (rate : Number) : Except FrameClock.Misuse Chassis :=
  (chassis.clock.setRate? rate).map fun clock => { chassis with clock }

/-- Let time pass: the instructions and ticks that fall into it. -/
def advance (chassis : Chassis) (duration : Number) :
    Except Number.Misuse ((Int × Int) × Chassis) :=
  (chassis.clock.advance duration).map fun (due, clock) => (due, { chassis with clock })

end Chassis

end Chip8
