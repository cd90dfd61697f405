import Chip8.Beeper
import Chip8.Dialect
import Chip8.FrameClock
import Chip8.Instruction
import Chip8.Keypad
import Chip8.RandomSource
import Chip8.Registers
import Chip8.Rom
import Chip8.RunStatus
import Chip8.Screen
import Chip8.Timers

/-!
# The machine

A machine owns its registers, memory, screen, keypad, timers and beeper, and
runs under a status and a clock. It starts paused; loading a program sets it
running.

The beeper sounds while the machine runs and its sound timer is above zero.
Most requests that change one of the two adjust the beeper at once; switching
the power does not. A time that is too large to be measured in seconds leaves
the beeper as it is, and the request fails after everything else is done.
-/

namespace Chip8

structure Machine where
  registers : Registers
  memory : Memory
  screen : Screen
  keypad : Keypad
  timers : Timers
  beeper : Beeper
  clock : FrameClock
  status : RunStatus
  dialect : Dialect
  random : RandomSource
  /-- Instructions carried out since the last reset. -/
  executed : Nat
  /-- The instruction that was attempted last since the last reset. -/
  last : Option Instruction
  /-- The program file that was loaded last. -/
  rom : Option Rom

namespace Machine

/-- Instructions per second of a standard machine. -/
def standardRate : Number := .whole 700

/-- Timer ticks per second of a standard machine. -/
def standardTimerRate : Number := .whole 60

/-- A fresh machine with the given parts, paused and without a program. -/
def fresh (clock : FrameClock) (dialect : Dialect) (random : RandomSource) (beeper : Beeper) :
    Machine where
  registers := .initial
  memory := .standard
  screen := .standard
  keypad := .released
  timers := .zero
  beeper := beeper
  clock := clock
  status := .paused
  dialect := dialect
  random := random
  executed := 0
  last := none
  rom := none

/-- A fresh machine without audio that draws from the source of a seed. -/
def silent (clock : FrameClock) (dialect : Dialect) (seed : Int) : Machine :=
  fresh clock dialect (.ofSeed seed) .mute

/-- A fresh machine with a whole number of instructions per second. -/
def ofRate (rate : Int) (dialect : Dialect) (random : RandomSource) (beeper : Beeper) : Machine :=
  fresh ⟨.whole rate, standardTimerRate, 0⟩ dialect random beeper

def isRunning (machine : Machine) : Bool := machine.status.isRunning

/-- Switch the beeper to what status and sound timer ask for, if the time can
be told. -/
def adjustBeeper (machine : Machine) : Machine :=
  match machine.clock.seconds with
  | .ok now =>
    { machine with
      beeper := machine.beeper.setActive now (machine.isRunning && machine.timers.soundActive) }
  | .error _ => machine

/-- Why the beeper cannot be adjusted, where the time cannot be told. -/
def lostTime? (machine : Machine) : Option Number.Misuse :=
  match machine.clock.seconds with
  | .ok _ => none
  | .error misuse => some misuse

/-- Change the status and adjust the beeper. -/
def setStatus (machine : Machine) (status : RunStatus) : Machine :=
  { machine with status }.adjustBeeper

/-- Change to the status of a code, if there is one. -/
def setStatus? (machine : Machine) (code : Int) : Except RunStatus.Misuse Machine :=
  (RunStatus.ofCode? code).map machine.setStatus

def pause (machine : Machine) : Machine := machine.setStatus machine.status.pause

def resume (machine : Machine) : Machine := machine.setStatus machine.status.resume

/-- Start the loaded program again: everything but memory, keypad, status and
random source returns to its start, and so does time. -/
def reset (machine : Machine) : Machine :=
  { machine with
    clock := machine.clock.reset
    registers := machine.registers.reset
    executed := 0
    last := none
    screen := machine.screen.setExtended false
    timers := .zero }.adjustBeeper

/-- Reset and run. -/
def powerOn (machine : Machine) : Machine := { machine.reset with status := .running }

/-- Stop. The beeper is left as it is. -/
def powerOff (machine : Machine) : Machine := { machine with status := .stopped }

/-- Change the instruction rate; time starts again. -/
def setRate? (machine : Machine) (rate : Number) : Except FrameClock.Misuse Machine :=
  (machine.clock.setRate? rate).map fun clock => { machine with clock }

/-- One timer tick. -/
def tick (machine : Machine) : Machine :=
  { machine with timers := machine.timers.tick }.adjustBeeper

/-- A number of timer ticks, up to the first that fails. -/
def ticks (machine : Machine) : Nat → Machine
  | 0 => machine
  | count + 1 => if machine.lostTime?.isSome then machine.tick else machine.tick.ticks count

def clearDelay (machine : Machine) : Machine :=
  { machine with timers := { machine.timers with delay := 0 } }

def clearSound (machine : Machine) : Machine :=
  { machine with timers := { machine.timers with sound := 0 } }.adjustBeeper

/-- Move over the next instruction without carrying it out. -/
def skip (machine : Machine) : Machine :=
  { machine with registers := machine.registers.advance }

/-- Press or release a key of the host. -/
def setKey (machine : Machine) (key : Int) (pressed : Bool) : Except Keypad.Misuse Machine :=
  (machine.keypad.setNumbered key pressed).map fun keypad => { machine with keypad }

/-- Run the program that was installed in a memory from its start. Without a
dialect of its own it runs in that of the machine. -/
def start (machine : Machine) (memory : Memory) (dialect : Option Dialect) : Machine :=
  { machine with memory, dialect := dialect.getD machine.dialect }.reset.setStatus .running

/-- Load a program. One that does not fit leaves the machine as it is. -/
def load (machine : Machine) (image : List UInt8) (dialect : Option Dialect) :
    Except Rom.TooLarge Machine :=
  (Rom.install machine.memory image).map (machine.start · dialect)

/-- Load a program file and keep where it came from. -/
def loadFile (machine : Machine) (disk : Disk) (path : Disk.Path) (dialect : Option Dialect) :
    Except Rom.Refusal (Rom × Machine) :=
  (Rom.read disk path machine.memory.capacity).map fun rom =>
    (rom, { machine.start (machine.memory.install rom.image) dialect with rom := some rom })

end Machine

end Chip8
