import Chip8.Number

/-!
# The frame clock

Elapsed time becomes whole instructions and whole timer ticks. Time is kept as
an integer number of microseconds, and both counts are floors of the running
total, so that no fraction is lost or counted twice however the time is cut.

Integer rates never fail. With measured rates and durations a calculation may
leave the measured quantities; the clock then stays as it is.
-/

namespace Chip8

/-- Instruction and timer rates in events per second, and the time that has
passed since the last reset. -/
structure FrameClock where
  rate : Number
  timerRate : Number
  elapsed : Nat
deriving DecidableEq, Repr

/-- Why a clock refuses its rates. -/
inductive FrameClock.Misuse where
  | frequencies
  | instructionRate
deriving DecidableEq, Repr

def FrameClock.Misuse.message : FrameClock.Misuse → String
  | frequencies => "frequencies must be positive"
  | instructionRate => "instruction rate must be positive"

namespace FrameClock

/-- Timer ticks per second where nothing else is said. -/
def standardTimerRate : Number := .ofRat 60

/-- A clock at time zero. -/
def ofRates? (rate timerRate : Number) : Except Misuse FrameClock :=
  if rate.isRate && timerRate.isRate then .ok ⟨rate, timerRate, 0⟩
  else .error .frequencies

/-- Start again from time zero. -/
def reset (clock : FrameClock) : FrameClock := { clock with elapsed := 0 }

/-- Change the instruction rate; time starts again. -/
def setRate? (clock : FrameClock) (rate : Number) : Except Misuse FrameClock :=
  if rate.isRate then .ok { clock with rate := rate, elapsed := 0 }
  else .error .instructionRate

/-- The time in seconds, measured. -/
def seconds (clock : FrameClock) : Except Number.Misuse Number :=
  (Number.whole clock.elapsed).div (.whole Number.microseconds)

/-- The events of a rate up to a moment. -/
def count (rate : Number) (elapsed : Nat) : Except Number.Misuse Int := do
  let scaled ← rate.mul (.whole elapsed)
  return (← scaled.truncate) / Number.microseconds

/-- The events of a rate between two moments. -/
def between (rate : Number) (before after : Nat) : Except Number.Misuse Int :=
  return (← count rate after) - (← count rate before)

/-- Let whole microseconds pass: the instructions and ticks that fall into them. -/
def pass (clock : FrameClock) (duration : Nat) :
    Except Number.Misuse ((Int × Int) × FrameClock) := do
  let next := clock.elapsed + duration
  let steps ← between clock.rate clock.elapsed next
  let ticks ← between clock.timerRate clock.elapsed next
  pure ((steps, ticks), { clock with elapsed := next })

/-- Let a duration pass. Nothing happens in less than half a microsecond, and
time does not run back. -/
def advance (clock : FrameClock) (duration : Number) :
    Except Number.Misuse ((Int × Int) × FrameClock) := do
  let passed ← duration.toMicroseconds
  if passed ≤ 0 then pure ((0, 0), clock) else clock.pass passed.toNat

/-- Let a duration pass several times, up to the first failure. -/
def advances (duration : Number) :
    Nat → FrameClock → List (Int × Int) × FrameClock × Option Number.Misuse
  | 0, clock => ([], clock, none)
  | times + 1, clock =>
    match clock.advance duration with
    | .ok (due, next) =>
      let (rest, last, failure) := advances duration times next
      (due :: rest, last, failure)
    | .error misuse => ([], clock, some misuse)

/-- The instructions of one frame: the nearest integer to the quotient of the
rates, and at least one. -/
def stepsPerFrame (clock : FrameClock) : Except Number.Misuse Nat := do
  return max 1 (← (← clock.rate.div clock.timerRate).round).toNat

/-- Integer rates count every event exactly. -/
theorem count_whole (rate : Int) (elapsed : Nat) :
    count (.whole rate) elapsed = .ok (rate * elapsed / Number.microseconds) := rfl

end FrameClock

end Chip8
