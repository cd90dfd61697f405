/-!
# Timers

Two counters that fall by one with every timer tick and stay at zero. The delay
timer is read back by programs; the sound timer keeps the beeper on while it is
above zero.
-/

namespace Chip8

/-- One step of a counter. -/
def Timer.tick (value : UInt8) : UInt8 := if value = 0 then 0 else value - 1

/-- A counter falls by one, but not below zero. -/
theorem Timer.tick_toNat (value : UInt8) : (tick value).toNat = value.toNat - 1 := by
  unfold tick
  split
  case isTrue zero =>
    rw [zero]
    rfl
  case isFalse counting =>
    have atLeastOne : 1 ≤ value := by
      rw [UInt8.le_iff_toNat_le]
      exact Nat.one_le_iff_ne_zero.mpr fun none => counting (UInt8.toNat_inj.mp none)
    exact UInt8.toNat_sub_of_le value 1 atLeastOne

/-- The two counters. -/
structure Timers where
  delay : UInt8
  sound : UInt8
deriving DecidableEq, Repr

namespace Timers

def zero : Timers := ⟨0, 0⟩

/-- Both counters step together. -/
def tick (timers : Timers) : Timers := ⟨Timer.tick timers.delay, Timer.tick timers.sound⟩

/-- A number of ticks. -/
def ticks (timers : Timers) : Nat → Timers
  | 0 => timers
  | count + 1 => timers.tick.ticks count

/-- Whether the sound timer asks for a tone. -/
def soundActive (timers : Timers) : Bool := 0 < timers.sound

/-- A counter at zero stays there. -/
@[simp]
theorem tick_zero : zero.tick = zero := rfl

end Timers

end Chip8
