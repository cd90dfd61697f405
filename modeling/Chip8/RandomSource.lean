/-!
# The random source

A machine draws its random bytes from the source that it was given. Nothing is known of a
source but that a draw depends on its state alone and leaves the next state.

The source of a seed is a linear congruential generator on 31 bits. The high bits of its state
supply the bytes, because the low ones repeat after few draws.
-/

namespace Chip8

/-- A source of bytes: its state, and what a draw gives and leaves in each state. -/
structure RandomSource where
  state : Nat
  next : Nat → UInt8 × Nat

namespace RandomSource

/-- Draw a byte. -/
def draw (source : RandomSource) : UInt8 × RandomSource :=
  let (drawn, state) := source.next source.state
  (drawn, { source with state })

/-- The number of states of the congruential generator. -/
def modulus : Nat := Nat.pow 2 31

/-- A draw from the congruential generator. -/
def congruential (state : Nat) : UInt8 × Nat :=
  let state := (state * 1103515245 + 12345) % modulus
  (UInt8.ofNat (state / 0x10000), state)

/-- The source of a seed; seeds that differ by the modulus start alike. -/
def ofSeed (seed : Int) : RandomSource := ⟨(seed % modulus).toNat, congruential⟩

/-- A numeral is the source of that seed. -/
instance (seed : Nat) : OfNat RandomSource seed := ⟨.ofSeed seed⟩

end RandomSource

end Chip8
