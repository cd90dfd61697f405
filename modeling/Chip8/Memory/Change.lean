import Chip8.Memory

/-!
# Changes of memory

What has changed between two moments is told by the stretches of consecutive
addresses at which the bytes differ. No two stretches touch, so that each of
them is as long as it can be.
-/

namespace Chip8.Memory

/-- Put an address in front of the stretches above it. -/
def extend (address : Nat) : List (Nat × Nat) → List (Nat × Nat)
  | (start, length) :: rest =>
    if address + 1 = start then (address, length + 1) :: rest
    else (address, 1) :: (start, length) :: rest
  | [] => [(address, 1)]

/-- Ascending addresses as stretches of a start and a length. -/
def stretches (addresses : List Nat) : List (Nat × Nat) := addresses.foldr extend []

/-- The bytes of a stretch. -/
def bytesAt (memory : Memory) (start length : Nat) : List UInt8 :=
  (List.range length).map fun offset => memory.byteAt (start + offset)

/-- The stretches that differ from an earlier memory, with their new bytes. -/
def changes (memory before : Memory) : List (Nat × List UInt8) :=
  let differing := (List.range memory.size).filter fun address =>
    before.byteAt address != memory.byteAt address
  (stretches differing).map fun (start, length) => (start, memory.bytesAt start length)

end Chip8.Memory
