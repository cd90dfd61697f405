import Chip8.Registers

/-!
# Register arithmetic

The operations on two registers. Each reads both operands first, then stores
its result, and writes the flag last, so that the flag wins when the result
goes to register F.
-/

namespace Chip8.Registers

/-- Store a result, then the flag that goes with it. -/
def store (registers : Registers) (x : Fin 16) (value : UInt8) (flagged : Bool) : Registers :=
  (registers.set x value).setFlag flagged

/-- Add VY to VX. The flag tells of a carry. -/
def add (registers : Registers) (x y : Fin 16) : Registers :=
  let left := registers.get x
  let right := registers.get y
  registers.store x (left + right) (255 < left.toNat + right.toNat)

/-- Subtract VY from VX. The flag tells that nothing was borrowed. -/
def subtract (registers : Registers) (x y : Fin 16) : Registers :=
  let left := registers.get x
  let right := registers.get y
  registers.store x (left - right) (right ≤ left)

/-- Subtract VX from VY into VX. The flag tells that nothing was borrowed. -/
def subtractFrom (registers : Registers) (x y : Fin 16) : Registers :=
  let left := registers.get x
  let right := registers.get y
  registers.store x (right - left) (left ≤ right)

/-- Halve the source into VX. The flag takes the bit that falls out. -/
def shiftRight (registers : Registers) (x source : Fin 16) : Registers :=
  let value := registers.get source
  registers.store x (value / 2) (value % 2 = 1)

/-- Double the source into VX. The flag takes the bit that falls out. -/
def shiftLeft (registers : Registers) (x source : Fin 16) : Registers :=
  let value := registers.get source
  registers.store x (value + value) (128 ≤ value)

/-- Store a combination of bits, and lower the flag if it is asked for. -/
def combine (registers : Registers) (x : Fin 16) (value : UInt8) (lowersFlag : Bool) : Registers :=
  let stored := registers.set x value
  if lowersFlag then stored.setFlag false else stored

/-- Add an offset to the index register. The flag stays. -/
def moveIndex (registers : Registers) (offset : Nat) : Registers :=
  registers.setIndex (registers.index + UInt16.ofNat offset)

/-- The registers from V0 to VX. -/
def upTo (registers : Registers) (x : Fin 16) : List UInt8 := registers.v.toList.take (x.val + 1)

/-- Load bytes into consecutive registers. Bytes that find no register are dropped. -/
def loadFrom (registers : Registers) (first : Nat) : List UInt8 → Registers
  | [] => registers
  | value :: rest =>
    let loaded : Registers := { registers with v := registers.v.setIfInBounds first value }
    loaded.loadFrom (first + 1) rest

end Chip8.Registers
