import Chip8.Instruction.Word
import Chip8.Memory.Access
import Chip8.Memory.Font

/-!
# Memory

A flat array of bytes in two areas. The reserved area holds the font and
nothing else; only the program area above it can be written. Every access is
checked against the bounds of its area before a byte moves, and a block is
checked as a whole before its first byte is written, so that a refused block
changes nothing.
-/

namespace Chip8

/-- Bytes, and whether their accesses are reported. -/
structure Memory where
  bytes : Array UInt8
  traced : Bool
deriving DecidableEq, Repr

/-- Why a request of the host was refused. -/
inductive Memory.Misuse where
  /-- A memory without a program area. -/
  | tooSmall
  | negativeLength
deriving DecidableEq, Repr

def Memory.Misuse.message : Memory.Misuse → String
  | tooSmall => "memory must extend past the program start"
  | negativeLength => "length must not be negative"

namespace Memory

/-- The size of a standard machine's memory. -/
def standardSize : Nat := 0x1000

/-- Where the program area starts. -/
def programStart : Nat := 0x200

/-- Room for a program in a standard memory. -/
def standardCapacity : Nat := standardSize - programStart

/-- Where the font starts in the reserved area. -/
def fontStart : Nat := 0x50

/-- The reserved area: the font at its place, zeros around it. -/
def reserved : List UInt8 :=
  List.replicate fontStart 0 ++ Font.rows ++
    List.replicate (programStart - fontStart - Font.rows.length) 0

/-- A memory of the given size with an empty program area. -/
def blank (size : Nat) : Memory :=
  ⟨(reserved ++ List.replicate (size - programStart) 0).toArray, false⟩

/-- The memory of a standard machine. -/
def standard : Memory := blank standardSize

/-- A memory is large enough when it has a program area. -/
def ofSize? (size : Int) : Except Misuse Memory :=
  if size ≤ programStart then .error .tooSmall else .ok (blank size.toNat)

def size (memory : Memory) : Nat := memory.bytes.size

/-- Bytes in the program area. -/
def capacity (memory : Memory) : Nat := memory.size - programStart

/-- Switch the reports of accesses on or off. -/
def setTraced (memory : Memory) (on : Bool) : Memory := { memory with traced := on }

/-- The byte at an address, zero outside. -/
def byteAt (memory : Memory) (address : Nat) : UInt8 := memory.bytes.getD address 0

/-- An address of a memory cell. -/
def readable (memory : Memory) (address : Int) : Bool :=
  0 ≤ address && address < memory.size

/-- An address of the program area. -/
def writable (memory : Memory) (address : Int) : Bool :=
  programStart ≤ address && address < memory.size

/-- Report an access of a traced memory. -/
def report (memory : Memory) (access : Access) : List Access :=
  if memory.traced then [access] else []

/-- Install a program image and clear the rest of the program area. The image
has to fit. -/
def install (memory : Memory) (image : List UInt8) : Memory :=
  { memory with
    bytes := memory.bytes.take programStart ++
      (image ++ List.replicate (memory.capacity - image.length) 0).toArray }

/-- Read a byte. -/
def readByte (memory : Memory) (address : Int) : Traced UInt8 :=
  if memory.readable address then
    let value := memory.byteAt address.toNat
    ⟨memory.report (.read address.toNat value), .ok value⟩
  else .fail (.memoryAccess address false)

/-- Write a byte of the program area. -/
def writeByte (memory : Memory) (address : Int) (value : UInt8) : Traced Memory :=
  if memory.writable address then
    ⟨memory.report (.write address.toNat value),
      .ok { memory with bytes := memory.bytes.setIfInBounds address.toNat value }⟩
  else .fail (.memoryAccess address true)

/-- Write consecutive bytes one after the other. -/
def writeBytes (memory : Memory) (address : Int) : List UInt8 → Traced Memory
  | [] => pure memory
  | value :: rest => do
    let next ← memory.writeByte address value
    next.writeBytes (address + 1) rest

/-- Write a block. Its first and last address decide whether it can be written,
since the program area has no gaps. -/
def writeBlock (memory : Memory) (address : Int) (values : List UInt8) : Traced Memory :=
  let last := address + values.length - 1
  if values.isEmpty then pure memory
  else if !memory.writable address then .fail (.memoryAccess address true)
  else if !memory.writable last then .fail (.memoryAccess last true)
  else memory.writeBytes address values

/-- Read a word, the high byte first. -/
def readWord (memory : Memory) (address : Int) : Traced Word := do
  let high ← memory.readByte address
  let low ← memory.readByte (address + 1)
  pure (Word.ofBytes high low)

/-- Read a block. The reads of a block are not reported. -/
def readBlock (memory : Memory) (address : Int) (length : Nat) : Except Fault (List UInt8) :=
  if !memory.readable address then .error (.memoryAccess address false)
  else if memory.size < address + length then .error (.memoryAccess memory.size false)
  else .ok ((List.range length).map fun offset => memory.byteAt (address.toNat + offset))

/-- Read a block of a length that is yet to be checked. -/
def readBlock? (memory : Memory) (address length : Int) :
    Except Misuse (Except Fault (List UInt8)) :=
  if length < 0 then .error .negativeLength else .ok (memory.readBlock address length.toNat)

/-- The address of a digit's glyph. Only the low hexadecimal digit counts. -/
def glyphAddress (digit : Int) : Nat :=
  fontStart + (digit % 16).toNat * Font.glyphHeight

/-- Writing a byte keeps the size of the memory. -/
theorem size_of_writeByte {memory next : Memory} {address : Int} {value : UInt8}
    (written : (memory.writeByte address value).result = .ok next) : next.size = memory.size := by
  unfold writeByte at written
  split at written
  · cases written
    simp [size]
  · cases written

/-- After a write the byte is there, and all others are as before. -/
theorem byteAt_of_writeByte {memory next : Memory} {address : Int} {value : UInt8}
    (written : (memory.writeByte address value).result = .ok next) (other : Nat) :
    next.byteAt other = if other = address.toNat then value else memory.byteAt other := by
  unfold writeByte at written
  split at written
  case isTrue inside =>
    cases written
    have bound : address.toNat < memory.bytes.size := by
      simp only [writable, Bool.and_eq_true, decide_eq_true_eq] at inside
      simp only [programStart, size] at inside
      omega
    by_cases same : other = address.toNat
    · simp [byteAt, same, bound]
    · have apart : ¬address.toNat = other := fun equal => same equal.symm
      simp [byteAt, Array.getD_eq_getD_getElem?, same, apart]
  case isFalse => cases written

/-- A fresh standard memory has the standard room. -/
theorem standard_capacity : standard.capacity = standardCapacity := by decide +kernel

end Memory

end Chip8
