/-!
# Instruction words

An instruction is a word of sixteen bits, read as four hexadecimal digits. The
first digit selects a family of operations; the others name registers, small
numbers, bytes and addresses.
-/

namespace Chip8

/-- An instruction word. -/
abbrev Word := UInt16

/-- Some digit is needed for every register, key and glyph to be named by one. -/
instance sixteen_neZero : @NeZero Nat Zero.ofOfNat0 16 := ⟨by decide⟩

namespace Word

/-- The word as an integer modulo its size. -/
def ofInt (value : Int) : Word := UInt16.ofInt value

/-- A word from its bytes, the high one first. -/
def ofBytes (high low : UInt8) : Word := UInt16.ofNat (256 * high.toNat + low.toNat)

/-- The first digit: the family. -/
def family (word : Word) : Fin 16 := ⟨word.toNat / 0x1000 % 16, Nat.mod_lt _ (by decide)⟩

/-- The second digit: a register. -/
def x (word : Word) : Fin 16 := ⟨word.toNat / 0x100 % 16, Nat.mod_lt _ (by decide)⟩

/-- The third digit: a register. -/
def y (word : Word) : Fin 16 := ⟨word.toNat / 0x10 % 16, Nat.mod_lt _ (by decide)⟩

/-- The last digit: a small number. -/
def n (word : Word) : Fin 16 := ⟨word.toNat % 16, Nat.mod_lt _ (by decide)⟩

/-- The last two digits: a byte. -/
def nn (word : Word) : UInt8 := UInt8.ofNat (word.toNat % 0x100)

/-- The last three digits: an address. -/
def nnn (word : Word) : UInt16 := UInt16.ofNat (word.toNat % 0x1000)

end Word

end Chip8
