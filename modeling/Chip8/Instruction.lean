import Chip8.Fault
import Chip8.Instruction.Pattern

/-!
# Instructions

Decoding finds the operation that a word means. The first digit selects the
family; where a family has several operations the last digit or the last byte
decides. Words of the zero family that name no other operation call a routine
of the host processor, and some words of the other families mean nothing.

A listing shows each word as a mnemonic, and a word that means nothing as data.
-/

namespace Chip8

/-- A word together with the operation it means. -/
structure Instruction where
  operation : Operation
  word : Word
deriving DecidableEq, Repr

namespace Operation

/-- Within the family of register arithmetic the last digit decides. -/
def ofArithmetic? (last : Nat) : Option Operation :=
  match last with
  | 0x0 => some copy
  | 0x1 => some or
  | 0x2 => some and
  | 0x3 => some xor
  | 0x4 => some add
  | 0x5 => some subtract
  | 0x6 => some shiftRight
  | 0x7 => some subtractFrom
  | 0xE => some shiftLeft
  | _ => none

/-- Within the family of key tests the last byte decides. -/
def ofKeyTest? (byte : Nat) : Option Operation :=
  match byte with
  | 0x9E => some skipIfKey
  | 0xA1 => some skipUnlessKey
  | _ => none

/-- Within the family of transfers the last byte decides. -/
def ofTransfer? (byte : Nat) : Option Operation :=
  match byte with
  | 0x07 => some readDelay
  | 0x0A => some awaitKey
  | 0x15 => some setDelay
  | 0x18 => some setSound
  | 0x1E => some addIndex
  | 0x29 => some loadGlyph
  | 0x33 => some storeDecimal
  | 0x55 => some store
  | 0x65 => some load
  | _ => none

/-- Within the zero family the whole word decides, and `sys` takes the rest. -/
def ofZeroFamily (extended : Bool) (word : Nat) : Operation :=
  match word, extended with
  | 0x00E0, _ => clear
  | 0x00EE, _ => ret
  | 0x00FE, true => lowResolution
  | 0x00FF, true => highResolution
  | _, _ => sys

/-- The operation that a word means in the plain or the extended set. -/
def ofWord? (extended : Bool) (word : Word) : Option Operation :=
  let last := word.toNat % 0x10
  let byte := word.toNat % 0x100
  match word.toNat / 0x1000 with
  | 0x0 => some (ofZeroFamily extended word.toNat)
  | 0x1 => some jump
  | 0x2 => some call
  | 0x3 => some skipIfByte
  | 0x4 => some skipUnlessByte
  | 0x5 => if last = 0 then some skipIfEqual else none
  | 0x6 => some loadByte
  | 0x7 => some addByte
  | 0x8 => ofArithmetic? last
  | 0x9 => if last = 0 then some skipUnlessEqual else none
  | 0xA => some loadIndex
  | 0xB => some jumpOffset
  | 0xC => some random
  | 0xD => some draw
  | 0xE => ofKeyTest? byte
  | _ => ofTransfer? byte

end Operation

/-- A piece of a mnemonic: fixed text, or an operand in hexadecimal. -/
inductive Piece where
  | text (shown : String)
  | registerX
  | registerY
  | digit
  | byte
  | address
deriving DecidableEq, Repr

namespace Operation

/-- The layout of an operation's mnemonic. -/
def layout : Operation → List Piece
  | clear => [.text "CLS"]
  | ret => [.text "RET"]
  | lowResolution => [.text "LOW"]
  | highResolution => [.text "HIGH"]
  | sys => [.text "SYS ", .address]
  | jump => [.text "JP ", .address]
  | call => [.text "CALL ", .address]
  | skipIfByte => [.text "SE ", .registerX, .text ", ", .byte]
  | skipUnlessByte => [.text "SNE ", .registerX, .text ", ", .byte]
  | skipIfEqual => [.text "SE ", .registerX, .text ", ", .registerY]
  | loadByte => [.text "LD ", .registerX, .text ", ", .byte]
  | addByte => [.text "ADD ", .registerX, .text ", ", .byte]
  | copy => [.text "LD ", .registerX, .text ", ", .registerY]
  | or => [.text "OR ", .registerX, .text ", ", .registerY]
  | and => [.text "AND ", .registerX, .text ", ", .registerY]
  | xor => [.text "XOR ", .registerX, .text ", ", .registerY]
  | add => [.text "ADD ", .registerX, .text ", ", .registerY]
  | subtract => [.text "SUB ", .registerX, .text ", ", .registerY]
  | shiftRight => [.text "SHR ", .registerX, .text ", ", .registerY]
  | subtractFrom => [.text "SUBN ", .registerX, .text ", ", .registerY]
  | shiftLeft => [.text "SHL ", .registerX, .text ", ", .registerY]
  | skipUnlessEqual => [.text "SNE ", .registerX, .text ", ", .registerY]
  | loadIndex => [.text "LD I, ", .address]
  | jumpOffset => [.text "JP V0, ", .address]
  | random => [.text "RND ", .registerX, .text ", ", .byte]
  | draw => [.text "DRW ", .registerX, .text ", ", .registerY, .text ", ", .digit]
  | skipIfKey => [.text "SKP ", .registerX]
  | skipUnlessKey => [.text "SKNP ", .registerX]
  | readDelay => [.text "LD ", .registerX, .text ", DT"]
  | awaitKey => [.text "LD ", .registerX, .text ", K"]
  | setDelay => [.text "LD DT, ", .registerX]
  | setSound => [.text "LD ST, ", .registerX]
  | addIndex => [.text "ADD I, ", .registerX]
  | loadGlyph => [.text "LD F, ", .registerX]
  | storeDecimal => [.text "LD B, ", .registerX]
  | store => [.text "LD [I], ", .registerX]
  | load => [.text "LD ", .registerX, .text ", [I]"]

end Operation

/-- A piece filled with the operands of a word. Registers and digits take one
place, bytes two, addresses three. -/
def Piece.fill (word : Word) : Piece → String
  | text shown => shown
  | registerX => "V" ++ Hex.padded 1 word.x.val
  | registerY => "V" ++ Hex.padded 1 word.y.val
  | digit => Hex.padded 1 word.n.val
  | byte => Hex.padded 2 word.nn.toNat
  | address => Hex.padded 3 word.nnn.toNat

namespace Instruction

/-- Decode a word, or report it as met at the address. -/
def decode (extended : Bool) (address : Int) (word : Word) : Except Fault Instruction :=
  match Operation.ofWord? extended word with
  | some operation => .ok ⟨operation, word⟩
  | none => .error (.unknownOpcode word address)

/-- The mnemonic: the operation's layout with its operands in place. -/
def mnemonic (instruction : Instruction) : String :=
  String.join (instruction.operation.layout.map (Piece.fill instruction.word))

end Instruction

/-- One line of a listing. A word that means nothing is shown as data. -/
def disassemble (extended : Bool) (word : Word) : String :=
  match Operation.ofWord? extended word with
  | some operation => Instruction.mnemonic ⟨operation, word⟩
  | none => "DW " ++ Hex.padded 4 word.toNat

end Chip8
