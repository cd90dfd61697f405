import Chip8.Instruction.Word

/-!
# Operations

The thirty-seven operations of the instruction set. `lowResolution` and
`highResolution` belong to the extended set for the larger screen.

Each operation has a pattern of four digits: fixed digits, the registers X and
Y, and N for the digits of a number. A pattern says which words mean the
operation, and filling it with a word's operands gives the word back.
-/

namespace Chip8

/-- What an instruction does, apart from its operands. -/
inductive Operation where
  | clear
  | ret
  | lowResolution
  | highResolution
  | sys
  | jump
  | call
  | skipIfByte
  | skipUnlessByte
  | skipIfEqual
  | loadByte
  | addByte
  | copy
  | or
  | and
  | xor
  | add
  | subtract
  | shiftRight
  | subtractFrom
  | shiftLeft
  | skipUnlessEqual
  | loadIndex
  | jumpOffset
  | random
  | draw
  | skipIfKey
  | skipUnlessKey
  | readDelay
  | awaitKey
  | setDelay
  | setSound
  | addIndex
  | loadGlyph
  | storeDecimal
  | store
  | load
deriving DecidableEq, Repr

/-- One digit of a pattern. -/
inductive Cell where
  | digit (value : Fin 16)
  | x
  | y
  | n
deriving DecidableEq, Repr

/-- The four digits of a pattern, most significant first. -/
structure Pattern where
  first : Cell
  second : Cell
  third : Cell
  fourth : Cell
deriving DecidableEq, Repr

namespace Operation

/-- The short symbol of an operation in listings of the instruction set. -/
def symbol : Operation → String
  | clear => "CLS"
  | ret => "RET"
  | lowResolution => "LOW"
  | highResolution => "HIGH"
  | sys => "SYS"
  | jump => "JP"
  | call => "CALL"
  | skipIfByte => "SE_BYTE"
  | skipUnlessByte => "SNE_BYTE"
  | skipIfEqual => "SE_REG"
  | loadByte => "LD_BYTE"
  | addByte => "ADD_BYTE"
  | copy => "LD_REG"
  | or => "OR"
  | and => "AND"
  | xor => "XOR"
  | add => "ADD_REG"
  | subtract => "SUB"
  | shiftRight => "SHR"
  | subtractFrom => "SUBN"
  | shiftLeft => "SHL"
  | skipUnlessEqual => "SNE_REG"
  | loadIndex => "LD_I"
  | jumpOffset => "JP_OFFSET"
  | random => "RND"
  | draw => "DRW"
  | skipIfKey => "SKP"
  | skipUnlessKey => "SKNP"
  | readDelay => "LD_VX_DT"
  | awaitKey => "LD_VX_K"
  | setDelay => "LD_DT_VX"
  | setSound => "LD_ST_VX"
  | addIndex => "ADD_I"
  | loadGlyph => "LD_F"
  | storeDecimal => "BCD"
  | store => "STORE"
  | load => "LOAD"

/-- The pattern of an operation. Only those of `sys` and of the operations
without operands overlap. -/
def pattern : Operation → Pattern
  | clear => ⟨.digit 0x0, .digit 0x0, .digit 0xE, .digit 0x0⟩
  | ret => ⟨.digit 0x0, .digit 0x0, .digit 0xE, .digit 0xE⟩
  | lowResolution => ⟨.digit 0x0, .digit 0x0, .digit 0xF, .digit 0xE⟩
  | highResolution => ⟨.digit 0x0, .digit 0x0, .digit 0xF, .digit 0xF⟩
  | sys => ⟨.digit 0x0, .n, .n, .n⟩
  | jump => ⟨.digit 0x1, .n, .n, .n⟩
  | call => ⟨.digit 0x2, .n, .n, .n⟩
  | skipIfByte => ⟨.digit 0x3, .x, .n, .n⟩
  | skipUnlessByte => ⟨.digit 0x4, .x, .n, .n⟩
  | skipIfEqual => ⟨.digit 0x5, .x, .y, .digit 0x0⟩
  | loadByte => ⟨.digit 0x6, .x, .n, .n⟩
  | addByte => ⟨.digit 0x7, .x, .n, .n⟩
  | copy => ⟨.digit 0x8, .x, .y, .digit 0x0⟩
  | or => ⟨.digit 0x8, .x, .y, .digit 0x1⟩
  | and => ⟨.digit 0x8, .x, .y, .digit 0x2⟩
  | xor => ⟨.digit 0x8, .x, .y, .digit 0x3⟩
  | add => ⟨.digit 0x8, .x, .y, .digit 0x4⟩
  | subtract => ⟨.digit 0x8, .x, .y, .digit 0x5⟩
  | shiftRight => ⟨.digit 0x8, .x, .y, .digit 0x6⟩
  | subtractFrom => ⟨.digit 0x8, .x, .y, .digit 0x7⟩
  | shiftLeft => ⟨.digit 0x8, .x, .y, .digit 0xE⟩
  | skipUnlessEqual => ⟨.digit 0x9, .x, .y, .digit 0x0⟩
  | loadIndex => ⟨.digit 0xA, .n, .n, .n⟩
  | jumpOffset => ⟨.digit 0xB, .n, .n, .n⟩
  | random => ⟨.digit 0xC, .x, .n, .n⟩
  | draw => ⟨.digit 0xD, .x, .y, .n⟩
  | skipIfKey => ⟨.digit 0xE, .x, .digit 0x9, .digit 0xE⟩
  | skipUnlessKey => ⟨.digit 0xE, .x, .digit 0xA, .digit 0x1⟩
  | readDelay => ⟨.digit 0xF, .x, .digit 0x0, .digit 0x7⟩
  | awaitKey => ⟨.digit 0xF, .x, .digit 0x0, .digit 0xA⟩
  | setDelay => ⟨.digit 0xF, .x, .digit 0x1, .digit 0x5⟩
  | setSound => ⟨.digit 0xF, .x, .digit 0x1, .digit 0x8⟩
  | addIndex => ⟨.digit 0xF, .x, .digit 0x1, .digit 0xE⟩
  | loadGlyph => ⟨.digit 0xF, .x, .digit 0x2, .digit 0x9⟩
  | storeDecimal => ⟨.digit 0xF, .x, .digit 0x3, .digit 0x3⟩
  | store => ⟨.digit 0xF, .x, .digit 0x5, .digit 0x5⟩
  | load => ⟨.digit 0xF, .x, .digit 0x6, .digit 0x5⟩

/-- The operations that only the extended instruction set has. -/
def isExtended : Operation → Bool
  | lowResolution | highResolution => true
  | _ => false

end Operation

end Chip8
