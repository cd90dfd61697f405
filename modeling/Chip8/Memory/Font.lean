/-!
# The built-in font

Sixteen glyphs, one for each hexadecimal digit. A glyph has five rows of eight
pixels, of which the left four are used.
-/

namespace Chip8.Font

/-- Rows of a glyph. -/
def glyphHeight : Nat := 5

/-- The rows of all glyphs, digit by digit. -/
def rows : List UInt8 := [
  0xF0, 0x90, 0x90, 0x90, 0xF0,
  0x20, 0x60, 0x20, 0x20, 0x70,
  0xF0, 0x10, 0xF0, 0x80, 0xF0,
  0xF0, 0x10, 0xF0, 0x10, 0xF0,
  0x90, 0x90, 0xF0, 0x10, 0x10,
  0xF0, 0x80, 0xF0, 0x10, 0xF0,
  0xF0, 0x80, 0xF0, 0x90, 0xF0,
  0xF0, 0x10, 0x20, 0x40, 0x40,
  0xF0, 0x90, 0xF0, 0x90, 0xF0,
  0xF0, 0x90, 0xF0, 0x10, 0xF0,
  0xF0, 0x90, 0xF0, 0x90, 0x90,
  0xE0, 0x90, 0xE0, 0x90, 0xE0,
  0xF0, 0x80, 0x80, 0x80, 0xF0,
  0xE0, 0x90, 0x90, 0x90, 0xE0,
  0xF0, 0x80, 0xF0, 0x80, 0xF0,
  0xF0, 0x80, 0xF0, 0x80, 0x80]

/-- The rows of one digit's glyph. -/
def glyph (digit : Fin 16) : List UInt8 :=
  (rows.drop (glyphHeight * digit.val)).take glyphHeight

end Chip8.Font
