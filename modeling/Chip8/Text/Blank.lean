/-!
# Blank characters

A character is blank when it is white space, or separates paragraphs or
segments, in the Unicode character database; the four information separators
count as well. Texts typed by a user are trimmed of blanks at both ends before
they are read.
-/

namespace Chip8.Text

/-- The blank characters as inclusive ranges of code points, in ascending order. -/
def blankRanges : List (Nat × Nat) := [
  (0x9, 0xD), (0x1C, 0x20), (0x85, 0x85), (0xA0, 0xA0), (0x1680, 0x1680), (0x2000, 0x200A),
  (0x2028, 0x2029), (0x202F, 0x202F), (0x205F, 0x205F), (0x3000, 0x3000)]

/-- Membership in one of the ranges. -/
def isBlank (c : Char) : Bool :=
  blankRanges.any fun range => range.1 ≤ c.toNat && c.toNat ≤ range.2

/-- Drop the characters of a class from both ends; those between two others stay. -/
def trimBy (drop : Char → Bool) (text : List Char) : List Char :=
  ((text.dropWhile drop).reverse.dropWhile drop).reverse

/-- Trim the blanks from both ends. -/
def trim (text : List Char) : List Char := trimBy isBlank text

end Chip8.Text
