/-!
# Upper-case hexadecimal

Addresses, words and bytes are printed with a least number of digits, filled
with zeros on the left. A negative number keeps its sign in front of the zeros,
and the sign counts toward the least width.
-/

namespace Chip8.Hex

/-- The digits of a number, most significant first. Zero has one digit. -/
def digits (value : Nat) : List Char := (Nat.toDigits 16 value).map Char.toUpper

/-- At least `width` digits. A longer number is never cut. -/
def padded (width value : Nat) : String := String.ofList ((digits value).leftpad width '0')

/-- At least `width` characters, a minus sign included. -/
def paddedInt (width : Nat) : Int → String
  | .ofNat value => padded width value
  | .negSucc below => "-" ++ padded (width - 1) (below + 1)

end Chip8.Hex
