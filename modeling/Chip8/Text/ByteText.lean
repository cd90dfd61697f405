import Chip8.Text.Digit

/-!
# Bytes as text

Bytes are exchanged with the host as text, two lower-case hexadecimal digits for
each byte. Reading accepts both cases, and stops at a digit without a partner.
-/

namespace Chip8.Text.ByteText

/-- The two digits of a byte. -/
def digits (value : UInt8) : List Char :=
  [Nat.digitChar (value.toNat / 16), Nat.digitChar (value.toNat % 16)]

/-- Bytes in text. -/
def encode (bytes : List UInt8) : String := String.ofList (bytes.flatMap digits)

/-- The byte of two digits. What is no digit counts as zero. -/
def byte (high low : Char) : UInt8 :=
  UInt8.ofNat (16 * (digitValue? 16 high).getD 0 + (digitValue? 16 low).getD 0)

/-- The bytes of digits. -/
def readDigits : List Char → List UInt8
  | high :: low :: rest => byte high low :: readDigits rest
  | _ => []

/-- The bytes of a text. -/
def decode (text : String) : List UInt8 := readDigits text.toList

/-- The digits of a byte denote it. -/
theorem byte_digits :
    ∀ value : Fin 256, readDigits (digits (UInt8.ofNat value)) = [UInt8.ofNat value] := by
  decide +kernel

end Chip8.Text.ByteText
