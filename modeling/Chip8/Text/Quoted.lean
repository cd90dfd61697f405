import Chip8.Text.Printable

/-!
# Quoted texts

A text is shown between single quotes. It is shown between double quotes only
when it holds single quotes and no double ones, so that most texts need no
escape. The quote around it, the backslash, and every unprintable character are
escaped.
-/

namespace Chip8.Text

/-- A lower-case hexadecimal number of exactly `width` digits, for code points
below sixteen to that power. -/
def escapeDigits (width code : Nat) : List Char := (Nat.toDigits 16 code).leftpad width '0'

/-- One character inside the given quotes. -/
def quoteChar (quote c : Char) : List Char :=
  if c = quote ∨ c = '\\' then ['\\', c]
  else if c = '\n' then ['\\', 'n']
  else if c = '\r' then ['\\', 'r']
  else if c = '\t' then ['\\', 't']
  else if isPrintable c then [c]
  else if c.toNat < 0x100 then '\\' :: 'x' :: escapeDigits 2 c.toNat
  else if c.toNat < 0x10000 then '\\' :: 'u' :: escapeDigits 4 c.toNat
  else '\\' :: 'U' :: escapeDigits 8 c.toNat

/-- The quotes a text is shown between. -/
def quoteMark (text : List Char) : Char :=
  if text.contains '\'' && !text.contains '"' then '"' else '\''

/-- A text between its quotes. -/
def quoted (text : String) : String :=
  let mark := quoteMark text.toList
  String.ofList (mark :: text.toList.flatMap (quoteChar mark) ++ [mark])

end Chip8.Text
