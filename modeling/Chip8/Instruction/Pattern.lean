import Chip8.Instruction.Operation
import Chip8.Instruction.Word
import Chip8.Text.Hex

/-!
# Patterns and words

Matching a word against a pattern, filling a pattern with a word's operands,
and the printed form of a pattern.
-/

namespace Chip8

namespace Cell

/-- A fixed digit stands for itself; every other cell stands for any digit. -/
def accepts : Cell → Fin 16 → Bool
  | digit value, found => value == found
  | _, _ => true

/-- The printed form of a cell. -/
def text : Cell → List Char
  | digit value => Hex.digits value.val
  | x => ['X']
  | y => ['Y']
  | n => ['N']

end Cell

namespace Pattern

/-- The words that mean an operation are those whose digits its cells accept. -/
def accepts (pattern : Pattern) (word : Word) : Bool :=
  pattern.first.accepts word.family && pattern.second.accepts word.x &&
    pattern.third.accepts word.y && pattern.fourth.accepts word.n

/-- The four digits as printed. -/
def text (pattern : Pattern) : String :=
  String.ofList (pattern.first.text ++ pattern.second.text ++ pattern.third.text ++
    pattern.fourth.text)

end Pattern

end Chip8
