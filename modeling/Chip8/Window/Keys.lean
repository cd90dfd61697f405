import Chip8.Keypad

/-!
# Host keys

The left block of a typewriter keyboard stands for the four by four keys of the
keypad. Letters and digits have their character codes.
-/

namespace Chip8.Window

/-- The character of each mapped host key, and its key of the keypad. -/
def keyMap : List (Char × Fin 16) := [
  ('1', 0x1), ('2', 0x2), ('3', 0x3), ('4', 0xC),
  ('q', 0x4), ('w', 0x5), ('e', 0x6), ('r', 0xD),
  ('a', 0x7), ('s', 0x8), ('d', 0x9), ('f', 0xE),
  ('z', 0xA), ('x', 0x0), ('c', 0xB), ('v', 0xF)]

/-- The key of the keypad that a host key stands for. -/
def keyOf? (code : Int) : Option (Fin 16) :=
  (keyMap.find? fun (c, _) => (c.toNat : Int) == code).map Prod.snd

/-- Pass a host key on to the keypad, and tell whether it stands for a key. -/
def handleKey (keypad : Keypad) (code : Int) (pressed : Bool) : Bool × Keypad :=
  match keyOf? code with
  | some key => (true, keypad.set key pressed)
  | none => (false, keypad)

/-- The codes of the keys that control the window. -/
def escapeKey : Int := 27
def restartKey : Int := 1073741886
def pauseKey : Int := 112

/-- Every key of the keypad is reached by exactly one host key. -/
theorem keyMap_covers :
    (keyMap.map Prod.fst).Nodup ∧ ∀ key : Fin 16, key ∈ keyMap.map Prod.snd := by decide

end Chip8.Window
