import Chip8.Instruction.Word

/-!
# The keypad

Sixteen keys, one for each hexadecimal digit, that are pressed and released
independently. The host writes them; a program only reads them.
-/

namespace Chip8

/-- Which keys are down, key 0 first. -/
structure Keypad where
  keys : Vector Bool 16
deriving DecidableEq, Repr

/-- Why the host's request to the keypad was refused. -/
inductive Keypad.Misuse where
  /-- No key has this number. -/
  | noSuchKey
  /-- A whole state needs one entry for each key. -/
  | wrongCount
deriving DecidableEq, Repr

def Keypad.Misuse.message : Keypad.Misuse → String
  | noSuchKey => "key index out of range"
  | wrongCount => "keypad state must have 16 entries"

namespace Keypad

def released : Keypad := ⟨Vector.replicate 16 false⟩

/-- Press or release one key. -/
def set (keypad : Keypad) (key : Fin 16) (pressed : Bool) : Keypad :=
  ⟨keypad.keys.set key pressed⟩

/-- Press or release the key of a number, if there is one. -/
def setNumbered (keypad : Keypad) (number : Int) (pressed : Bool) : Except Misuse Keypad :=
  if 0 ≤ number ∧ number < 16 then .ok (keypad.set (Fin.ofNat 16 number.toNat) pressed)
  else .error .noSuchKey

/-- Whether a key is down. -/
def isPressed (keypad : Keypad) (key : Fin 16) : Bool := keypad.keys[key]

/-- Whether the key of a number's low hexadecimal digit is down. -/
def isPressedNumbered (keypad : Keypad) (number : Int) : Bool :=
  keypad.isPressed (Fin.ofNat 16 (number % 16).toNat)

/-- The lowest key that is down. -/
def firstPressed? (keypad : Keypad) : Option (Fin 16) :=
  (List.finRange 16).find? keypad.isPressed

/-- Replace all keys at once. -/
def ofList? (keys : List Bool) : Except Misuse Keypad :=
  if counted : keys.length = 16 then .ok ⟨⟨keys.toArray, by simpa using counted⟩⟩
  else .error .wrongCount

end Keypad

end Chip8
