/-!
# Captions

The caption of the window shows the name of the program, and whether it is
halted or paused. A halt hides a pause.
-/

namespace Chip8.Window

def baseCaption : String := "CHIP-8 Emulator"

/-- The caption for a program name, if there is one, and a state. A halt
without a reason is none. -/
def caption (name : Option String) (paused : Bool) (halted : Option String) : String :=
  let titled :=
    match name with
    | some name => baseCaption ++ " | " ++ name
    | none => baseCaption
  match halted.filter (· != "") with
  | some reason => titled ++ " | HALTED: " ++ reason
  | none => if paused then titled ++ " | PAUSED" else titled

end Chip8.Window
