import Chip8.Screen

/-!
# Pictures

For a window the screen becomes a picture: a canvas that is filled with the
colour of dark pixels, and then one filled square for each lit pixel. Replaying
the fills in order paints every enlarged pixel in its colour.
-/

namespace Chip8

/-- Fill the whole canvas, or one rectangle of it, with a colour. -/
inductive Fill where
  | canvas (color : Int)
  | rectangle (color : Int) (x y width height : Nat)
deriving DecidableEq, Repr

/-- The size of a canvas and the fills made on it, in order. -/
structure Picture where
  width : Int
  height : Int
  fills : List Fill
deriving DecidableEq, Repr

namespace Screen

/-- The square of one pixel of a row, if it is lit. -/
def square? (screen : Screen) (scaling y : Nat) : Bool × Nat → Option Fill
  | (true, x) => some (.rectangle screen.colorOn (x * scaling) (y * scaling) scaling scaling)
  | (false, _) => none

/-- The squares of the lit pixels, row by row. -/
def squares (screen : Screen) (scaling : Nat) : List Fill :=
  screen.rows.toList.zipIdx.flatMap fun (row, y) =>
    row.toList.zipIdx.filterMap (screen.square? scaling y)

/-- The screen enlarged by a factor. -/
def picture (screen : Screen) (scaling : Nat) : Picture :=
  ⟨screen.width * scaling, screen.height * scaling,
    .canvas screen.colorOff :: screen.squares scaling⟩

/-- The enlarged screen, if the factor makes sense and a toolkit can hold it. -/
def picture? (screen : Screen) (scaling : Int) (toolkit : Bool) : Except Misuse Picture :=
  if scaling ≤ 0 then .error .scaling
  else if !toolkit then .error .noToolkit
  else .ok (screen.picture scaling.toNat)

end Screen

end Chip8
