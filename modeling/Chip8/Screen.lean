/-!
# The screen

A grid of pixels that are lit or dark. Sprites are drawn by flipping: each set
bit of a sprite flips the pixel it lands on, so that drawing a sprite twice at
one place removes it again. A collision is a lit pixel that goes dark.

Where a bit lands is said apart from what happens there. The origin of a sprite
wraps onto the screen; its body wraps around or is clipped at each edge.

A screen may be asked for in any size. Unless width and height are positive it
has no pixels, and only a sprite that is cut off as a whole can be drawn.
-/

namespace Chip8

/-- Rows of pixels from the top, and the colours of lit and dark pixels. -/
structure Screen where
  width : Int
  height : Int
  rows : Array (Array Bool)
  colorOn : Int
  colorOff : Int
deriving DecidableEq, Repr

/-- Rows of bits, the most significant of the lower `width` bits leftmost. A
row is any integer, read in two's complement. -/
structure Sprite where
  width : Nat
  rows : List Int
deriving DecidableEq, Repr

/-- At which edges a sprite's body is cut off instead of wrapping around. -/
structure Clipping where
  vertically : Bool
  horizontally : Bool
deriving DecidableEq, Repr

/-- Why a request to the screen was refused. -/
inductive Screen.Misuse where
  /-- The pixel is not on the screen. -/
  | outside
  /-- No place wraps onto a screen without width or height. -/
  | noArea
  /-- There is no pixel where a bit of a sprite lands. -/
  | noPixel
  /-- Pictures are enlarged by a positive factor. -/
  | scaling
  /-- No window toolkit is there to hold a picture. -/
  | noToolkit
deriving DecidableEq, Repr

def Screen.Misuse.message : Screen.Misuse → String
  | outside => "pixel coordinate out of range"
  | noArea => "integer modulo by zero"
  | noPixel => "list index out of range"
  | scaling => "scaling factor must be positive"
  | noToolkit => "pygame is required for render_pygame_surface"

namespace Sprite

/-- Whether a bit of a row is set. -/
def bit (sprite : Sprite) (row : Int) (column : Nat) : Bool :=
  (row >>> (sprite.width - 1 - column)) % 2 = 1

end Sprite

namespace Screen

def standardWidth : Nat := 64
def standardHeight : Nat := 32
def extendedWidth : Nat := 128
def extendedHeight : Nat := 64

/-- Rows of dark pixels. -/
def darkRows (width height : Int) : Array (Array Bool) :=
  Array.replicate height.toNat (Array.replicate width.toNat false)

/-- A dark screen. -/
def dark (width height : Int) (colorOn colorOff : Int) : Screen :=
  ⟨width, height, darkRows width height, colorOn, colorOff⟩

/-- The screen of a standard machine: white on black. -/
def standard : Screen := dark standardWidth standardHeight 0xFFFFFF 0x000000

/-- Whether the screen has the larger size. -/
def extended (screen : Screen) : Bool :=
  screen.width == extendedWidth && screen.height == extendedHeight

/-- Darken every pixel. -/
def clear (screen : Screen) : Screen :=
  { screen with rows := darkRows screen.width screen.height }

/-- Switch to a size. The screen goes dark even if its size stays. -/
def resize (screen : Screen) (width height : Int) : Screen :=
  { screen with width := width, height := height, rows := darkRows width height }

/-- Switch to the larger or the standard size. -/
def setExtended (screen : Screen) (on : Bool) : Screen :=
  if on then screen.resize extendedWidth extendedHeight
  else screen.resize standardWidth standardHeight

/-- Whether a pixel is lit; outside everything is dark. -/
def lit (screen : Screen) (x y : Nat) : Bool := (screen.rows.getD y #[]).getD x false

/-- Whether a pixel of the screen is lit. -/
def pixel? (screen : Screen) (x y : Int) : Except Misuse Bool :=
  if 0 ≤ x ∧ x < screen.width ∧ 0 ≤ y ∧ y < screen.height then
    .ok (screen.lit x.toNat y.toNat)
  else .error .outside

/-- The number of lit pixels. -/
def litCount (screen : Screen) : Nat :=
  screen.rows.foldl (fun count row => count + row.count true) 0

/-- Flip one pixel. -/
def flip (screen : Screen) (x y : Nat) : Screen :=
  { screen with rows := screen.rows.modify y fun row => row.modify x not }

/-- Where a cell of a sprite lands along one axis of the given extent: at its
distance from the wrapped origin, unless that lies beyond the edge. -/
def place (extent : Nat) (origin : Int) (clipped : Bool) (distance : Nat) : Option Nat :=
  let reached := (origin % extent).toNat + distance
  if reached < extent then some reached
  else if clipped then none
  else some (reached % extent)

/-- The pixels on which the set bits of one row land. -/
def rowLandings (screen : Screen) (x : Int) (sprite : Sprite) (clipped : Bool)
    (row : Int) (y : Nat) : List (Nat × Nat) :=
  (List.range sprite.width).filterMap fun column =>
    if sprite.bit row column then
      (place screen.width.toNat x clipped column).map fun landed => (landed, y)
    else none

/-- The pixels on which the set bits of a sprite land, row by row from the top,
each row from the left. -/
def landings (screen : Screen) (x y : Int) (sprite : Sprite) (clipping : Clipping) :
    List (Nat × Nat) :=
  sprite.rows.zipIdx.flatMap fun (row, distance) =>
    match place screen.height.toNat y clipping.vertically distance with
    | none => []
    | some landed => screen.rowLandings x sprite clipping.horizontally row landed

/-- Flip one pixel, and tell whether it or an earlier one was lit before. -/
def strike (progress : Screen × Bool) (landing : Nat × Nat) : Screen × Bool :=
  let (screen, collided) := progress
  let wasLit := screen.lit landing.1 landing.2
  (screen.flip landing.1 landing.2, collided || wasLit)

/-- Draw a sprite: flip the pixels on which its set bits land, one after the
other, and tell whether any of them went dark. -/
def draw (screen : Screen) (x y : Int) (sprite : Sprite) (clipping : Clipping) :
    Screen × Bool :=
  (screen.landings x y sprite clipping).foldl strike (screen, false)

/-- Whether a sprite is cut off as a whole on a screen of negative width or height. -/
def cutsOff (screen : Screen) (y : Int) (sprite : Sprite) (clipping : Clipping) : Bool :=
  if screen.height < 0 then clipping.vertically || sprite.rows.isEmpty
  else
    clipping.horizontally || sprite.rows.zipIdx.all fun (row, distance) =>
      (place screen.height.toNat y clipping.vertically distance).isNone ||
        (List.range sprite.width).all fun column => !sprite.bit row column

/-- Draw on a screen of any size. -/
def draw? (screen : Screen) (x y : Int) (sprite : Sprite) (clipping : Clipping) :
    Except Misuse (Screen × Bool) :=
  if screen.width = 0 ∨ screen.height = 0 then .error .noArea
  else if 0 < screen.width ∧ 0 < screen.height then .ok (screen.draw x y sprite clipping)
  else if screen.cutsOff y sprite clipping then .ok (screen, false)
  else .error .noPixel

/-- The colour of each pixel. -/
def colors (screen : Screen) : List (List Int) :=
  screen.rows.toList.map fun row =>
    row.toList.map fun on => if on then screen.colorOn else screen.colorOff

/-- The screen in text, one line for each row. -/
def text (screen : Screen) (on off : String) : String :=
  "\n".intercalate (screen.rows.toList.map fun row =>
    String.join (row.toList.map fun isLit => if isLit then on else off))

/-- The screen in text with the usual marks. -/
def plainText (screen : Screen) : String := screen.text "#" "."

/-- A cell that lands, lands on the screen. -/
theorem place_lt {extent : Nat} (positive : 0 < extent) {origin : Int} {clipped : Bool}
    {distance landed : Nat} (lands : place extent origin clipped distance = some landed) :
    landed < extent := by
  simp only [place] at lands
  split at lands
  · cases lands
    assumption
  · split at lands
    · cases lands
    · cases lands
      exact Nat.mod_lt _ positive

/-- Flipping keeps the size of the screen. -/
@[simp]
theorem flip_width (screen : Screen) (x y : Nat) : (screen.flip x y).width = screen.width := rfl

@[simp]
theorem flip_height (screen : Screen) (x y : Nat) : (screen.flip x y).height = screen.height := rfl

/-- A cleared screen keeps its size. -/
@[simp]
theorem clear_width (screen : Screen) : screen.clear.width = screen.width := rfl

@[simp]
theorem clear_height (screen : Screen) : screen.clear.height = screen.height := rfl

end Screen

end Chip8
