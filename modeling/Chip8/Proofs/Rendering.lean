import Chip8.Proofs.Drawing
import Chip8.Screen.Picture

/-!
# Renderings

A screen is shown in three ways: in colours, pixel by pixel; in text, line by line; and as a
picture, a list of fills for a canvas. What a picture shows is what its fills leave when they
are painted in order.

Fills overlap. The first one covers the canvas, and each square lies on top of it. But all the
squares have one colour, so that none of them spoils another, and a point shows the colour of
lit pixels exactly if a square covers it. Divided by the factor of the picture, its coordinates
name the only pixel whose square can.
-/

namespace Chip8

/-- The colour at each point, if something was painted there. -/
structure Canvas where
  colorAt? : Nat → Nat → Option Int

namespace Fill

def color : Fill → Int
  | canvas color => color
  | rectangle color .. => color

/-- The points on which a fill puts its colour. -/
def Covers : Fill → Nat → Nat → Prop
  | canvas _, _, _ => True
  | rectangle _ left top width height, x, y =>
    (left ≤ x ∧ x < left + width) ∧ (top ≤ y ∧ y < top + height)

instance (fill : Fill) (x y : Nat) : Decidable (fill.Covers x y) :=
  match fill with
  | canvas _ => isTrue trivial
  | rectangle .. => inferInstanceAs (Decidable (_ ∧ _))

end Fill

namespace Canvas

def blank : Canvas := ⟨fun _ _ => none⟩

/-- A fill paints over what was there. -/
def paint (canvas : Canvas) (fill : Fill) : Canvas :=
  ⟨fun x y => if fill.Covers x y then some fill.color else canvas.colorAt? x y⟩

/-- After fills of one colour, a point has that colour if one of them covers it. -/
theorem colorAt_foldl_paint {fills : List Fill} {color : Int}
    (same : ∀ fill ∈ fills, fill.color = color) (canvas : Canvas) (x y : Nat) :
    (fills.foldl paint canvas).colorAt? x y =
      if ∃ fill ∈ fills, fill.Covers x y then some color else canvas.colorAt? x y := by
  induction fills generalizing canvas with
  | nil => simp
  | cons fill rest inductionHypothesis =>
    obtain ⟨here, further⟩ := List.forall_mem_cons.mp same
    rw [List.foldl_cons, inductionHypothesis further]
    by_cases later : ∃ fill ∈ rest, fill.Covers x y
    · simp [later]
    · by_cases covered : fill.Covers x y <;> simp [later, covered, paint, here]

end Canvas

/-- What the fills of a picture leave on a canvas. -/
def Picture.canvas (picture : Picture) : Canvas := picture.fills.foldl Canvas.paint .blank

namespace Screen

variable {screen : Screen} {scaling x y : Nat}

/-- The rows of a screen, with a mark in place of each pixel. -/
def marks {α : Type} (screen : Screen) (on off : α) : List (List α) :=
  screen.rows.toList.map fun row => row.toList.map fun isLit => if isLit then on else off

section Squares

/-- The squares are those of the lit pixels. -/
theorem mem_squares {fill : Fill} :
    fill ∈ screen.squares scaling ↔ ∃ column line, screen.lit column line = true ∧
      fill = .rectangle screen.colorOn (column * scaling) (line * scaling) scaling scaling := by
  simp only [squares, List.mem_flatMap, List.mem_filterMap, Prod.exists,
    List.mem_zipIdx_iff_getElem?, Array.getElem?_toList]
  constructor
  · rintro ⟨row, line, rowThere, isLit, column, pixelThere, made⟩
    cases isLit with
    | false => cases made
    | true =>
      refine ⟨column, line, ?_, (Option.some.inj made).symm⟩
      simp [lit, Array.getD_eq_getD_getElem?, rowThere, pixelThere]
  · rintro ⟨column, line, isLit, rfl⟩
    simp only [lit, Array.getD_eq_getD_getElem?] at isLit
    cases rowThere : screen.rows[line]? with
    | none => simp [rowThere] at isLit
    | some row =>
      refine ⟨row, line, rowThere, true, column, ?_, rfl⟩
      cases pixelThere : row[column]? with
      | none => simp [rowThere, pixelThere] at isLit
      | some pixel => simpa [rowThere, pixelThere] using isLit

/-- A square covers the points that its pixel is the quotient of. -/
theorem covers_square (positive : 0 < scaling) {color : Int} {column line : Nat} :
    (Fill.rectangle color (column * scaling) (line * scaling) scaling scaling).Covers x y ↔
      x / scaling = column ∧ y / scaling = line := by
  have along (place index : Nat) :
      (index * scaling ≤ place ∧ place < index * scaling + scaling) ↔ place / scaling = index := by
    rw [Nat.div_eq_iff positive]
    apply and_congr_right
    intro _
    omega
  exact and_congr (along x column) (along y line)

/-- Every point of a picture has the colour of the pixel that it is divided down to. -/
theorem colorAt_picture (screen : Screen) (positive : 0 < scaling) (x y : Nat) :
    (screen.picture scaling).canvas.colorAt? x y =
      some (if screen.lit (x / scaling) (y / scaling) then screen.colorOn
        else screen.colorOff) := by
  have same : ∀ fill ∈ screen.squares scaling, fill.color = screen.colorOn := by
    intro fill member
    obtain ⟨_, _, _, rfl⟩ := mem_squares.mp member
    rfl
  have covered : (∃ fill ∈ screen.squares scaling, fill.Covers x y) ↔
      screen.lit (x / scaling) (y / scaling) = true := by
    constructor
    · rintro ⟨fill, member, covers⟩
      obtain ⟨column, line, isLit, rfl⟩ := mem_squares.mp member
      obtain ⟨rfl, rfl⟩ := (covers_square positive).mp covers
      exact isLit
    · intro isLit
      exact ⟨_, mem_squares.mpr ⟨_, _, isLit, rfl⟩, (covers_square positive).mpr ⟨rfl, rfl⟩⟩
  change ((screen.squares scaling).foldl Canvas.paint
    (Canvas.blank.paint (.canvas screen.colorOff))).colorAt? x y = _
  rw [Canvas.colorAt_foldl_paint same]
  simp only [covered]
  split
  case isTrue => rfl
  case isFalse => rfl

end Squares

section Marks

variable {α : Type} {on off : α}

/-- On a grid there are as many rows of marks as the screen is high, each of them as long as
it is wide. -/
theorem IsGrid.length_marks (grid : screen.IsGrid) :
    (screen.marks on off).length = screen.height.toNat ∧
      ∀ line ∈ screen.marks on off, line.length = screen.width.toNat := by
  constructor
  · rw [marks, List.length_map, Array.length_toList, grid.height]
  · intro line member
    obtain ⟨row, found, rfl⟩ := List.mem_map.mp member
    rw [List.length_map, Array.length_toList, grid.width row (Array.mem_def.mpr found)]

/-- A pixel of the grid has its mark. -/
theorem IsGrid.mark (grid : screen.IsGrid) (left : x < screen.width.toNat)
    (above : y < screen.height.toNat) :
    ((screen.marks on off)[y]?).bind (·[x]?) = some (if screen.lit x y then on else off) := by
  have there := grid.pixel left above
  rw [marks, List.getElem?_map, Array.getElem?_toList]
  cases rowThere : screen.rows[y]? with
  | none => simp [rowThere] at there
  | some row =>
    rw [rowThere, Option.bind_some] at there
    simp [there]

end Marks

/-- A text of single characters is made of lines of marks. -/
theorem toList_text (screen : Screen) (on off : Char) :
    (screen.text (.singleton on) (.singleton off)).toList =
      ['\n'].intercalate (screen.marks on off) := by
  have char (isLit : Bool) :
      (if isLit then String.singleton on else String.singleton off).toList =
        [if isLit then on else off] := by
    cases isLit <;> simp
  have line (row : Array Bool) :
      (String.join (row.toList.map fun isLit =>
        if isLit then String.singleton on else String.singleton off)).toList =
          row.toList.map fun isLit => if isLit then on else off := by
    rw [String.toList_join, List.flatMap_map, List.map_eq_flatMap]
    simp only [char]
  simp [text, marks, String.toList_intercalate, Function.comp_def, line]

/-- The text is taken apart into its lines again, if neither character ends a line. -/
theorem splitOn_text {on off : Char} (some : 0 < screen.rows.size) (onPlain : on ≠ '\n')
    (offPlain : off ≠ '\n') :
    (screen.text (.singleton on) (.singleton off)).toList.splitOn '\n' = screen.marks on off := by
  rw [toList_text]
  apply List.splitOn_intercalate
  · intro line member goesOn
    obtain ⟨row, _, rfl⟩ := List.mem_map.mp member
    obtain ⟨isLit, _, mark⟩ := List.mem_map.mp goesOn
    split at mark
    · exact onPlain mark
    · exact offPlain mark
  · intro empty
    have none := congrArg List.length empty
    rw [marks, List.length_map, Array.length_toList] at none
    exact Nat.ne_of_gt some none

/-- A picture shows a screen enlarged: at every point of its canvas stands the colour of the
pixel that the point is divided down to, which is one of the colours of the screen. -/
structure EnlargedBy (screen : Screen) (scaling : Int) (picture : Picture) : Prop where
  width : picture.width = screen.width * scaling
  height : picture.height = screen.height * scaling
  point : ∀ x y : Nat, x < picture.width → y < picture.height →
    picture.canvas.colorAt? x y =
      (screen.colors[y / scaling.toNat]?).bind (·[x / scaling.toNat]?)
  color : ∀ x y : Nat, x < picture.width → y < picture.height →
    ∃ isLit, screen.pixel? (x / scaling) (y / scaling) = .ok isLit ∧
      picture.canvas.colorAt? x y = some (if isLit then screen.colorOn else screen.colorOff)

/-- Lines show a screen by two characters. -/
structure WrittenIn (screen : Screen) (on off : Char) (lines : List (List Char)) : Prop where
  height : lines.length = screen.height
  width : ∀ line ∈ lines, line.length = screen.width
  lit_iff : ∀ x y : Nat, x < screen.width → y < screen.height →
    ((lines[y]?).bind (·[x]?) = some on ↔ screen.pixel? x y = .ok true)
  dark_iff : ∀ x y : Nat, x < screen.width → y < screen.height →
    ((lines[y]?).bind (·[x]?) = some off ↔ screen.pixel? x y = .ok false)

/-- A pixel of the screen is lit or dark. -/
theorem pixel_eq_ok (left : x < screen.width) (above : y < screen.height) :
    screen.pixel? x y = .ok (screen.lit x y) := by
  rw [pixel?, if_pos ⟨Int.natCast_nonneg x, left, Int.natCast_nonneg y, above⟩]
  rfl

/-- The picture of a drawable screen shows it enlarged. -/
theorem Drawable.enlarged (drawable : screen.Drawable) (positive : 0 < scaling) :
    screen.EnlargedBy scaling (screen.picture scaling) := by
  -- A point of the canvas lies within the square of a pixel of the screen.
  have inside {place : Nat} {extent : Int} (bound : (place : Int) < extent * scaling) :
      ((place / scaling : Nat) : Int) < extent := by
    rw [Int.natCast_ediv]
    exact Int.ediv_lt_of_lt_mul (by exact_mod_cast positive) bound
  constructor
  case width => rfl
  case height => rfl
  case point =>
    intro x y left above
    have column := inside left
    have line := inside above
    rw [Int.toNat_natCast, colorAt_picture screen positive]
    exact (drawable.grid.mark (by omega) (by omega)).symm
  case color =>
    intro x y left above
    refine ⟨screen.lit (x / scaling) (y / scaling), ?_, colorAt_picture screen positive x y⟩
    rw [← Int.natCast_ediv, ← Int.natCast_ediv]
    exact pixel_eq_ok (inside left) (inside above)

/-- Lines of marks show the screen. -/
theorem Drawable.written (drawable : screen.Drawable) {on off : Char} (apart : on ≠ off) :
    screen.WrittenIn on off (screen.marks on off) := by
  have wide := drawable.wide
  have high := drawable.high
  obtain ⟨height, width⟩ : (screen.marks on off).length = screen.height.toNat ∧
      ∀ line ∈ screen.marks on off, line.length = screen.width.toNat :=
    drawable.grid.length_marks
  constructor
  case height => omega
  case width =>
    intro line member
    have long := width line member
    omega
  case lit_iff =>
    intro x y left above
    rw [drawable.grid.mark (by omega) (by omega), pixel_eq_ok left above]
    cases screen.lit x y <;> simp [apart.symm]
  case dark_iff =>
    intro x y left above
    rw [drawable.grid.mark (by omega) (by omega), pixel_eq_ok left above]
    cases screen.lit x y <;> simp [apart]

/-- The renderings of a screen agree, whatever its size and its pixels. The picture that is made
for a factor shows the pixels enlarged, in the colours that the screen has for them. In text
there is a line for each row, and in it a character for each pixel. -/
theorem Drawable.renderings_agree (drawable : screen.Drawable) :
    (∀ scaling : Int, 1 ≤ scaling →
      ∃ picture, screen.picture? scaling true = .ok picture ∧
        screen.EnlargedBy scaling picture) ∧
      ∀ on off : Char, on ≠ off → on ≠ '\n' → off ≠ '\n' →
        screen.WrittenIn on off
          ((screen.text (.singleton on) (.singleton off)).toList.splitOn '\n') := by
  constructor
  · intro scaling positive
    obtain ⟨factor, rfl⟩ := Int.eq_ofNat_of_zero_le (Int.le_of_lt positive)
    refine ⟨screen.picture factor, ?_, drawable.enlarged (by omega)⟩
    rw [picture?, if_neg (by omega)]
    rfl
  · intro on off apart onPlain offPlain
    have high := drawable.high
    have some : 0 < screen.rows.size := by
      rw [drawable.grid.height]
      omega
    rw [splitOn_text some onPlain offPlain]
    exact drawable.written apart

/-- A screen on which lit and dark pixels take turns. -/
def checkered : Screen :=
  ⟨3, 2, #[#[true, false, true], #[false, true, false]], 0xFFFFFF, 0x202020⟩

/-- Twice enlarged, the corner of the second lit pixel touches a dark one. -/
theorem renderings_agree_of_checkered :
    checkered.Drawable ∧ 1 ≤ (2 : Int) ∧
      (∃ picture, checkered.picture? 2 true = .ok picture ∧
        checkered.EnlargedBy 2 picture ∧
        picture.canvas.colorAt? 4 1 = some 0xFFFFFF ∧
        picture.canvas.colorAt? 3 1 = some 0x202020 ∧
        picture.canvas.colorAt? 3 2 = some 0xFFFFFF) ∧
      '#' ≠ '.' ∧ '#' ≠ '\n' ∧ '.' ≠ '\n' ∧
      checkered.WrittenIn '#' '.' ["#.#".toList, ".#.".toList] := by
  have drawable : checkered.Drawable := ⟨⟨rfl, by decide⟩, by decide, by decide⟩
  obtain ⟨enlarges, writes⟩ := drawable.renderings_agree
  obtain ⟨picture, made, enlarged⟩ := enlarges 2 (by decide)
  obtain rfl : checkered.picture 2 = picture := Except.ok.inj made
  have written := writes '#' '.' (by decide) (by decide) (by decide)
  refine ⟨drawable, by decide, ⟨_, made, enlarged, ?_, ?_, ?_⟩, by decide, by decide, by decide, ?_⟩
  · exact (enlarged.point 4 1 (by decide) (by decide)).trans (by decide)
  · exact (enlarged.point 3 1 (by decide) (by decide)).trans (by decide)
  · exact (enlarged.point 3 2 (by decide) (by decide)).trans (by decide)
  · have lines : (checkered.text (.singleton '#') (.singleton '.')).toList.splitOn '\n' =
        ["#.#".toList, ".#.".toList] := by decide +kernel
    rwa [lines] at written

end Screen

end Chip8
