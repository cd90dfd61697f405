import Chip8.Proofs.InPlace

/-!
# Drawing in place

A sprite is drawn bit by bit, and the first row or bit that is cut off ends the loop
it belongs to. On a grid with an area every place has its pixel, so that the loops go
through, and what they leave out would not have landed anyway.
-/

namespace Chip8

namespace Screen

/-- A grid with an area. -/
structure Drawable (screen : Screen) : Prop where
  grid : screen.IsGrid
  wide : 0 < screen.width
  high : 0 < screen.height

/-- A flip leaves a grid with its area. -/
theorem Drawable.flip {screen : Screen} (drawable : screen.Drawable) (x y : Nat) :
    (screen.flip x y).Drawable :=
  ⟨drawable.grid.flip x y, drawable.wide, drawable.high⟩

/-- Striking places leaves a grid with its area. -/
theorem Drawable.strikes {screen : Screen} (drawable : screen.Drawable)
    (landings : List (Nat × Nat)) (collided : Bool) :
    (landings.foldl strike (screen, collided)).1.Drawable := by
  obtain ⟨width, height, grid⟩ := strikes_keep landings screen collided
  exact ⟨grid drawable.grid, width ▸ drawable.wide, height ▸ drawable.high⟩

/-- What is cut off at a distance from the origin is cut off at every larger one. -/
theorem place_eq_none_of_le {extent : Nat} {origin : Int} {clipped : Bool}
    {distance further : Nat} (cut : place extent origin clipped distance = none)
    (le : distance ≤ further) : place extent origin clipped further = none := by
  simp only [place] at cut ⊢
  split at cut
  · cases cut
  · split at cut
    case isTrue clips => rw [if_neg (by omega), if_pos clips]
    case isFalse => cases cut

/-- The places on which the set bits of some columns land. -/
def columnLandings (width : Nat) (x : Int) (sprite : Sprite) (clipped : Bool) (row : Int)
    (y : Nat) (columns : List Nat) : List (Nat × Nat) :=
  columns.filterMap fun column =>
    if sprite.bit row column then
      (place width x clipped column).map fun landed => (landed, y)
    else none

/-- No column lands behind one that is cut off. -/
theorem columnLandings_eq_nil {width : Nat} {x : Int} {sprite : Sprite} {clipped : Bool}
    {row : Int} {y column : Nat} {columns : List Nat}
    (cut : place width x clipped column = none) (further : ∀ other ∈ columns, column ≤ other) :
    columnLandings width x sprite clipped row y columns = [] := by
  refine List.filterMap_eq_nil_iff.mpr fun other member => ?_
  rw [place_eq_none_of_le cut (further other member)]
  split <;> rfl

/-- The places on which the set bits of some rows land, from a distance to the top on. -/
def rowsLandings (screen : Screen) (x y : Int) (sprite : Sprite) (clipping : Clipping)
    (rows : List Int) (distance : Nat) : List (Nat × Nat) :=
  (rows.zipIdx distance).flatMap fun (row, distance) =>
    match place screen.height.toNat y clipping.vertically distance with
    | none => []
    | some landed => screen.rowLandings x sprite clipping.horizontally row landed

/-- No row lands behind one that is cut off. -/
theorem rowsLandings_eq_nil {screen : Screen} {x y : Int} {sprite : Sprite}
    {clipping : Clipping} {rows : List Int} {distance : Nat}
    (cut : place screen.height.toNat y clipping.vertically distance = none) :
    screen.rowsLandings x y sprite clipping rows distance = [] := by
  refine List.flatMap_eq_nil_iff.mpr ?_
  rintro ⟨row, other⟩ member
  have further : distance ≤ other := (List.mem_zipIdx member).1
  simp only [place_eq_none_of_le cut further]

/-- The first row lands before the others, wherever these are drawn from. -/
theorem rowsLandings_cons (screen struck : Screen) (x y : Int) (sprite : Sprite)
    (clipping : Clipping) (row : Int) (rest : List Int) {distance landed : Nat}
    (placed : place screen.height.toNat y clipping.vertically distance = some landed)
    (width : struck.width = screen.width) (height : struck.height = screen.height) :
    screen.rowsLandings x y sprite clipping (row :: rest) distance =
      screen.rowLandings x sprite clipping.horizontally row landed ++
        struck.rowsLandings x y sprite clipping rest (distance + 1) := by
  simp only [rowsLandings, rowLandings, List.zipIdx_cons, List.flatMap_cons, placed, width, height]

end Screen

namespace InPlace

variable (machine : Machine) (x y : Int) (sprite : Sprite)

/-- The bits of a row, drawn up to the first that is cut off, strike every place on
which one of them lands. -/
theorem run_drawBits (clipped : Bool) (row : Int) (line : Nat) (columns : List Nat)
    (collided : Bool) (drawable : machine.screen.Drawable)
    (above : line < machine.screen.height.toNat) (ascending : columns.Pairwise (· < ·)) :
    let landings :=
      Screen.columnLandings machine.screen.width.toNat x sprite clipped row line columns
    let struck := landings.foldl Screen.strike (machine.screen, collided)
    (drawBits x sprite clipped row line columns collided).run machine =
      .ok struck.2 { machine with screen := struck.1 } := by
  induction columns generalizing machine collided with
  | nil => rfl
  | cons column rest inductionHypothesis =>
    obtain ⟨further, restAscending⟩ := List.pairwise_cons.mp ascending
    by_cases lit : sprite.bit row column = true
    case neg =>
      have skipped := inductionHypothesis machine collided drawable above restAscending
      simp only [drawBits, Screen.columnLandings, List.filterMap_cons, lit]
      exact skipped
    cases placed : Screen.place machine.screen.width.toNat x clipped column with
    | none =>
      have cut : Screen.columnLandings machine.screen.width.toNat x sprite clipped row line
          (column :: rest) = [] := by
        refine Screen.columnLandings_eq_nil placed fun other member => ?_
        rcases List.mem_cons.mp member with rfl | later
        · exact Nat.le_refl _
        · exact Nat.le_of_lt (further other later)
      simp only [drawBits, lit, if_true, run_get_bind, placed, cut]
      rfl
    | some landed =>
      have left : landed < machine.screen.width.toNat :=
        Screen.place_lt (by have := drawable.wide; omega) placed
      have pixel := drawable.grid.pixel left above
      have struck := inductionHypothesis
        { machine with screen := machine.screen.flip landed line }
        (collided || machine.screen.lit landed line)
        (drawable.flip landed line) above restAscending
      simp only [drawBits, lit, if_true, run_get_bind, placed, pixel, Screen.columnLandings,
        List.filterMap_cons, Option.map_some, List.foldl_cons]
      exact struck

/-- The rows of a sprite, drawn up to the first that is cut off, strike every place on
which one of their bits lands. -/
theorem run_drawRows (clipping : Clipping) (rows : List Int) (distance : Nat) (collided : Bool)
    (drawable : machine.screen.Drawable) :
    let landings := machine.screen.rowsLandings x y sprite clipping rows distance
    let struck := landings.foldl Screen.strike (machine.screen, collided)
    (drawRows x y sprite clipping rows distance collided).run machine =
      .ok struck.2 { machine with screen := struck.1 } := by
  induction rows generalizing machine distance collided with
  | nil => rfl
  | cons row rest inductionHypothesis =>
    cases placed : Screen.place machine.screen.height.toNat y clipping.vertically distance with
    | none =>
      have cut : machine.screen.rowsLandings x y sprite clipping (row :: rest) distance = [] :=
        Screen.rowsLandings_eq_nil placed
      simp only [drawRows, run_get_bind, placed, cut]
      rfl
    | some landed =>
      have above : landed < machine.screen.height.toNat :=
        Screen.place_lt (by have := drawable.high; omega) placed
      have stored : landed < machine.screen.rows.size := by
        rw [drawable.grid.height]
        exact above
      have bits := run_drawBits machine x sprite clipping.horizontally row landed
        (List.range sprite.width) collided drawable above List.pairwise_lt_range
      let struck := (machine.screen.rowLandings x sprite clipping.horizontally row landed).foldl
        Screen.strike (machine.screen, collided)
      obtain ⟨width, height, _⟩ := Screen.strikes_keep
        (machine.screen.rowLandings x sprite clipping.horizontally row landed)
        machine.screen collided
      have others := inductionHypothesis { machine with screen := struck.1 } (distance + 1)
        struck.2 (drawable.strikes _ _)
      rw [Screen.rowsLandings_cons machine.screen struck.1 x y sprite clipping row rest placed
        width height]
      simp only [drawRows, run_get_bind, placed, stored, if_true, List.foldl_append]
      rw [run_bind_of_ok bits]
      exact others

/-- On a grid with an area a sprite is drawn to its end. -/
theorem run_draw (clipping : Clipping) (drawable : machine.screen.Drawable) :
    (draw x y sprite clipping).run machine =
      .ok (machine.screen.draw x y sprite clipping).2
        { machine with screen := (machine.screen.draw x y sprite clipping).1 } := by
  have area : ¬(machine.screen.width = 0 ∨ machine.screen.height = 0) := by
    have wide := drawable.wide
    have high := drawable.high
    omega
  simp only [draw, run_get_bind, area, if_false]
  exact run_drawRows machine x y sprite clipping sprite.rows 0 false drawable

end InPlace

end Chip8
