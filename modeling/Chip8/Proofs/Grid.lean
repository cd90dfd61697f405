import Chip8.Screen

/-!
# The grid of pixels

A screen is a grid when it has as many rows as it is high, and each of them as many
pixels as it is wide. A dark screen is a grid, and flipping pixels keeps it one, so
that drawing does as well. On a grid every place within the size has a pixel.
-/

namespace Chip8.Screen

/-- The rows fit the size of the screen. -/
structure IsGrid (screen : Screen) : Prop where
  height : screen.rows.size = screen.height.toNat
  width : ∀ row ∈ screen.rows, row.size = screen.width.toNat

/-- Rows of dark pixels fit their size. -/
theorem isGrid_of_dark {screen : Screen}
    (isDark : screen.rows = darkRows screen.width screen.height) : screen.IsGrid := by
  constructor
  · rw [isDark]
    simp only [darkRows, Array.size_replicate]
  · intro row member
    rw [isDark] at member
    rw [Array.eq_of_mem_replicate member, Array.size_replicate]

theorem isGrid_standard : standard.IsGrid := isGrid_of_dark rfl

theorem isGrid_clear (screen : Screen) : screen.clear.IsGrid := isGrid_of_dark rfl

theorem isGrid_setExtended (screen : Screen) (on : Bool) : (screen.setExtended on).IsGrid := by
  cases on <;> exact isGrid_of_dark rfl

/-- A flip changes no size. -/
theorem IsGrid.flip {screen : Screen} (grid : screen.IsGrid) (x y : Nat) :
    (screen.flip x y).IsGrid := by
  constructor
  · change (screen.rows.modify y _).size = _
    rw [Array.size_modify]
    exact grid.height
  · intro row member
    obtain ⟨index, bound, rfl⟩ := Array.mem_iff_getElem.mp member
    have inside : index < screen.rows.size := by
      simpa only [Screen.flip, Array.size_modify] using bound
    simp only [Screen.flip, Array.getElem_modify]
    split
    · rw [Array.size_modify]
      exact grid.width _ (Array.getElem_mem inside)
    · exact grid.width _ (Array.getElem_mem inside)

/-- Striking places, one after the other, keeps the size and the grid. -/
theorem strikes_keep (landings : List (Nat × Nat)) (screen : Screen) (collided : Bool) :
    let struck := (landings.foldl strike (screen, collided)).1
    struck.width = screen.width ∧ struck.height = screen.height ∧
      (screen.IsGrid → struck.IsGrid) := by
  induction landings generalizing screen collided with
  | nil => exact ⟨rfl, rfl, id⟩
  | cons landing rest inductionHypothesis =>
    obtain ⟨width, height, grid⟩ := inductionHypothesis (screen.flip landing.1 landing.2)
      (collided || screen.lit landing.1 landing.2)
    exact ⟨width, height, fun before => grid (before.flip landing.1 landing.2)⟩

variable (screen : Screen) (x y : Int) (sprite : Sprite) (clipping : Clipping)

/-- Drawing keeps the size of the screen. -/
@[simp]
theorem draw_width : (screen.draw x y sprite clipping).1.width = screen.width :=
  (strikes_keep _ screen false).1

@[simp]
theorem draw_height : (screen.draw x y sprite clipping).1.height = screen.height :=
  (strikes_keep _ screen false).2.1

variable {screen}

/-- Drawing keeps the grid. -/
theorem IsGrid.draw (grid : screen.IsGrid) : (screen.draw x y sprite clipping).1.IsGrid :=
  (strikes_keep _ screen false).2.2 grid

/-- A place on a grid has a pixel. -/
theorem IsGrid.pixel (grid : screen.IsGrid) {x y : Nat} (left : x < screen.width.toNat)
    (above : y < screen.height.toNat) :
    (screen.rows[y]?).bind (fun row => row[x]?) = some (screen.lit x y) := by
  have rowThere : y < screen.rows.size := by
    rw [grid.height]
    exact above
  have pixelThere : x < screen.rows[y].size := by
    rw [grid.width _ (Array.getElem_mem rowThere)]
    exact left
  simp [lit, Array.getD, rowThere, pixelThere]

end Chip8.Screen
