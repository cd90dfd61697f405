import Chip8.Proofs.Drawing
import Chip8.Proofs.Makeup
import Mathlib.Data.List.Nodup

/-!
# Flips

A draw comes down to how often it strikes each pixel. A pixel that is struck an odd number of
times changes, every other one stays, and the order of the strikes does not matter. A screen
that is a grid is known by its size, its colours and its lit pixels, so that two draws which
strike alike leave the same screen.

Where no pixel is struck twice, every strike finds its pixel as it was before the draw. Then
there is a collision exactly if some pixel was lit before and is dark afterwards.
-/

namespace Chip8.Screen

variable {screen : Screen} {landings : List (Nat × Nat)} {x y : Nat}

/-- Whether strikes change a pixel: those that fall on it are odd in number. -/
def flips (landings : List (Nat × Nat)) (x y : Nat) : Bool := landings.count (x, y) % 2 = 1

@[simp]
theorem flips_nil (x y : Nat) : flips [] x y = false := rfl

/-- Strikes that follow each other change what only one of the two parts changes. -/
theorem flips_append (first second : List (Nat × Nat)) (x y : Nat) :
    flips (first ++ second) x y = (flips first x y ^^ flips second x y) := by
  rcases Nat.mod_two_eq_zero_or_one (first.count (x, y)) with even | odd <;>
    rcases Nat.mod_two_eq_zero_or_one (second.count (x, y)) with otherEven | otherOdd <;>
    simp [flips, List.count_append, Nat.add_mod, *]

/-- One more strike changes its own pixel back. -/
theorem flips_cons (landing : Nat × Nat) (rest : List (Nat × Nat)) (x y : Nat) :
    flips (landing :: rest) x y = (decide (landing = (x, y)) ^^ flips rest x y) := by
  have alone : flips [landing] x y = decide (landing = (x, y)) := by
    by_cases here : landing = (x, y) <;> simp [flips, here]
  rw [← List.singleton_append, flips_append, alone]

/-- Where no pixel is struck twice, those that are struck change. -/
theorem flips_of_nodup (apart : landings.Nodup) :
    flips landings x y = decide ((x, y) ∈ landings) := by
  by_cases struck : (x, y) ∈ landings
  · simp [flips, List.count_eq_one_of_mem apart struck, struck]
  · simp [flips, List.count_eq_zero_of_not_mem struck, struck]

/-- A flip changes no pixel but its own. -/
theorem lit_flip_of_ne {left above : Nat} (apart : (left, above) ≠ (x, y)) :
    (screen.flip left above).lit x y = screen.lit x y := by
  simp only [lit, flip, Array.getD_eq_getD_getElem?, Array.getElem?_modify]
  by_cases sameRow : above = y
  · have otherColumn : left ≠ x := fun same => apart (Prod.ext same sameRow)
    cases screen.rows[y]? <;> simp [sameRow, otherColumn, Array.getElem?_modify]
  · simp [sameRow]

/-- A lit pixel lies on the grid. -/
theorem IsGrid.inside_of_lit (grid : screen.IsGrid) (isLit : screen.lit x y = true) :
    x < screen.width.toNat ∧ y < screen.height.toNat := by
  simp only [lit, Array.getD_eq_getD_getElem?] at isLit
  cases row : screen.rows[y]? with
  | none => simp [row] at isLit
  | some pixels =>
    obtain ⟨above, rfl⟩ := Array.getElem?_eq_some_iff.mp row
    rw [← grid.height, ← grid.width _ (Array.getElem_mem above)]
    refine ⟨Nat.lt_of_not_le fun beyond => ?_, above⟩
    simp [above, Array.getElem?_eq_none beyond] at isLit

/-- A flip on the grid turns its own pixel over. -/
theorem IsGrid.lit_flip (grid : screen.IsGrid) (left : x < screen.width.toNat)
    (above : y < screen.height.toNat) : (screen.flip x y).lit x y = !screen.lit x y := by
  have rowThere : y < screen.rows.size := grid.height ▸ above
  have pixelThere : x < screen.rows[y].size :=
    (grid.width _ (Array.getElem_mem rowThere)).symm ▸ left
  simp [lit, Screen.flip, Array.getD_eq_getD_getElem?, Array.getElem_modify, rowThere, pixelThere]

/-- Strikes leave each pixel of the grid changed or not, by their number. -/
theorem IsGrid.lit_strikes (grid : screen.IsGrid) (landings : List (Nat × Nat)) (collided : Bool)
    (left : x < screen.width.toNat) (above : y < screen.height.toNat) :
    (landings.foldl strike (screen, collided)).1.lit x y =
      (screen.lit x y ^^ flips landings x y) := by
  induction landings generalizing screen collided with
  | nil => simp
  | cons landing rest inductionHypothesis =>
    have struck := inductionHypothesis (grid.flip landing.1 landing.2)
      (collided || screen.lit landing.1 landing.2) left above
    rw [List.foldl_cons, flips_cons]
    refine struck.trans ?_
    by_cases here : landing = (x, y)
    · rw [here, grid.lit_flip left above]
      simp
    · rw [lit_flip_of_ne here]
      simp [here]

/-- Where no pixel is struck twice, every strike finds its pixel as it was at first. -/
theorem collided_strikes_iff (apart : landings.Nodup) (screen : Screen) (collided : Bool) :
    (landings.foldl strike (screen, collided)).2 = true ↔
      collided = true ∨ ∃ landing ∈ landings, screen.lit landing.1 landing.2 = true := by
  induction landings generalizing screen collided with
  | nil => simp
  | cons landing rest inductionHypothesis =>
    obtain ⟨fresh, restApart⟩ := List.nodup_cons.mp apart
    -- The first strike leaves the pixels alone that are still to be struck.
    have unchanged : ∀ other ∈ rest,
        (screen.flip landing.1 landing.2).lit other.1 other.2 = screen.lit other.1 other.2 :=
      fun other member => lit_flip_of_ne fun same : landing = other => fresh (same ▸ member)
    have further := inductionHypothesis restApart (screen.flip landing.1 landing.2)
      (collided || screen.lit landing.1 landing.2)
    rw [List.foldl_cons, strike, further]
    simp only [List.exists_mem_cons_iff, Bool.or_eq_true, or_assoc]
    apply or_congr_right
    apply or_congr_right
    apply exists_congr
    intro other
    apply and_congr_right
    intro member
    rw [unchanged other member]

/-- Strikes keep the screen but for its rows. -/
theorem strikes_eq (landings : List (Nat × Nat)) (screen : Screen) (collided : Bool) :
    (landings.foldl strike (screen, collided)).1 =
      { screen with rows := (landings.foldl strike (screen, collided)).1.rows } := by
  obtain ⟨width, height, _⟩ := strikes_keep landings screen collided
  obtain ⟨on, off⟩ := strikes_colors landings screen collided
  rw [Screen.mk.injEq]
  exact ⟨width, height, rfl, on, off⟩

/-- Two grids of one size with the same lit pixels have the same rows. -/
theorem IsGrid.rows_eq {other : Screen} (grid : screen.IsGrid) (otherGrid : other.IsGrid)
    (width : screen.width = other.width) (height : screen.height = other.height)
    (alike : ∀ x < screen.width.toNat, ∀ y < screen.height.toNat,
      screen.lit x y = other.lit x y) : screen.rows = other.rows := by
  have sameHeight : screen.rows.size = other.rows.size := by
    rw [grid.height, otherGrid.height, height]
  refine Array.ext sameHeight fun y rowThere otherThere => ?_
  have long := grid.width _ (Array.getElem_mem rowThere)
  have otherLong := otherGrid.width _ (Array.getElem_mem otherThere)
  refine Array.ext (by rw [long, otherLong, width]) fun x pixelThere otherPixel => ?_
  have pixel := alike x (long ▸ pixelThere) y (grid.height ▸ rowThere)
  simpa [lit, Array.getD_eq_getD_getElem?, rowThere, otherThere, pixelThere, otherPixel] using pixel

/-- Strikes that change the same pixels leave the same screen, in whatever order they come. -/
theorem IsGrid.strikes_congr (grid : screen.IsGrid) {first second : List (Nat × Nat)}
    (alike : ∀ x y, flips first x y = flips second x y) (collided collidedBeside : Bool) :
    (first.foldl strike (screen, collided)).1 =
      (second.foldl strike (screen, collidedBeside)).1 := by
  obtain ⟨width, height, keeps⟩ := strikes_keep first screen collided
  obtain ⟨widthBeside, heightBeside, keepsBeside⟩ := strikes_keep second screen collidedBeside
  rw [strikes_eq first, strikes_eq second, Screen.mk.injEq]
  refine ⟨rfl, rfl, ?_, rfl, rfl⟩
  refine (keeps grid).rows_eq (keepsBeside grid) (width.trans widthBeside.symm)
    (height.trans heightBeside.symm) fun x left y above => ?_
  rw [width] at left
  rw [height] at above
  rw [grid.lit_strikes _ _ left above, grid.lit_strikes _ _ left above, alike]

end Chip8.Screen
