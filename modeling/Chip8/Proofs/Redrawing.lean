import Chip8.Proofs.Sprites

/-!
# Drawing again

Where a draw strikes depends on the size of the screen alone, and not on its pixels. So a draw
that is repeated strikes every pixel as often as before, and takes itself back, and two draws
leave the same screen in either order. Both hold of every sprite, be it larger than the screen
and wrapped onto itself.

A collision tells of strikes only where no pixel is struck twice. There a dark screen reports
none, and the repeated draw reports one exactly if the first had lit a pixel.
-/

namespace Chip8.Screen

variable {screen other : Screen}

/-- No pixel is lit. -/
def IsDark (screen : Screen) : Prop := ∀ left above, screen.lit left above = false

/-- A screen that was darkened is dark. -/
theorem isDark_dark (width height colorOn colorOff : Int) :
    (dark width height colorOn colorOff).IsDark := by
  intro left above
  simp only [lit, dark, darkRows, Array.getD_eq_getD_getElem?, Array.getElem?_replicate]
  split
  · simp only [Option.getD_some, Array.getElem?_replicate]
    split <;> rfl
  · rfl

/-- Where a draw strikes depends on the size of the screen. -/
theorem landings_congr (width : other.width = screen.width) (height : other.height = screen.height)
    (x y : Int) (sprite : Sprite) (clipping : Clipping) :
    other.landings x y sprite clipping = screen.landings x y sprite clipping := by
  simp only [landings, rowLandings, width, height]

/-- A draw leaves a grid with its area. -/
theorem Drawable.draw (drawable : screen.Drawable) (x y : Int) (sprite : Sprite)
    (clipping : Clipping) : (screen.draw x y sprite clipping).1.Drawable :=
  drawable.strikes _ false

/-- Two draws strike as one list. -/
theorem IsGrid.draw_draw (grid : screen.IsGrid) (x y : Int) (sprite : Sprite) (clipping : Clipping)
    (x' y' : Int) (sprite' : Sprite) (clipping' : Clipping) :
    ((screen.draw x y sprite clipping).1.draw x' y' sprite' clipping').1 =
      ((screen.landings x y sprite clipping ++ screen.landings x' y' sprite' clipping').foldl
        strike (screen, false)).1 := by
  have same := landings_congr (draw_width screen x y sprite clipping)
    (draw_height screen x y sprite clipping) x' y' sprite' clipping'
  rw [Screen.draw, same, List.foldl_append]
  exact (grid.draw x y sprite clipping).strikes_congr (fun _ _ => rfl) false _

/-- A draw that is repeated takes itself back. -/
theorem IsGrid.redraw (grid : screen.IsGrid) (x y : Int) (sprite : Sprite) (clipping : Clipping) :
    ((screen.draw x y sprite clipping).1.draw x y sprite clipping).1 = screen := by
  rw [grid.draw_draw]
  let landings := screen.landings x y sprite clipping
  have even : ∀ left above, flips (landings ++ landings) left above = flips [] left above := by
    intro left above
    rw [flips_append, Bool.xor_self, flips_nil]
  exact grid.strikes_congr even false false

/-- Draws can be exchanged. -/
theorem IsGrid.draw_comm (grid : screen.IsGrid) (x y : Int) (sprite : Sprite) (clipping : Clipping)
    (x' y' : Int) (sprite' : Sprite) (clipping' : Clipping) :
    ((screen.draw x y sprite clipping).1.draw x' y' sprite' clipping').1 =
      ((screen.draw x' y' sprite' clipping').1.draw x y sprite clipping).1 := by
  rw [grid.draw_draw, grid.draw_draw]
  refine grid.strikes_congr (fun left above => ?_) false false
  rw [flips_append, flips_append, Bool.xor_comm]

/-- On a dark screen a sprite that fits meets no lit pixel. Drawn again it meets those that it
has lit. -/
theorem Drawable.collisions_of_isDark (drawable : screen.Drawable) (isDark : screen.IsDark)
    (x y : Int) {sprite : Sprite} {clipping : Clipping} (fits : sprite.Fits screen clipping) :
    let once := screen.draw x y sprite clipping
    let twice := once.1.draw x y sprite clipping
    once.2 = false ∧ (twice.2 = true ↔ ∃ left above, once.1.lit left above = true) := by
  intro once twice
  have overlays := drawable.draw_overlays x y fits
  have fitsAgain : sprite.Fits once.1 clipping :=
    ⟨overlays.width ▸ fits.across, overlays.height ▸ fits.down⟩
  have overlaysAgain := (drawable.draw x y sprite clipping).draw_overlays x y fitsAgain
  constructor
  · refine Bool.eq_false_iff.mpr fun collided => ?_
    obtain ⟨left, above, isLit, _⟩ := overlays.collided.mp collided
    cases isLit.symm.trans (isDark left above)
  · rw [overlaysAgain.collided, drawable.grid.redraw]
    simp only [isDark _ _, and_true]
    rfl

/-- On any screen with an area, a sprite that is drawn twice leaves the screen as it was, and
two sprites leave the same screen in either order, however they wrap. On a dark screen a sprite
that fits collides with nothing, and drawn again it collides exactly if it had lit a pixel. -/
theorem Drawable.redraws (drawable : screen.Drawable) :
    (∀ x y sprite clipping, ∃ once first second,
      screen.draw? x y sprite clipping = .ok (once, first) ∧
        once.draw? x y sprite clipping = .ok (screen, second) ∧
        (sprite.Fits screen clipping → screen.IsDark →
          first = false ∧ (second = true ↔ ∃ left above, once.lit left above = true))) ∧
      ∀ x y sprite clipping x' y' sprite' clipping',
        ∃ one other both, ∃ first second first' second' : Bool,
          screen.draw? x y sprite clipping = .ok (one, first) ∧
            one.draw? x' y' sprite' clipping' = .ok (both, second) ∧
            screen.draw? x' y' sprite' clipping' = .ok (other, first') ∧
            other.draw? x y sprite clipping = .ok (both, second') := by
  constructor
  · intro x y sprite clipping
    let once := screen.draw x y sprite clipping
    let twice := once.1.draw x y sprite clipping
    have back : twice = (screen, twice.2) := Prod.ext (drawable.grid.redraw x y sprite clipping) rfl
    have again := (drawable.draw x y sprite clipping).draw?_eq x y sprite clipping
    exact ⟨once.1, once.2, twice.2, drawable.draw?_eq x y sprite clipping,
      again.trans (congrArg Except.ok back),
      fun fits isDark => drawable.collisions_of_isDark isDark x y fits⟩
  · intro x y sprite clipping x' y' sprite' clipping'
    let one := screen.draw x y sprite clipping
    let other := screen.draw x' y' sprite' clipping'
    let both := one.1.draw x' y' sprite' clipping'
    let exchanged := other.1.draw x y sprite clipping
    have same : exchanged = (both.1, exchanged.2) :=
      Prod.ext (drawable.grid.draw_comm x' y' sprite' clipping' x y sprite clipping) rfl
    have behind := (drawable.draw x' y' sprite' clipping').draw?_eq x y sprite clipping
    exact ⟨one.1, other.1, both.1, one.2, both.2, other.2, exchanged.2,
      drawable.draw?_eq x y sprite clipping,
      (drawable.draw x y sprite clipping).draw?_eq x' y' sprite' clipping',
      drawable.draw?_eq x' y' sprite' clipping',
      behind.trans (congrArg Except.ok same)⟩

/-- A sprite that fits, and one that wraps onto itself on both axes of a small dark screen. -/
theorem redraws_of_smallScreen :
    let screen := dark 3 2 0xFFFFFF 0
    let small : Sprite := ⟨2, [-1]⟩
    let large : Sprite := ⟨5, [27, 1, 7]⟩
    let wraps : Clipping := ⟨false, false⟩
    screen.Drawable ∧ small.Fits screen wraps ∧ ¬large.Fits screen wraps ∧ screen.IsDark ∧
      (∃ once, screen.draw? 2 1 small wraps = .ok (once, false) ∧
        once.draw? 2 1 small wraps = .ok (screen, true)) ∧
      ∃ one other both, ∃ first second first' second' : Bool,
        screen.draw? (-1) 5 large wraps = .ok (one, first) ∧
          one.draw? 2 1 small wraps = .ok (both, second) ∧
          screen.draw? 2 1 small wraps = .ok (other, first') ∧
          other.draw? (-1) 5 large wraps = .ok (both, second') := by
  intro screen small large wraps
  have drawable : screen.Drawable := ⟨isGrid_of_dark rfl, by decide, by decide⟩
  have fits : small.Fits screen wraps := ⟨.inl (by decide), .inl (by decide)⟩
  have isDark : screen.IsDark := isDark_dark 3 2 0xFFFFFF 0
  have tooLarge : ¬large.Fits screen wraps := by
    rintro ⟨wide | clips, _⟩
    · exact absurd wide (by decide)
    · cases clips
  obtain ⟨takesBack, exchanges⟩ := drawable.redraws
  obtain ⟨once, first, second, drew, back, collisions⟩ := takesBack 2 1 small wraps
  obtain ⟨rfl, met⟩ := collisions fits isDark
  have litOnce : once.lit 2 1 = true := by
    have known : screen.draw? 2 1 small wraps =
        .ok (((dark 3 2 0xFFFFFF 0).flip 2 1).flip 0 1, false) := by decide +kernel
    cases drew.symm.trans known
    decide
  cases met.mpr ⟨2, 1, litOnce⟩
  exact ⟨drawable, fits, tooLarge, isDark, ⟨once, drew, back⟩,
    exchanges (-1) 5 large wraps 2 1 small wraps⟩

end Chip8.Screen
