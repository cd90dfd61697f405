import Chip8.Proofs.Flips
import Mathlib.Data.Int.Bitwise
import Mathlib.Algebra.Order.Group.Unbundled.Int

/-!
# Sprites on a screen

Where each bit of a sprite lands, axis by axis, told without the lists of the drawing loop:
the origin wraps onto the screen, and from there a cell lies at its distance, unless it is cut
off on a clipped axis, or wraps on one that is not.

Where a sprite is clipped or no larger than the screen, no two of its bits land on one pixel.
Then a draw is an overlay. Every pixel on which a bit lands becomes the exclusive or of what
it was and the bit, all others stay, and a collision is a lit pixel that went dark.
-/

namespace Chip8

/-- The bit of a row and a column in two's complement, the most significant of the lower bits
leftmost. -/
def Sprite.bitAt (sprite : Sprite) (row column : Nat) : Bool :=
  (sprite.rows.getD row 0).testBit (sprite.width - 1 - column)

/-- On each axis the sprite is clipped, or no larger than the screen. -/
structure Sprite.Fits (sprite : Sprite) (screen : Screen) (clipping : Clipping) : Prop where
  across : (sprite.width : Int) ≤ screen.width ∨ clipping.horizontally = true
  down : (sprite.rows.length : Int) ≤ screen.height ∨ clipping.vertically = true

namespace Screen

/-- A cell at a distance from the wrapped origin comes to lie at a place of the axis. -/
def Reaches (extent origin : Int) (clipped : Bool) (distance landed : Nat) : Prop :=
  if clipped then (landed : Int) = origin % extent + distance ∧ (landed : Int) < extent
  else (landed : Int) = (origin % extent + distance) % extent

/-- The bit of a row and a column, set or not, lands on a pixel. -/
structure Lands (screen : Screen) (x y : Int) (sprite : Sprite) (clipping : Clipping)
    (row column left above : Nat) : Prop where
  inRows : row < sprite.rows.length
  inColumns : column < sprite.width
  across : Reaches screen.width x clipping.horizontally column left
  down : Reaches screen.height y clipping.vertically row above

/-- The screen after a sprite was drawn on it, and whether there was a collision. -/
structure Overlays (screen : Screen) (x y : Int) (sprite : Sprite) (clipping : Clipping)
    (drawn : Screen) (collided : Bool) : Prop where
  width : drawn.width = screen.width
  height : drawn.height = screen.height
  grid : drawn.IsGrid
  struck : ∀ row column left above, screen.Lands x y sprite clipping row column left above →
    drawn.lit left above = (screen.lit left above ^^ sprite.bitAt row column)
  missed : ∀ left above,
    (∀ row column, ¬screen.Lands x y sprite clipping row column left above) →
      drawn.lit left above = screen.lit left above
  collided : collided = true ↔
    ∃ left above, screen.lit left above = true ∧ drawn.lit left above = false

variable {screen : Screen} {x y : Int} {sprite : Sprite} {clipping : Clipping}
  {extent origin : Int} {clipped : Bool} {distance further landed row column left above : Nat}

/-- A bit is read as in two's complement. -/
theorem bit_eq_testBit (sprite : Sprite) (row : Int) (column : Nat) :
    sprite.bit row column = row.testBit (sprite.width - 1 - column) := by
  generalize shift : sprite.width - 1 - column = count
  cases row with
  | ofNat number =>
    have shifted : (Int.ofNat number) >>> count = ((number / 2 ^ count : Nat) : Int) :=
      congrArg Int.ofNat (Nat.shiftRight_eq_div_pow number count)
    rw [Sprite.bit, shift, shifted, Int.testBit, Nat.testBit_eq_decide_div_mod_eq]
    exact decide_eq_decide.mpr (by omega)
  | negSucc number =>
    have shifted : (Int.negSucc number) >>> count = Int.negSucc (number / 2 ^ count) :=
      congrArg Int.negSucc (Nat.shiftRight_eq_div_pow number count)
    rw [Sprite.bit, shift, shifted, Int.testBit, Nat.testBit_eq_decide_div_mod_eq, Int.negSucc_eq,
      ← decide_not]
    exact decide_eq_decide.mpr (by omega)

/-- Cells are placed where they reach. -/
theorem place_eq_some_iff (positive : 0 < extent) :
    place extent.toNat origin clipped distance = some landed ↔
      Reaches extent origin clipped distance landed := by
  have size : (extent.toNat : Int) = extent := Int.toNat_of_nonneg (Int.le_of_lt positive)
  have wrapped : ((origin % extent).toNat : Int) = origin % extent :=
    Int.toNat_of_nonneg (Int.emod_nonneg _ (Int.ne_of_gt positive))
  simp only [place, Reaches, size]
  by_cases within : (origin % extent).toNat + distance < extent.toNat
  · have inside : (origin % extent + distance) % extent = origin % extent + distance :=
      Int.emod_eq_of_lt (by omega) (by omega)
    rw [if_pos within, inside, Option.some.injEq]
    split <;> omega
  · rw [if_neg within]
    cases clipped with
    | true => simp; omega
    | false =>
      simp only [Bool.false_eq_true, if_false, Option.some.injEq]
      rw [← Int.natCast_inj, Int.natCast_emod, Int.natCast_add, size, wrapped]
      exact eq_comm

/-- A cell reaches a place of the axis only. -/
theorem Reaches.inside (positive : 0 < extent)
    (reaches : Reaches extent origin clipped distance landed) : landed < extent.toNat :=
  place_lt (by omega) ((place_eq_some_iff positive).mpr reaches)

/-- Two cells reach one place only if they are as far apart as the screen is large. -/
theorem Reaches.unique (near : (distance : Int) < extent ∨ clipped = true)
    (alsoNear : (further : Int) < extent ∨ clipped = true)
    (reaches : Reaches extent origin clipped distance landed)
    (alsoReaches : Reaches extent origin clipped further landed) : distance = further := by
  unfold Reaches at reaches alsoReaches
  split at reaches
  case isTrue clips =>
    rw [if_pos clips] at alsoReaches
    omega
  case isFalse wraps =>
    rw [if_neg wraps] at alsoReaches
    -- Wrapped cells of one place differ by a multiple of the extent, and these by less than it.
    have nearer := near.resolve_right wraps
    have alsoNearer := alsoNear.resolve_right wraps
    have same := Int.emod_eq_emod_iff_emod_sub_eq_zero.mp (reaches.symm.trans alsoReaches)
    rw [Int.add_sub_add_left] at same
    have apart : (distance : Int) - further = 0 :=
      Int.eq_zero_of_abs_lt_dvd (Int.dvd_of_emod_eq_zero same) (abs_lt.mpr ⟨by omega, by omega⟩)
    omega

/-- No two bits of a sprite that fits land on one pixel. -/
theorem Lands.unique {otherRow otherColumn : Nat} (fits : sprite.Fits screen clipping)
    (lands : screen.Lands x y sprite clipping row column left above)
    (alsoLands : screen.Lands x y sprite clipping otherRow otherColumn left above) :
    row = otherRow ∧ column = otherColumn := by
  have inRows := lands.inRows
  have inColumns := lands.inColumns
  have alsoInRows := alsoLands.inRows
  have alsoInColumns := alsoLands.inColumns
  constructor
  · exact lands.down.unique (fits.down.imp_left (by omega)) (fits.down.imp_left (by omega))
      alsoLands.down
  · exact lands.across.unique (fits.across.imp_left (by omega)) (fits.across.imp_left (by omega))
      alsoLands.across

/-- A set bit of a row strikes the place that it reaches in it. -/
theorem rowLanding_eq_some_iff (wide : 0 < screen.width) {row : Int} {clipped : Bool}
    {line : Nat} :
    (if sprite.bit row column then
        (place screen.width.toNat x clipped column).map fun landed => (landed, line)
      else none) = some (left, above) ↔
      above = line ∧ sprite.bit row column = true ∧
        Reaches screen.width x clipped column left := by
  rw [← place_eq_some_iff wide]
  cases sprite.bit row column with
  | false => simp
  | true =>
    simp only [if_true, Option.map_eq_some_iff, Prod.mk.injEq, true_and]
    constructor
    · rintro ⟨landed, placed, rfl, rfl⟩
      exact ⟨rfl, placed⟩
    · rintro ⟨rfl, placed⟩
      exact ⟨left, placed, rfl, rfl⟩

/-- The set bits of a row strike the places that they reach in it. -/
theorem mem_rowLandings (wide : 0 < screen.width) {row : Int} {clipped : Bool} {line : Nat} :
    (left, above) ∈ screen.rowLandings x sprite clipped row line ↔
      above = line ∧ ∃ column < sprite.width, sprite.bit row column = true ∧
        Reaches screen.width x clipped column left := by
  simp only [rowLandings, List.mem_filterMap, List.mem_range, rowLanding_eq_some_iff wide]
  constructor
  · rintro ⟨column, inside, same, struck⟩
    exact ⟨same, column, inside, struck⟩
  · rintro ⟨same, column, inside, struck⟩
    exact ⟨column, inside, same, struck⟩

/-- A row of a sprite strikes the pixels that its set bits reach in the line that it reaches. -/
theorem Drawable.mem_rowStrikes (drawable : screen.Drawable) {bits : Int} :
    ((left, above) ∈
      match place screen.height.toNat y clipping.vertically distance with
      | none => []
      | some line => screen.rowLandings x sprite clipping.horizontally bits line) ↔
      Reaches screen.height y clipping.vertically distance above ∧
        ∃ column < sprite.width, sprite.bit bits column = true ∧
          Reaches screen.width x clipping.horizontally column left := by
  rw [← place_eq_some_iff drawable.high]
  cases place screen.height.toNat y clipping.vertically distance with
  | none => simp
  | some line => rw [mem_rowLandings drawable.wide, Option.some.injEq, eq_comm]

/-- A draw strikes the pixels on which a set bit lands. -/
theorem Drawable.mem_landings (drawable : screen.Drawable) :
    (left, above) ∈ screen.landings x y sprite clipping ↔
      ∃ row column, screen.Lands x y sprite clipping row column left above ∧
        sprite.bitAt row column = true := by
  simp only [landings, List.mem_flatMap, Prod.exists, List.mem_zipIdx_iff_getElem?]
  constructor
  · rintro ⟨bits, row, found, struck⟩
    obtain ⟨down, column, inColumns, isSet, across⟩ := drawable.mem_rowStrikes.mp struck
    obtain ⟨inRows, rfl⟩ := List.getElem?_eq_some_iff.mp found
    refine ⟨row, column, ⟨inRows, inColumns, across, down⟩, ?_⟩
    rw [← isSet, bit_eq_testBit, Sprite.bitAt, List.getD_eq_getElem _ _ inRows]
  · rintro ⟨row, column, ⟨inRows, inColumns, across, down⟩, isSet⟩
    rw [Sprite.bitAt, List.getD_eq_getElem _ _ inRows, ← bit_eq_testBit] at isSet
    refine ⟨sprite.rows[row], row, List.getElem?_eq_getElem inRows, ?_⟩
    exact drawable.mem_rowStrikes.mpr ⟨down, column, inColumns, isSet, across⟩

/-- A row that fits strikes no pixel twice. -/
theorem nodup_rowLandings (wide : 0 < screen.width) {clipped : Bool}
    (fits : (sprite.width : Int) ≤ screen.width ∨ clipped = true) (row : Int) (line : Nat) :
    (screen.rowLandings x sprite clipped row line).Nodup := by
  refine List.pairwise_filterMap.mpr (List.pairwise_lt_range.imp_of_mem ?_)
  rintro column further inside alsoInside before ⟨left, above⟩ struck _ alsoStruck rfl
  obtain ⟨_, _, reaches⟩ := (rowLanding_eq_some_iff wide).mp struck
  obtain ⟨_, _, alsoReaches⟩ := (rowLanding_eq_some_iff wide).mp alsoStruck
  rw [List.mem_range] at inside alsoInside
  have same := reaches.unique (fits.imp_left (by omega)) (fits.imp_left (by omega)) alsoReaches
  omega

/-- A draw of a sprite that fits strikes no pixel twice: no two of its rows share a line. -/
theorem Drawable.nodup_landings (drawable : screen.Drawable) (fits : sprite.Fits screen clipping) :
    (screen.landings x y sprite clipping).Nodup := by
  refine List.nodup_flatMap.mpr ⟨?_, ?_⟩
  · rintro ⟨row, distance⟩ _
    dsimp only
    split
    · exact List.nodup_nil
    · exact nodup_rowLandings drawable.wide fits.across row _
  · have ascending : (sprite.rows.zipIdx.map Prod.snd).Pairwise (· < ·) := by
      rw [List.zipIdx_map_snd]
      exact List.pairwise_lt_range'
    refine (List.pairwise_map.mp ascending).imp_of_mem ?_
    rintro ⟨bits, row⟩ ⟨otherBits, otherRow⟩ found alsoFound before
    have inRows := List.snd_lt_of_mem_zipIdx found
    have alsoInRows := List.snd_lt_of_mem_zipIdx alsoFound
    dsimp only at before inRows alsoInRows
    rintro ⟨left, above⟩ struck alsoStruck
    obtain ⟨down, _⟩ := drawable.mem_rowStrikes.mp struck
    obtain ⟨alsoDown, _⟩ := drawable.mem_rowStrikes.mp alsoStruck
    have near := fits.down.imp_left (b := (row : Int) < screen.height) (by omega)
    have alsoNear := fits.down.imp_left (b := (otherRow : Int) < screen.height) (by omega)
    have same := down.unique near alsoNear alsoDown
    omega

/-- A draw strikes pixels of the screen only. -/
theorem Lands.inside (drawable : screen.Drawable)
    (lands : screen.Lands x y sprite clipping row column left above) :
    left < screen.width.toNat ∧ above < screen.height.toNat :=
  ⟨lands.across.inside drawable.wide, lands.down.inside drawable.high⟩

/-- A draw changes the pixels that it strikes an odd number of times. -/
theorem Drawable.lit_draw (drawable : screen.Drawable) (x y : Int) (sprite : Sprite)
    (clipping : Clipping) (left above : Nat) :
    (screen.draw x y sprite clipping).1.lit left above =
      (screen.lit left above ^^ flips (screen.landings x y sprite clipping) left above) := by
  by_cases inside : left < screen.width.toNat ∧ above < screen.height.toNat
  · exact drawable.grid.lit_strikes _ _ inside.1 inside.2
  · -- Beside the grid nothing is lit, and nothing lands.
    have dark : screen.lit left above = false :=
      Bool.eq_false_iff.mpr fun isLit => inside (drawable.grid.inside_of_lit isLit)
    have stillDark : (screen.draw x y sprite clipping).1.lit left above = false := by
      refine Bool.eq_false_iff.mpr fun isLit => inside ?_
      simpa using (drawable.grid.draw x y sprite clipping).inside_of_lit isLit
    have missed : (left, above) ∉ screen.landings x y sprite clipping := by
      intro struck
      obtain ⟨row, column, lands, _⟩ := drawable.mem_landings.mp struck
      exact inside (lands.inside drawable)
    rw [dark, stillDark, flips, List.count_eq_zero_of_not_mem missed]
    rfl

/-- A draw of a sprite that fits is an overlay. -/
theorem Drawable.draw_overlays (drawable : screen.Drawable) (x y : Int)
    (fits : sprite.Fits screen clipping) :
    screen.Overlays x y sprite clipping (screen.draw x y sprite clipping).1
      (screen.draw x y sprite clipping).2 := by
  have apart : (screen.landings x y sprite clipping).Nodup := drawable.nodup_landings fits
  have changes := drawable.lit_draw x y sprite clipping
  constructor
  case width => exact draw_width ..
  case height => exact draw_height ..
  case grid => exact drawable.grid.draw ..
  case struck =>
    intro row column left above lands
    rw [changes, flips_of_nodup apart]
    congr 1
    rw [Bool.eq_iff_iff, decide_eq_true_eq, drawable.mem_landings]
    constructor
    · rintro ⟨otherRow, otherColumn, alsoLands, isSet⟩
      obtain ⟨rfl, rfl⟩ := lands.unique fits alsoLands
      exact isSet
    · exact fun isSet => ⟨row, column, lands, isSet⟩
  case missed =>
    intro left above misses
    have missed : (left, above) ∉ screen.landings x y sprite clipping := by
      intro struck
      obtain ⟨row, column, lands, _⟩ := drawable.mem_landings.mp struck
      exact misses row column lands
    rw [changes, flips_of_nodup apart, decide_eq_false missed, Bool.xor_false]
  case collided =>
    refine (collided_strikes_iff apart screen false).trans ?_
    simp only [Bool.false_eq_true, false_or, Prod.exists]
    refine exists_congr fun left => exists_congr fun above => ?_
    rw [changes, flips_of_nodup apart, and_comm]
    refine and_congr_right fun isLit => ?_
    simp [isLit]

/-- A sprite is drawn to its end on a grid with an area, in one piece or bit by bit. -/
theorem Drawable.draw?_eq (drawable : screen.Drawable) (x y : Int) (sprite : Sprite)
    (clipping : Clipping) :
    screen.draw? x y sprite clipping = .ok (screen.draw x y sprite clipping) := by
  have wide := drawable.wide
  have high := drawable.high
  rw [draw?, if_neg (by omega), if_pos ⟨wide, high⟩]

/-- A sprite no two of whose bits can land on one pixel is overlaid on the screen, wherever its
origin is. The same screen and the same report come from drawing it bit by bit, where the first
bit and the first row that are cut off end their loops. -/
theorem Drawable.overlaid (drawable : screen.Drawable) (x y : Int)
    (fits : sprite.Fits screen clipping) :
    ∃ drawn collided, screen.draw? x y sprite clipping = .ok (drawn, collided) ∧
      screen.Overlays x y sprite clipping drawn collided ∧
      ∀ machine : Machine, machine.screen = screen →
        (InPlace.draw x y sprite clipping).run machine =
          .ok collided { machine with screen := drawn } := by
  refine ⟨_, _, drawable.draw?_eq x y sprite clipping, drawable.draw_overlays x y fits, ?_⟩
  rintro machine rfl
  exact InPlace.run_draw machine x y sprite clipping drawable

/-- On a small screen with one lit pixel a sprite wraps to the left, puts out the pixel, and
loses its second row. -/
theorem overlaid_of_smallScreen :
    let screen := (dark 5 3 0xFFFFFF 0).flip 0 2
    let sprite : Sprite := ⟨4, [-6, 15]⟩
    let drawn := (dark 5 3 0xFFFFFF 0).flip 3 2
    screen.Drawable ∧ sprite.Fits screen ⟨true, false⟩ ∧
      screen.draw? (-2) 2 sprite ⟨true, false⟩ = .ok (drawn, true) ∧
      screen.Overlays (-2) 2 sprite ⟨true, false⟩ drawn true := by
  intro screen sprite drawn
  have drawable : screen.Drawable := ⟨(isGrid_of_dark rfl).flip 0 2, by decide, by decide⟩
  have fits : sprite.Fits screen ⟨true, false⟩ := ⟨.inl (by decide), .inr rfl⟩
  obtain ⟨_, _, drew, overlays, _⟩ := drawable.overlaid (-2) 2 fits
  have known : screen.draw? (-2) 2 sprite ⟨true, false⟩ = .ok (drawn, true) := by decide +kernel
  cases drew.symm.trans known
  exact ⟨drawable, fits, known, overlays⟩

end Screen

end Chip8
