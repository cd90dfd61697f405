import Chip8.Proofs.Effects
import Chip8.Proofs.Faults
import Chip8.Proofs.Loading
import Chip8.Proofs.Redrawing

/-!
# Painting

What the draw instruction does to a machine. Its sprite is told from the bytes at the index:
one for each row of eight pixels, or, for a height of zero on the larger screen of the extended
set, two for each of sixteen rows. The place is told from the two registers as they were before
the step, so that it does not matter whether one of them is the flag.

Every sprite of an instruction fits both sizes of the screen. So the draw is an overlay, the
flag tells of the lit pixels that went dark, and the same instruction, met with the same
operands, takes the draw back.
-/

namespace Chip8

namespace Machine

variable {machine attempted next again : Machine} {word : Word} {progress : Progress}
  {height : Fin 16} {found : Sprite}

/-- The sprite that the bytes at the index show. -/
def picture (machine : Machine) (height : Fin 16) : Sprite :=
  let byte (offset : Nat) : Int :=
    (machine.memory.byteAt (machine.registers.index.toNat + offset)).toNat
  if height = 0 ∧ machine.dialect.extendedDisplay = true ∧
      machine.screen.width = 128 ∧ machine.screen.height = 64 then
    ⟨16, (List.range 16).map fun row => 256 * byte (2 * row) + byte (2 * row + 1)⟩
  else ⟨8, (List.range height.val).map byte⟩

/-- What a draw has made of a machine. -/
structure Paints (machine : Machine) (word : Word) (next : Machine) : Prop where
  /-- The bytes of the sprite all lie in memory. -/
  inside : machine.registers.index.toNat + machine.spriteLength word.n ≤ 0x1000
  /-- The sprite was overlaid where the registers said, and the flag tells of a collision. -/
  overlay : ∃ collided,
    machine.screen.Overlays (machine.registers.get word.x).toNat
        (machine.registers.get word.y).toNat (machine.picture word.n)
        ⟨machine.dialect.clipSpritesVertically, machine.dialect.clipSpritesHorizontally⟩
        next.screen collided ∧
      next.registers.get Registers.flag = if collided then 1 else 0
  registers : ∀ register, register ≠ Registers.flag →
    next.registers.get register = machine.registers.get register
  index : next.registers.index = machine.registers.index
  memory : next.memory = machine.memory
  pc : next.registers.pc.toNat = machine.registers.pc.toNat + 2

/-- A machine is about to repeat a draw, on the screen that it has left. -/
structure Repeats (machine : Machine) (word : Word) (next again : Machine) : Prop where
  fetched : again.fetch.result = .ok word
  screen : again.screen = next.screen
  memory : again.memory = machine.memory
  dialect : again.dialect = machine.dialect
  index : again.registers.index = machine.registers.index
  left : again.registers.get word.x = machine.registers.get word.x
  above : again.registers.get word.y = machine.registers.get word.y

/-- Rows of two bytes, told by their numbers. -/
theorem wideRows_map_range (byte : Nat → UInt8) (count : Nat) :
    wideRows ((List.range (2 * count)).map byte) =
      (List.range count).map fun row =>
        256 * ((byte (2 * row)).toNat : Int) + (byte (2 * row + 1)).toNat := by
  induction count generalizing byte with
  | zero => rfl
  | succ count inductionHypothesis =>
    -- A row takes the first two bytes, so that the others are told from the third on.
    have behind := inductionHypothesis fun offset => byte (offset + 2)
    rw [Nat.mul_succ, List.range_succ_eq_map, List.range_succ_eq_map, List.range_succ_eq_map]
    simp only [List.map_cons, List.map_map, wideRows]
    exact congrArg (List.cons _) behind

/-- When a sprite is wide. -/
theorem drawsWide_iff :
    machine.drawsWide height = true ↔ height = 0 ∧ machine.dialect.extendedDisplay = true ∧
      machine.screen.width = 128 ∧ machine.screen.height = 64 := by
  simp only [drawsWide, Screen.extended, Bool.and_eq_true, decide_eq_true_eq, beq_iff_eq,
    and_assoc]
  rfl

/-- A sprite is found if its bytes are there, and it is what they show. -/
theorem sprite_eq_ok :
    machine.sprite height = .ok found ↔
      (machine.memory.readable machine.registers.index.toNat = true ∧
        (machine.registers.index.toNat : Int) + machine.spriteLength height ≤
          machine.memory.size) ∧ machine.picture height = found := by
  rw [sprite, spriteLength_eq, picture]
  by_cases large : machine.drawsWide height = true
  · rw [if_pos large, if_pos large, if_pos (drawsWide_iff.mp large), Memory.map_readBlock_eq_ok,
      wideRows_map_range _ 16]
    rfl
  · rw [if_neg large, if_neg large, if_neg (mt drawsWide_iff.mpr large),
      Memory.map_readBlock_eq_ok, List.map_map]
    rfl

/-- The sprite of an instruction fits the screen of a well-formed machine. -/
theorem WellFormed.picture_fits (formed : machine.WellFormed) (height : Fin 16)
    (clipping : Clipping) : (machine.picture height).Fits machine.screen clipping := by
  have low := height.isLt
  have size : 64 ≤ machine.screen.width ∧ 32 ≤ machine.screen.height := by
    rcases formed.screenSize with ⟨width, high⟩ | ⟨width, high, _⟩
    · rw [width, high]
      decide
    · rw [width, high]
      decide
  unfold picture
  split
  · refine ⟨.inl ?_, .inl ?_⟩
    · change (16 : Int) ≤ _
      omega
    · rw [List.length_map, List.length_range]
      omega
  · refine ⟨.inl ?_, .inl ?_⟩
    · change (8 : Int) ≤ _
      omega
    · rw [List.length_map, List.length_range]
      omega

/-- Where the index is at the glyph of a digit, the glyph is what the bytes show. -/
theorem WellFormed.picture_glyph (formed : machine.WellFormed) (digit : UInt8)
    (index : machine.registers.index.toNat = Memory.glyphAddress digit.toNat) :
    machine.picture 5 =
      ⟨8, (Font.glyph (Fin.ofNat 16 digit.toNat)).map fun row => (row.toNat : Int)⟩ := by
  rw [picture, if_neg (fun wide => absurd wide.1 (by decide)), index,
    ← Memory.glyph_at_address formed.reserved, List.map_map]
  rfl

/-- The screen after the picture was drawn, and whether there was a collision. -/
def painted (machine : Machine) (word : Word) : Screen × Bool :=
  machine.screen.draw (machine.registers.get word.x).toNat (machine.registers.get word.y).toNat
    (machine.picture word.n) (clipping machine.dialect)

/-- A draw that is complete has found its sprite. -/
theorem Finds.shown (finds : machine.Finds word .draw)
    (stepped : machine.step.result = .ok (progress, next)) :
    machine.sprite word.n = .ok (machine.picture word.n) := by
  obtain ⟨_, after, carried, _⟩ := finds.carried stepped
  obtain ⟨sprite, shown, _⟩ := (carryOut_footprint carried).screen
  obtain ⟨_, same⟩ := sprite_eq_ok.mp shown
  rw [shown, same]

/-- A draw that finds its sprite is complete. -/
theorem Finds.step_draw (finds : machine.Finds word .draw)
    (shown : machine.sprite word.n = .ok (machine.picture word.n)) :
    ∃ next, machine.step.result = .ok (.executed, next) ∧
      next.screen = (machine.painted word).1 ∧
      next.registers = (machine.registers.setFlag (machine.painted word).2).advance ∧
      next.memory = machine.memory := by
  let after : Machine :=
    { machine with
      screen := (machine.painted word).1
      registers := (machine.registers.setFlag (machine.painted word).2).advance }
  have carried : (machine.carryOut word .draw).result = .ok (.executed, after) := by
    simp only [carryOut, shown]
    rfl
  exact ⟨_, finds.step carried, rfl, rfl, rfl⟩

/-- A complete draw paints the picture. -/
theorem WellFormed.paints (formed : machine.WellFormed) (finds : machine.Finds word .draw)
    (stepped : machine.step.result = .ok (progress, next)) :
    progress = .executed ∧ next.screen = (machine.painted word).1 ∧
      machine.Paints word next := by
  have shown := finds.shown stepped
  obtain ⟨other, complete, screen, registers, memory⟩ := finds.step_draw shown
  cases stepped.symm.trans complete
  refine ⟨rfl, screen, ?_⟩
  constructor
  case inside =>
    obtain ⟨⟨_, within⟩, _⟩ := sprite_eq_ok.mp shown
    rw [formed.memorySize] at within
    simp only [Memory.standardSize] at within
    omega
  case overlay =>
    refine ⟨(machine.painted word).2, ?_, ?_⟩
    · rw [screen]
      exact formed.drawable.draw_overlays _ _ (formed.picture_fits word.n _)
    · rw [registers]
      exact Registers.get_set ..
  case registers =>
    intro register apart
    rw [registers]
    exact Registers.get_set_of_ne _ (Ne.symm apart) _
  case index => rw [registers]; rfl
  case memory => exact memory
  case pc =>
    obtain ⟨placed, _⟩ := formed.placed_of_fetch finds.1
    rw [registers]
    exact (behind_of_placed placed).1

/-- A draw that is repeated finds the same sprite, and takes the first draw back. -/
theorem Repeats.takes_back (grid : machine.screen.IsGrid) (finds : machine.Finds word .draw)
    (shown : machine.sprite word.n = .ok (machine.picture word.n))
    (left : next.screen = (machine.painted word).1) (repeats : machine.Repeats word next again) :
    ∃ last, again.step.result = .ok (.executed, last) ∧ last.screen = machine.screen := by
  have screen : again.screen = (machine.painted word).1 := repeats.screen.trans left
  have width : again.screen.width = machine.screen.width := by
    rw [screen]
    exact Screen.draw_width ..
  have high : again.screen.height = machine.screen.height := by
    rw [screen]
    exact Screen.draw_height ..
  have samePicture : again.picture word.n = machine.picture word.n := by
    simp only [picture, repeats.memory, repeats.index, repeats.dialect, width, high]
  have asWide : again.drawsWide word.n = machine.drawsWide word.n := by
    simp only [drawsWide, Screen.extended, repeats.dialect, width, high]
  have sameSprite : again.sprite word.n = machine.sprite word.n := by
    rw [sprite, sprite, asWide, repeats.memory, repeats.index]
  have findsAgain : again.Finds word .draw := ⟨repeats.fetched, repeats.dialect ▸ finds.2⟩
  have shownAgain : again.sprite word.n = .ok (again.picture word.n) := by
    rw [sameSprite, samePicture, shown]
  obtain ⟨last, complete, drawn, _⟩ := findsAgain.step_draw shownAgain
  refine ⟨last, complete, ?_⟩
  rw [drawn, painted, repeats.left, repeats.above, repeats.dialect, samePicture, screen]
  exact grid.redraw ..

/-- Wherever a machine has come to, and whatever its dialect: a draw that is complete has
overlaid the screen with the bytes at the index, and left in the flag whether a lit pixel went
dark. It has moved to the next instruction, and changed nothing else of registers and memory.
The same draw with the same operands restores the screen. -/
theorem Used.step_paints (used : machine.Used) {request : Request}
    (member : attempted ∈ machine.attempts request) (finds : attempted.Finds word .draw)
    (stepped : attempted.step.result = .ok (progress, next)) :
    progress = .executed ∧ attempted.Paints word next ∧
      ∀ again, attempted.Repeats word next again →
        ∃ last, again.step.result = .ok (.executed, last) ∧ last.screen = attempted.screen := by
  have formed := used.wellFormed.attempts request attempted member
  obtain ⟨executed, left, paints⟩ := formed.paints finds stepped
  refine ⟨executed, paints, ?_⟩
  intro again repeats
  exact repeats.takes_back formed.grid finds (finds.shown stepped) left

/-- A program that draws the glyph of zero where the flag says, twice. -/
def glyphProgram : List UInt8 := [0xA0, 0x50, 0xDF, 0xF5, 0xDF, 0xF5]

/-- The first draw lights the corner of the dark screen. It lowers the flag, which had told its
place and was low before. So the second draw has the same operands, and restores the screen. -/
theorem step_paints_of_glyphProgram :
    let machine := (ofRate 700 .chip8 0 .mute).serveAll [.load glyphProgram none, .step]
    ∃ next last, machine.Used ∧ machine.Finds 0xDFF5 .draw ∧
      machine.step.result = .ok (.executed, next) ∧ machine.Paints 0xDFF5 next ∧
      next.screen.lit 0 0 = true ∧ next.registers.get Registers.flag = 0 ∧
      machine.Repeats 0xDFF5 next next ∧
      next.step.result = .ok (.executed, last) ∧ last.screen = machine.screen := by
  rw [serveAll_cons, serveAll_cons, serveAll_nil]
  have used := ((Used.built (isBuilt_mute (by decide : (0 : Int) < 700) .chip8 0)).served
    (.load glyphProgram none)).served .step
  -- The index is loaded on a screen that is dark.
  have fits : glyphProgram.length ≤ Memory.standard.capacity := by decide +kernel
  obtain ⟨standing, cleared⟩ := stands_of_load fits
  have loading : Finds _ 0xA050 .loadIndex := standing.finds rfl (by decide) rfl
  obtain ⟨machine, indexed, stands, index, kept, sameScreen⟩ :=
    standing.loadIndex loading (by decide)
  have reached :
      ((ofRate 700 .chip8 0 .mute).serveOne (.load glyphProgram none)).serveOne .step =
        machine := by
    rw [serveOne_step]
    exact afterStep_of_ok indexed
  have lowered : machine.registers.get Registers.flag = 0 := by
    rw [Registers.get, kept, cleared]
    rfl
  have screen : machine.screen = .standard := sameScreen.trans (screen_of_load fits)
  rw [reached] at used ⊢
  have finds : machine.Finds 0xDFF5 .draw := stands.finds rfl (by decide) rfl
  have shown : machine.sprite 5 = .ok (machine.picture 5) := by
    have length : machine.spriteLength 5 = 5 := by
      rw [spriteLength, if_neg (fun wide => absurd wide.1 (by decide))]
      rfl
    refine sprite_eq_ok.mpr ⟨?_, rfl⟩
    rw [length, index, Memory.readable, used.wellFormed.memorySize]
    decide
  obtain ⟨next, stepped, _⟩ := finds.step_draw shown
  have here : machine ∈ machine.attempts .step := by
    rw [attempts_step]
    exact List.mem_singleton_self _
  obtain ⟨_, paints, takesBack⟩ := used.step_paints here finds stepped
  obtain ⟨collided, overlays, flag⟩ := paints.overlay
  -- Nothing was lit before.
  have isDark : machine.screen.IsDark := by
    rw [screen]
    exact Screen.isDark_dark _ _ _ _
  have noneMet : collided = false := by
    refine Bool.eq_false_iff.mpr fun met => ?_
    obtain ⟨left, above, wasLit, _⟩ := overlays.collided.mp met
    cases wasLit.symm.trans (isDark left above)
  rw [noneMet] at flag
  have lit : next.screen.lit 0 0 = true := by
    have glyph := used.wellFormed.picture_glyph 0 (congrArg UInt16.toNat index)
    have column : machine.registers.get (Word.x 0xDFF5) = 0 := lowered
    have line : machine.registers.get (Word.y 0xDFF5) = 0 := lowered
    change machine.screen.Overlays _ _ (machine.picture 5) _ _ _ at overlays
    rw [glyph, column, line, screen, stands.dialect] at overlays
    refine (overlays.struck 0 0 0 0 ⟨by decide, by decide, rfl, ⟨rfl, by decide⟩⟩).trans ?_
    decide +kernel
  -- The first draw has left the operands of the second alone.
  have sameDialect : next.dialect = machine.dialect := by
    obtain ⟨_, _, _, _, _, _, carried, ended, _, _⟩ := step_parts stepped
    rw [ended, (carryOut_footprint carried).host]
  have further : next.Stands glyphProgram 4 :=
    ⟨fits, paints.memory.trans stands.memory, sameDialect.trans stands.dialect,
      paints.pc.trans (by rw [stands.pc])⟩
  have again : next.Finds 0xDFF5 .draw := further.finds rfl (by decide) rfl
  have sameOperand : next.registers.get Registers.flag = machine.registers.get Registers.flag :=
    flag.trans lowered.symm
  have repeats : machine.Repeats 0xDFF5 next next :=
    ⟨again.1, rfl, paints.memory, sameDialect, paints.index, sameOperand, sameOperand⟩
  obtain ⟨last, complete, back⟩ := takesBack next repeats
  exact ⟨next, last, used, finds, stepped, paints, lit, flag, repeats, complete, back⟩

end Machine

end Chip8
