import Chip8.Proofs.WellFormed

/-!
# Bounds of reachable machines

What well-formedness comes to in numbers. The widths of the registers are those of
their types; the sizes, the reserved area and the size of the screen are carried from
a machine as it is built through every request.

Since the reserved area stays, a digit's glyph is found wherever the program asks for
it, also by a program that rewrites itself.
-/

namespace Chip8.Machine

/-- The ranges and sizes of a machine's parts. -/
structure InBounds (machine : Machine) : Prop where
  registers : machine.registers.v.toList.length = 16 ∧
    ∀ value ∈ machine.registers.v.toList, value.toNat ≤ 255
  index : machine.registers.index.toNat ≤ 0xFFFF
  pc : machine.registers.pc.toNat ≤ 0xFFFF
  stack : machine.registers.stack.entries.length ≤ 16 ∧
    ∀ entry ∈ machine.registers.stack.entries, entry.toNat ≤ 0xFFFF
  delay : machine.timers.delay.toNat ≤ 255
  sound : machine.timers.sound.toNat ≤ 255
  memory : machine.memory.bytes.size = 4096
  /-- The font stands at its place, and everything around it is zero. -/
  reserved : ∀ address < 0x200, machine.memory.bytes[address]? =
    some (if 0x050 ≤ address then Font.rows.getD (address - 0x050) 0 else 0)
  rows : (machine.screen.rows.size : Int) = machine.screen.height
  pixels : ∀ row ∈ machine.screen.rows, (row.size : Int) = machine.screen.width
  size : (machine.screen.width = 64 ∧ machine.screen.height = 32) ∨
    (machine.screen.width = 128 ∧ machine.screen.height = 64 ∧
      machine.dialect.extendedDisplay = true)
  keypad : machine.keypad.keys.toList.length = 16

variable {machine : Machine}

/-- The reserved area as it was laid out, address by address. -/
theorem reserved_at {address : Nat} (below : address < 0x200) :
    Memory.reserved[address]? =
      some (if 0x050 ≤ address then Font.rows.getD (address - 0x050) 0 else 0) := by
  have count : Font.rows.length = 0x050 := rfl
  simp only [Memory.reserved, Memory.fontStart, Memory.programStart, List.append_assoc, count]
  by_cases before : address < 0x050
  · rw [List.getElem?_append_left (by simpa using before), List.getElem?_replicate,
      if_pos before, if_neg (Nat.not_le.mpr before)]
  · have font : 0x050 ≤ address := Nat.le_of_not_lt before
    rw [List.getElem?_append_right (by simpa using font), List.length_replicate, if_pos font,
      List.getD_eq_getElem?_getD]
    by_cases within : address - 0x050 < Font.rows.length
    · rw [List.getElem?_append_left within, List.getElem?_eq_getElem within]
      rfl
    · have behind := Nat.le_of_not_lt within
      rw [List.getElem?_append_right behind, List.getElem?_replicate,
        if_pos (by omega), List.getElem?_eq_none behind]
      rfl

/-- A well-formed machine keeps to its bounds. -/
theorem WellFormed.keepsToBounds (formed : machine.WellFormed) : machine.InBounds := by
  have high := formed.grid.height
  obtain ⟨positiveWidth, positiveHeight⟩ := formed.area
  constructor
  case registers => exact ⟨by simp, fun value _ => Nat.le_of_lt_succ value.toNat_lt⟩
  case index => exact Nat.le_of_lt_succ (UInt16.toNat_lt _)
  case pc => exact Nat.le_of_lt_succ (UInt16.toNat_lt _)
  case stack => exact ⟨formed.stackDepth, fun entry _ => Nat.le_of_lt_succ entry.toNat_lt⟩
  case delay => exact Nat.le_of_lt_succ (UInt8.toNat_lt _)
  case sound => exact Nat.le_of_lt_succ (UInt8.toNat_lt _)
  case memory => exact formed.memorySize
  case reserved =>
    intro address below
    have laidOut : machine.memory.bytes.toList[address]? = Memory.reserved[address]? := by
      rw [← formed.reserved, Memory.reservedBytes]
      exact (List.getElem?_take_of_lt below).symm
    rw [← Array.getElem?_toList, laidOut]
    exact reserved_at below
  case rows => omega
  case pixels =>
    intro row member
    have wide := formed.grid.width row member
    omega
  case size => exact formed.screenSize
  case keypad => simp

/-- Asking for a glyph never fails, and leaves the index at the glyph. -/
theorem WellFormed.glyph_found (formed : machine.WellFormed) {word : Word}
    (fetched : machine.fetch.result = .ok word)
    (known : Operation.ofWord? machine.dialect.extendedDisplay word = some .loadGlyph) :
    ∃ next, machine.step.result = .ok (.executed, next) ∧
      (List.range 5).map (fun row =>
          next.memory.byteAt (next.registers.index.toNat + row)) =
        Font.glyph (Fin.ofNat 16 (machine.registers.get word.x).toNat) := by
  let address := Memory.glyphAddress (machine.registers.get word.x).toNat
  let after : Machine :=
    { machine with
      registers := (machine.registers.setIndex (UInt16.ofNat address)).advance }
  have stepped : machine.step.result =
      .ok (.executed, after.note ⟨.loadGlyph, word⟩ .executed) :=
    step_eq_ok.mpr ⟨word, .loadGlyph, fetched, known, .executed, after, rfl, rfl⟩
  refine ⟨_, stepped, ?_⟩
  have small : address < 2 ^ 16 := by
    simp only [address, Memory.glyphAddress, Memory.fontStart, Font.glyphHeight]
    omega
  have index : (UInt16.ofNat address).toNat = address := UInt16.toNat_ofNat_of_lt' small
  change (List.range Font.glyphHeight).map (fun row =>
    machine.memory.byteAt ((UInt16.ofNat address).toNat + row)) = _
  rw [index]
  exact Memory.glyph_at_address formed.reserved _

/-- Every reachable machine, with audio or without, keeps to its bounds. So does every
machine at which a request to it attempts a step, and if that step asks for a glyph, it
finds it. -/
theorem Reachable.inBounds (reached : Reachable machine) :
    machine.InBounds ∧
      ∀ request, ∀ attempted ∈ machine.attempts request,
        attempted.InBounds ∧
          ∀ word, attempted.fetch.result = .ok word →
            Operation.ofWord? attempted.dialect.extendedDisplay word = some .loadGlyph →
            ∃ next, attempted.step.result = .ok (.executed, next) ∧
              (List.range 5).map (fun row =>
                  next.memory.byteAt (next.registers.index.toNat + row)) =
                Font.glyph (Fin.ofNat 16 (attempted.registers.get word.x).toNat) := by
  refine ⟨reached.wellFormed.keepsToBounds, ?_⟩
  intro request attempted member
  have formed := reached.wellFormed.attempts request attempted member
  exact ⟨formed.keepsToBounds, fun word fetched known => formed.glyph_found fetched known⟩

/-- The glyph of zero, asked for by the first instruction of a program, with audio. -/
theorem inBounds_of_glyphProgram :
    let machine :=
      (ofRate 700 .schip 0 (.silent .standard .idle true)).serveOne (.load [0xF0, 0x29] none)
    machine.InBounds ∧
      ∃ next, machine.step.result = .ok (.executed, next) ∧
        (List.range 5).map (fun row =>
            next.memory.byteAt (next.registers.index.toNat + row)) =
          [0xF0, 0x90, 0x90, 0x90, 0xF0] := by
  intro machine
  have reached : Reachable machine :=
    (Reachable.built (isBuilt_ofRate (by decide) .schip 0 .standard .idle true)).serve _
  have fits : ([0xF0, 0x29] : List UInt8).length ≤
      (ofRate 700 .schip 0 (.silent .standard .idle true)).memory.capacity := by
    decide +kernel
  obtain ⟨beeper, loaded⟩ := serveOne_load_eq fits none
  have fetched : machine.fetch.result = .ok 0xF029 := by
    change (serveOne _ _).fetch.result = _
    rw [loaded]
    exact fetch_installed rfl (by decide +kernel) fits 0 rfl rfl (by decide)
  have here : machine ∈ machine.attempts .step := by
    rw [attempts_step]
    exact List.mem_singleton_self _
  obtain ⟨bounds, attempts⟩ := reached.inBounds
  obtain ⟨_, glyph⟩ := attempts .step machine here
  have known : Operation.ofWord? machine.dialect.extendedDisplay 0xF029 = some .loadGlyph := rfl
  have zero : machine.registers.get (0xF029 : Word).x = 0 := by
    change (serveOne _ _).registers.get _ = 0
    rw [loaded]
    rfl
  obtain ⟨next, stepped, found⟩ := glyph 0xF029 fetched known
  rw [zero] at found
  exact ⟨bounds, next, stepped, found⟩

end Chip8.Machine
