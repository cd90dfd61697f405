import Chip8.Proofs.Blocks
import Chip8.Proofs.Headings
import Chip8.Proofs.Makeup

/-!
# Effects

What a complete step can change, and what it cannot. Every part of a machine has a few
operations that reach it: two write to memory, and only to their own block; four change
pixels, two of them the size of the screen; each timer has one, and the stack has its calls
and returns. Everything else about a step is told exactly: how far the program counter moves,
what the random source becomes, and what is counted.

Registers need more care, since operands may coincide. An operation stores its result first
and its report after that, so that the flag holds the report even where the result was meant
for it.
-/

namespace Chip8

namespace Operation

/-- The operations that store one result in register X. -/
def storesResult : Operation → Bool
  | .loadByte | .addByte | .copy | .or | .and | .xor | .add | .subtract | .shiftRight
  | .subtractFrom | .shiftLeft | .random | .readDelay | .awaitKey => true
  | _ => false

/-- The operations that move the index; blocks move it in some dialects only. -/
def movesIndex (dialect : Dialect) : Operation → Bool
  | .loadIndex | .addIndex | .loadGlyph => true
  | .store | .load => dialect.storeLoadIncrementsIndex
  | _ => false

end Operation

namespace Registers

variable {registers : Registers} {x y : Fin 16} {value : UInt8}

/-- Only the register that is set changes. -/
theorem eq_of_set_ne (changed : (registers.set x value).get y ≠ registers.get y) : y = x :=
  Classical.byContradiction fun apart => changed (get_set_of_ne registers (Ne.symm apart) value)

/-- A report is what the flag holds, whatever was stored before. -/
theorem get_flag_store (registers : Registers) (x : Fin 16) (value : UInt8) (flagged : Bool) :
    (registers.store x value flagged).get flag = if flagged then 1 else 0 := by
  rw [store, setFlag, get_set]

/-- A result with its report changes two registers at most. -/
theorem eq_of_store_ne {flagged : Bool}
    (changed : (registers.store x value flagged).get y ≠ registers.get y) : y = x ∨ y = flag := by
  by_cases reported : y = flag
  · exact .inr reported
  · rw [store, setFlag, get_set_of_ne _ (Ne.symm reported)] at changed
    exact .inl (eq_of_set_ne changed)

/-- Combined bits change the flag only where they are to lower it. -/
theorem eq_of_combine_ne {lowersFlag : Bool}
    (changed : (registers.combine x value lowersFlag).get y ≠ registers.get y) :
    y = x ∨ (lowersFlag = true ∧ y = flag) := by
  unfold combine at changed
  split at changed
  case isTrue lowers =>
    rcases eq_of_store_ne changed with result | report
    · exact .inl result
    · exact .inr ⟨lowers, report⟩
  case isFalse => exact .inl (eq_of_set_ne changed)

/-- Bytes are loaded into as many registers as there are bytes. -/
theorem within_of_loadFrom_ne {first : Nat} {bytes : List UInt8}
    (changed : (registers.loadFrom first bytes).get y ≠ registers.get y) :
    first ≤ y.val ∧ y.val < first + bytes.length := by
  induction bytes generalizing registers first with
  | nil => exact absurd rfl changed
  | cons value rest inductionHypothesis =>
    rw [List.length_cons]
    by_cases later : (registers.loadFrom first (value :: rest)).get y =
        ({ registers with v := registers.v.setIfInBounds first value } : Registers).get y
    case neg =>
      have bounds := inductionHypothesis later
      omega
    case pos =>
      rw [later] at changed
      have here : first = y.val :=
        Classical.byContradiction fun apart =>
          changed (Vector.getElem_setIfInBounds_ne y.isLt apart)
      omega

end Registers

namespace Machine

variable {machine next : Machine} {word : Word} {operation : Operation} {progress : Progress}

/-- What an operation reports in the flag, if it reports at all: a carry, that nothing was
borrowed, the bit that fell out, a collision, or nothing but a lowered flag. -/
def report (machine : Machine) (word : Word) : Operation → Option Bool
  | .add =>
    some (255 < (machine.registers.get word.x).toNat + (machine.registers.get word.y).toNat)
  | .subtract => some (machine.registers.get word.y ≤ machine.registers.get word.x)
  | .subtractFrom => some (machine.registers.get word.x ≤ machine.registers.get word.y)
  | .shiftRight =>
    some (machine.registers.get (if machine.dialect.shiftUsesVy then word.y else word.x) % 2 = 1)
  | .shiftLeft =>
    some (128 ≤ machine.registers.get (if machine.dialect.shiftUsesVy then word.y else word.x))
  | .draw =>
    (machine.sprite word.n).toOption.map fun sprite =>
      (machine.screen.draw (machine.registers.get word.x).toNat
        (machine.registers.get word.y).toNat sprite (clipping machine.dialect)).2
  | .or | .and | .xor => if machine.dialect.logicResetsVf then some false else none
  | _ => none

/-- The effect of a complete step on each part of a machine. -/
structure Effect (machine : Machine) (word : Word) (operation : Operation) (progress : Progress)
    (next : Machine) : Prop where
  /-- A byte of memory changes within the three digits of a number, or within the block that
  is stored. -/
  bytes : ∀ address, next.memory.byteAt address ≠ machine.memory.byteAt address →
    machine.registers.index.toNat ≤ address ∧
      ((operation = .storeDecimal ∧ address ≤ machine.registers.index.toNat + 2) ∨
        (operation = .store ∧ address ≤ machine.registers.index.toNat + word.x.val))
  size : next.memory.size = machine.memory.size
  makeup : next.makeup = machine.makeup
  /-- Pixels change by being cleared or drawn. -/
  pixels : next.screen ≠ machine.screen →
    operation = .clear ∨ operation = .lowResolution ∨ operation = .highResolution ∨
      operation = .draw
  /-- The screen is resized by the extended set. -/
  resized : next.screen.width ≠ machine.screen.width ∨
      next.screen.height ≠ machine.screen.height →
    (operation = .lowResolution ∨ operation = .highResolution) ∧
      machine.dialect.extendedDisplay = true
  delay : next.timers.delay ≠ machine.timers.delay → operation = .setDelay
  sound : next.timers.sound ≠ machine.timers.sound → operation = .setSound
  beeper : next.beeper ≠ machine.beeper → operation = .setSound
  stack : next.registers.stack ≠ machine.registers.stack → operation = .call ∨ operation = .ret
  index : next.registers.index ≠ machine.registers.index →
    operation.movesIndex machine.dialect = true
  /-- A register changes by a result, by being loaded, or by a report. -/
  registers : ∀ register, next.registers.get register ≠ machine.registers.get register →
    (register = word.x ∧ operation.storesResult = true ∧ progress ≠ .waiting) ∨
      (register ≤ word.x ∧ operation = .load) ∨
      (register = Registers.flag ∧ (machine.report word operation).isSome = true)
  /-- What is reported stays in the flag. -/
  flag : ∀ reported, machine.report word operation = some reported →
    next.registers.get Registers.flag = if reported then 1 else 0
  /-- A byte is drawn once, or not at all. -/
  random : next.random = if operation = .random then machine.random.draw.2 else machine.random
  keypad : next.keypad = machine.keypad
  dialect : next.dialect = machine.dialect
  status : next.status = machine.status
  clock : next.clock = machine.clock
  rom : next.rom = machine.rom
  pc : next.registers.pc = UInt16.ofNat (machine.heading word operation)
  /-- A return leads to the address that it takes off the stack. -/
  returned : operation = .ret →
    machine.registers.stack.entries = next.registers.pc :: next.registers.stack.entries
  last : next.last = some ⟨operation, word⟩
  executed : next.executed = machine.executed + if progress = .waiting then 0 else 1

/-- The index moves over a block in some dialects only. -/
theorem increments_of_passBlock {x : Fin 16}
    (moved : (machine.passBlock x).index ≠ machine.registers.index) :
    machine.dialect.storeLoadIncrementsIndex = true := by
  unfold passBlock at moved
  split at moved
  case isTrue increments => exact increments
  case isFalse => exact absurd rfl moved

/-- The index moves only under its operations. -/
theorem movesIndex_of_carryOut
    (carried : (machine.carryOut word operation).result = .ok (progress, next))
    (moved : next.registers.index ≠ machine.registers.index) :
    operation.movesIndex machine.dialect = true := by
  cases operation
  case loadIndex | addIndex | loadGlyph => rfl
  case ret | call | draw | storeDecimal =>
    obtain ⟨found, known, complete⟩ := Traced.result_bind_eq_ok.mp carried
    cases complete
    exact absurd rfl moved
  case or | and | xor =>
    cases carried
    exact absurd (Registers.combine_keeps ..).1 moved
  case awaitKey =>
    simp only [carryOut] at carried
    split at carried
    all_goals
      cases carried
      exact absurd rfl moved
  case store =>
    obtain ⟨memory, written, complete⟩ := Traced.result_bind_eq_ok.mp carried
    cases complete
    exact increments_of_passBlock moved
  case load =>
    obtain ⟨bytes, read, complete⟩ := Traced.result_bind_eq_ok.mp carried
    cases complete
    change ((machine.passBlock word.x).loadFrom 0 bytes).index ≠ _ at moved
    rw [(Registers.loadFrom_keeps ..).1] at moved
    exact increments_of_passBlock moved
  all_goals
    cases carried
    exact absurd rfl moved

/-- A register changes by a result, by being loaded, or by a report. -/
theorem changes_of_carryOut
    (carried : (machine.carryOut word operation).result = .ok (progress, next)) {register : Fin 16}
    (changed : next.registers.get register ≠ machine.registers.get register) :
    (register = word.x ∧ operation.storesResult = true ∧ progress ≠ .waiting) ∨
      (register ≤ word.x ∧ operation = .load) ∨
      (register = Registers.flag ∧ (machine.report word operation).isSome = true) := by
  cases operation
  case loadByte | addByte | copy | random | readDelay =>
    cases carried
    exact .inl ⟨Registers.eq_of_set_ne changed, rfl, by decide⟩
  case add | subtract | shiftRight | subtractFrom | shiftLeft =>
    cases carried
    rcases Registers.eq_of_store_ne changed with result | report
    · exact .inl ⟨result, rfl, by decide⟩
    · exact .inr (.inr ⟨report, rfl⟩)
  case or | and | xor =>
    cases carried
    rcases Registers.eq_of_combine_ne changed with result | ⟨lowers, report⟩
    · exact .inl ⟨result, rfl, by decide⟩
    · refine .inr (.inr ⟨report, ?_⟩)
      simp only [Machine.report, lowers, if_true, Option.isSome_some]
  case draw =>
    obtain ⟨sprite, found, complete⟩ := Traced.result_bind_eq_ok.mp carried
    cases complete
    change machine.sprite word.n = .ok sprite at found
    refine .inr (.inr ⟨Registers.eq_of_set_ne changed, ?_⟩)
    simp only [Machine.report, found]
    rfl
  case awaitKey =>
    simp only [carryOut] at carried
    split at carried
    · cases carried
      exact .inl ⟨Registers.eq_of_set_ne changed, rfl, by decide⟩
    · cases carried
      exact absurd rfl changed
  case load =>
    obtain ⟨bytes, read, complete⟩ := Traced.result_bind_eq_ok.mp carried
    cases complete
    change ((machine.passBlock word.x).loadFrom 0 bytes).get register ≠ _ at changed
    have passed : (machine.passBlock word.x).get register = machine.registers.get register :=
      congrArg (·.get register) (passBlock_keeps machine word.x).1
    rw [← passed] at changed
    have bounds := Registers.within_of_loadFrom_ne changed
    rw [Memory.length_of_readBlock read] at bounds
    exact .inr (.inl ⟨by omega, rfl⟩)
  case ret | call | storeDecimal =>
    obtain ⟨found, known, complete⟩ := Traced.result_bind_eq_ok.mp carried
    cases complete
    exact absurd rfl changed
  case store =>
    obtain ⟨memory, written, complete⟩ := Traced.result_bind_eq_ok.mp carried
    cases complete
    exact absurd (congrArg (·.get register) (passBlock_keeps machine word.x).1) changed
  all_goals
    cases carried
    exact absurd rfl changed

/-- What is reported stays in the flag. -/
theorem flag_of_carryOut
    (carried : (machine.carryOut word operation).result = .ok (progress, next)) {reported : Bool}
    (reports : machine.report word operation = some reported) :
    next.registers.get Registers.flag = if reported then 1 else 0 := by
  cases operation
  case add | subtract | shiftRight | subtractFrom | shiftLeft =>
    cases carried
    cases reports
    exact Registers.get_flag_store ..
  case or | and | xor =>
    cases carried
    simp only [report] at reports
    split at reports
    case isTrue lowers =>
      cases reports
      simp only [Registers.combine, lowers, if_true]
      exact Registers.get_flag_store _ _ _ false
    case isFalse => cases reports
  case draw =>
    obtain ⟨sprite, found, complete⟩ := Traced.result_bind_eq_ok.mp carried
    cases complete
    change machine.sprite word.n = .ok sprite at found
    simp only [report, found] at reports
    cases reports
    exact Registers.get_set ..
  all_goals cases reports

/-- Memory changes within the block that is written. -/
theorem Footprint.bytes (left : Footprint machine word operation next) {address : Nat}
    (changed : next.memory.byteAt address ≠ machine.memory.byteAt address) :
    machine.registers.index.toNat ≤ address ∧
      ((operation = .storeDecimal ∧ address ≤ machine.registers.index.toNat + 2) ∨
        (operation = .store ∧ address ≤ machine.registers.index.toNat + word.x.val)) := by
  have memory := left.memory
  cases operation
  case storeDecimal =>
    have bounds := Memory.within_of_writeBytes (Memory.writeBytes_of_writeBlock memory) changed
    have digits : (decimalDigits (machine.registers.get word.x)).length = 3 := rfl
    rw [digits] at bounds
    exact ⟨by omega, .inl ⟨rfl, by omega⟩⟩
  case store =>
    have bounds := Memory.within_of_writeBytes (Memory.writeBytes_of_writeBlock memory) changed
    rw [Registers.length_upTo] at bounds
    exact ⟨by omega, .inr ⟨rfl, by omega⟩⟩
  all_goals
    rw [memory] at changed
    exact absurd rfl changed

/-- Whatever is written, memory keeps its size. -/
theorem Footprint.size (left : Footprint machine word operation next) :
    next.memory.size = machine.memory.size := by
  have memory := left.memory
  cases operation
  case storeDecimal | store => exact (Memory.writeBlock_keeps memory).1
  all_goals rw [memory]

/-- Pixels change by being cleared or drawn. -/
theorem Footprint.pixels (left : Footprint machine word operation next)
    (changed : next.screen ≠ machine.screen) :
    operation = .clear ∨ operation = .lowResolution ∨ operation = .highResolution ∨
      operation = .draw := by
  have screen := left.screen
  cases operation
  case clear => exact .inl rfl
  case lowResolution => exact .inr (.inl rfl)
  case highResolution => exact .inr (.inr (.inl rfl))
  case draw => exact .inr (.inr (.inr rfl))
  all_goals exact absurd screen changed

/-- The screen is resized by two operations only. -/
theorem Footprint.resized (left : Footprint machine word operation next)
    (changed : next.screen.width ≠ machine.screen.width ∨
      next.screen.height ≠ machine.screen.height) :
    operation = .lowResolution ∨ operation = .highResolution := by
  have screen := left.screen
  cases operation
  case lowResolution => exact .inl rfl
  case highResolution => exact .inr rfl
  case draw =>
    obtain ⟨sprite, _, drawn⟩ := screen
    rw [drawn, Screen.draw_width, Screen.draw_height] at changed
    rcases changed with width | height
    · exact absurd rfl width
    · exact absurd rfl height
  all_goals
    rw [screen] at changed
    rcases changed with width | height
    · exact absurd rfl width
    · exact absurd rfl height

/-- Each timer is set by an operation of its own. -/
theorem Footprint.timersSet (left : Footprint machine word operation next) :
    (next.timers.delay ≠ machine.timers.delay → operation = .setDelay) ∧
      (next.timers.sound ≠ machine.timers.sound → operation = .setSound) := by
  have timers := left.timers
  cases operation
  case setDelay => exact ⟨fun _ => rfl, fun changed => absurd (congrArg Timers.sound timers) changed⟩
  case setSound => exact ⟨fun changed => absurd (congrArg Timers.delay timers) changed, fun _ => rfl⟩
  all_goals
    exact ⟨fun changed => absurd (congrArg Timers.delay timers) changed,
      fun changed => absurd (congrArg Timers.sound timers) changed⟩

/-- The stack moves by calls and returns. -/
theorem Footprint.stackMoves (left : Footprint machine word operation next)
    (changed : next.registers.stack ≠ machine.registers.stack) :
    operation = .call ∨ operation = .ret := by
  have stack := left.stack
  cases operation
  case call => exact .inl rfl
  case ret => exact .inr rfl
  all_goals exact absurd stack changed

/-- A byte is drawn by one operation only, and then once. -/
theorem Footprint.random_eq (left : Footprint machine word operation next) :
    next.random = if operation = .random then machine.random.draw.2 else machine.random := by
  have random := left.random
  cases operation
  all_goals exact random

/-- To conclude an operation keeps it and counts it; the beeper is left for a set sound
timer. -/
theorem eq_of_conclude (instruction : Instruction) {found : Progress}
    (known : found = .executed ∨ (found = .waiting ∧ instruction.operation = .awaitKey))
    (ended : machine.conclude instruction found = (progress, next)) :
    ∃ beeper,
      next =
        { machine with
          beeper
          last := some instruction
          executed := machine.executed + if progress = .waiting then 0 else 1 } ∧
      (instruction.operation ≠ .setSound → beeper = machine.beeper) ∧
      (progress = .waiting ↔ found = .waiting) := by
  unfold conclude at ended
  split at ended
  case isTrue sets =>
    have complete : found = .executed := by
      rcases known with executed | ⟨_, waits⟩
      · exact executed
      · cases sets.symm.trans waits
    subst complete
    obtain ⟨told, rfl⟩ := Prod.mk.inj ended
    have notWaiting : progress ≠ .waiting := by
      rw [← told]
      cases (machine.note instruction .executed).lostTime? <;> simp
    refine ⟨(machine.note instruction .executed).adjustBeeper.beeper, ?_,
      fun other => absurd sets other, ?_⟩
    · rw [if_neg notWaiting]
      exact adjustBeeper_eq _
    · simp only [notWaiting, reduceCtorEq]
  case isFalse =>
    obtain ⟨rfl, rfl⟩ := Prod.mk.inj ended
    refine ⟨machine.beeper, ?_, fun _ => rfl, Iff.rfl⟩
    rcases known with executed | ⟨waits, _⟩
    · rw [executed]
      rfl
    · rw [waits]
      rfl

/-- A complete step is an operation carried out, kept and counted; all that may have changed
besides is the beeper, after the sound timer was set. -/
theorem step_parts (stepped : machine.step.result = .ok (progress, next)) :
    ∃ word operation found after beeper, machine.Finds word operation ∧
      (machine.carryOut word operation).result = .ok (found, after) ∧
      next =
        { after with
          beeper
          last := some ⟨operation, word⟩
          executed := after.executed + if progress = .waiting then 0 else 1 } ∧
      (operation ≠ .setSound → beeper = after.beeper) ∧
      (progress = .waiting ↔ found = .waiting) := by
  obtain ⟨word, operation, fetched, known, found, after, carried, ended⟩ := step_eq_ok.mp stepped
  have carriedThrough : found = .executed ∨ (found = .waiting ∧ operation = .awaitKey) :=
    (carryOut_progress carried).imp id fun waits => ⟨waits.1, waits.2.1⟩
  obtain ⟨beeper, parts⟩ := eq_of_conclude ⟨operation, word⟩ carriedThrough ended
  exact ⟨word, operation, found, after, beeper, ⟨fetched, known⟩, carried, parts⟩

/-- A complete step has the effect of the operation whose word stands at the program
counter, and no other. -/
theorem step_effect (stepped : machine.step.result = .ok (progress, next)) :
    ∃ word operation, machine.Finds word operation ∧ operation.pattern.accepts word = true ∧
      machine.Effect word operation progress next := by
  obtain ⟨word, operation, found, after, beeper, finds, carried, rfl, unsettled, waits⟩ :=
    step_parts stepped
  refine ⟨word, operation, finds, Operation.accepts_of_ofWord finds.2, ?_⟩
  have left := carryOut_footprint carried
  have movesIndex := @movesIndex_of_carryOut _ _ _ _ _ carried
  have pc := pc_of_carryOut carried
  constructor
  case bytes => exact fun _ changed => left.bytes changed
  case size => exact left.size
  case makeup => exact left.makeup
  case pixels => exact left.pixels
  case resized =>
    intro changed
    have resizes := left.resized changed
    refine ⟨resizes, Operation.extended_of_ofWord finds.2 ?_⟩
    rcases resizes with rfl | rfl
    all_goals rfl
  case delay => exact left.timersSet.1
  case sound => exact left.timersSet.2
  case beeper =>
    intro changed
    by_cases sets : operation = .setSound
    · exact sets
    · rw [unsettled sets, left.host] at changed
      exact absurd rfl changed
  case stack => exact left.stackMoves
  case index => exact movesIndex
  case registers =>
    intro register changed
    rw [ne_eq, waits]
    exact changes_of_carryOut carried changed
  case flag => exact fun _ reports => flag_of_carryOut carried reports
  case random => exact left.random_eq
  case keypad => rw [left.host]
  case dialect => rw [left.host]
  case status => rw [left.host]
  case clock => rw [left.host]
  case rom => rw [left.host]
  case pc => exact pc
  case returned =>
    rintro rfl
    exact (CallStack.pop_eq_ok.mp left.stack).1
  case last => rfl
  case executed => rw [left.host]

/-- A program that sets every bit of the flag and doubles it. -/
def carryProgram : List UInt8 := [0x6F, 0xFF, 0x8F, 0xF4]

/-- The flag then holds the carry, and not the sum that was stored there. -/
theorem step_effect_of_carryProgram :
    let machine := (ofRate 700 .chip8 0 .mute).serveAll [.load carryProgram none, .step]
    ∃ next, machine.step.result = .ok (.executed, next) ∧ next.registers.get Registers.flag = 1 ∧
      ∃ word operation, machine.Finds word operation ∧ operation.pattern.accepts word = true ∧
        machine.Effect word operation .executed next := by
  obtain ⟨stands, _⟩ := @stands_of_load carryProgram (by decide +kernel)
  have first : Finds _ 0x6FFF .loadByte := stands.finds rfl (by decide) rfl
  obtain ⟨machine, loaded, further, full⟩ := stands.loadByte first (by decide)
  have second : machine.Finds 0x8FF4 .add := further.finds rfl (by decide) rfl
  have reached :
      (ofRate 700 .chip8 0 .mute).serveAll [.load carryProgram none, .step] = machine := by
    rw [serveAll_cons, serveAll_cons, serveAll_nil, serveOne_step]
    exact afterStep_of_ok loaded
  rw [reached]
  have carries : machine.report 0x8FF4 .add = some true := by
    change machine.registers.get (Word.x 0x8FF4) = 0xFF at full
    have same : Word.y 0x8FF4 = Word.x 0x8FF4 := rfl
    rw [report, same, full]
    rfl
  have carried : (machine.carryOut 0x8FF4 .add).result = .ok (.executed, _) := rfl
  have added := second.step carried
  exact ⟨_, added, flag_of_carryOut carried carries, step_effect added⟩

end Machine

end Chip8
