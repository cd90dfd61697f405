import Chip8.Proofs.Blocks
import Chip8.Proofs.Drawing
import Chip8.Proofs.Finding

/-!
# Atomicity of instructions

On a screen that is a grid with an area, an instruction that is carried out write by
write comes to the same as the pure step. A fault therefore leaves the machine as it
was before the step, to the last byte, and no pixel or register is ever missing.

One break comes late: when the sound timer was set, and the time is too large to be
told, the instruction is complete, but the step ends with a misuse of numbers.
-/

namespace Chip8

namespace InPlace

/-- Where a pure result leads when it is reached in place. -/
def reaching (machine : Machine) :
    Except Fault (Progress × Machine) → EStateM.Result Break Machine Progress
  | .ok (.untimed misuse, next) => .error (.number misuse) next
  | .ok (progress, next) => .ok progress next
  | .error fault => .error (.fault fault) machine

variable {machine : Machine}

/-- The bitwise operations store a value, and lower the flag where the dialect asks for it. -/
theorem run_logic (machine : Machine) (x : Fin 16) (value : UInt8) :
    (carryOut.logic x value).run machine =
      .ok .executed
        { machine with
          registers :=
            (machine.registers.combine x value machine.dialect.logicResetsVf).advance } := by
  unfold Registers.combine
  change (if machine.dialect.logicResetsVf = true then _ else _ : InPlace Progress).run _ = _
  split
  · rfl
  · rfl

/-- The index moves over a block where the dialect asks for it. -/
theorem run_passBlock (machine : Machine) (x : Fin 16) :
    (carryOut.passBlock x).run machine =
      .ok () { machine with registers := machine.passBlock x } := by
  unfold Machine.passBlock
  cases passes : machine.dialect.storeLoadIncrementsIndex with
  | false =>
    simp only [carryOut.passBlock, run_get_bind, passes]
    rfl
  | true =>
    simp only [carryOut.passBlock, run_get_bind, passes]
    rfl

/-- Registers may be loaded before the index moves or after it. -/
theorem passBlock_loadFrom (machine : Machine) (x : Fin 16) (bytes : List UInt8) :
    (machine.passBlock x).loadFrom 0 bytes =
      { machine with registers := machine.registers.loadFrom 0 bytes }.passBlock x := by
  unfold Machine.passBlock
  split
  · exact Registers.moveIndex_loadFrom ..
  · rfl

/-- Write by write, an operation comes to what it is. -/
theorem run_carryOut (drawable : machine.screen.Drawable) (word : Word) (operation : Operation) :
    (carryOut word operation).run machine =
      reaching machine (machine.carryOut word operation).result := by
  rw [carryOut, run_get_bind]
  cases operation
  case ret =>
    have popped := run_popStack machine
    simp only [Machine.carryOut]
    cases found : machine.registers.stack.pop with
    | error fault =>
      rw [found] at popped
      exact run_bind_of_error popped
    | ok top =>
      rw [found] at popped
      exact run_bind_of_ok popped
  case call =>
    have pushed := run_pushStack machine (machine.registers.pc + 2)
    simp only [Machine.carryOut]
    cases found : machine.registers.stack.push (machine.registers.pc + 2) with
    | error fault =>
      rw [found] at pushed
      exact run_bind_of_error pushed
    | ok stack =>
      rw [found] at pushed
      exact run_bind_of_ok pushed
  case or => exact run_logic ..
  case and => exact run_logic ..
  case xor => exact run_logic ..
  case draw =>
    simp only [Machine.carryOut]
    cases found : machine.sprite word.n with
    | error fault => rfl
    | ok sprite =>
      have drawn := run_draw machine (machine.registers.get word.x).toNat
        (machine.registers.get word.y).toNat sprite (Machine.clipping machine.dialect) drawable
      exact run_bind_of_ok drawn
  case awaitKey =>
    simp only [Machine.carryOut]
    cases machine.keypad.firstPressed? <;> rfl
  case storeDecimal =>
    let digits := Machine.decimalDigits (machine.registers.get word.x)
    have written := run_writeBlock machine digits machine.registers.index.toNat
    simp only [Machine.carryOut, Traced.result_bind]
    cases found : (machine.memory.writeBlock machine.registers.index.toNat digits).result with
    | error fault =>
      rw [found] at written
      exact run_bind_of_error written
    | ok memory =>
      rw [found] at written
      exact run_bind_of_ok written
  case store =>
    let values := machine.registers.upTo word.x
    have written := run_writeBlock machine values machine.registers.index.toNat
    simp only [Machine.carryOut, Traced.result_bind]
    cases found : (machine.memory.writeBlock machine.registers.index.toNat values).result with
    | error fault =>
      rw [found] at written
      exact run_bind_of_error written
    | ok memory =>
      rw [found] at written
      exact (run_bind_of_ok written).trans (run_bind_of_ok (run_passBlock _ _))
  case load =>
    simp only [Machine.carryOut]
    cases read : machine.memory.readBlock machine.registers.index.toNat (word.x.val + 1) with
    | error fault => rfl
    | ok bytes =>
      have fits : 0 + bytes.length ≤ 16 := by
        rw [Memory.length_of_readBlock read]
        have := word.x.isLt
        omega
      have loaded := run_loadFrom machine fits
      have passed := run_passBlock
        { machine with registers := machine.registers.loadFrom 0 bytes } word.x
      refine (run_bind_of_ok loaded).trans ((run_bind_of_ok passed).trans ?_)
      rw [← passBlock_loadFrom]
      rfl
  all_goals rfl

/-- The beeper is adjusted, or the time is lost and nothing happens. -/
theorem run_adjustBeeper (machine : Machine) :
    adjustBeeper.run machine =
      match machine.clock.seconds with
      | .ok _ => .ok () machine.adjustBeeper
      | .error misuse => .error (.number misuse) machine := by
  cases told : machine.clock.seconds <;>
    simp only [adjustBeeper, run_get_bind, Machine.adjustBeeper, told] <;> rfl

/-- A complete instruction is counted, and settled if it has set the sound timer. -/
theorem run_conclude_executed (before machine : Machine) (instruction : Instruction) :
    (conclude instruction .executed).run machine =
      reaching before (.ok (machine.conclude instruction .executed)) := by
  let noted := machine.note instruction .executed
  by_cases sets : instruction.operation = .setSound
  case neg =>
    simp only [conclude, Machine.conclude, sets, if_false]
    rfl
  have ended : (conclude instruction .executed).run machine =
      (adjustBeeper >>= fun _ => pure .executed).run noted := by
    simp only [conclude, sets, if_true]
    rfl
  have settled : machine.conclude instruction .executed = noted.settle := if_pos sets
  have adjusted := run_adjustBeeper noted
  rw [ended, settled, Machine.settle, Machine.lostTime?]
  cases told : noted.clock.seconds with
  | ok now =>
    rw [told] at adjusted
    exact run_bind_of_ok adjusted
  | error misuse =>
    have kept : noted.adjustBeeper = noted := by simp only [Machine.adjustBeeper, told]
    rw [told] at adjusted
    rw [kept]
    exact run_bind_of_error adjusted

/-- An instruction that waits is only kept. -/
theorem run_conclude_waiting (machine : Machine) (instruction : Instruction)
    (waits : instruction.operation = .awaitKey) :
    (conclude instruction .waiting).run machine =
      reaching machine (.ok (machine.conclude instruction .waiting)) := by
  simp only [Machine.conclude, waits]
  rfl

/-- Write by write, a step comes to what it is. -/
theorem run_step (drawable : machine.screen.Drawable) :
    step.run machine = reaching machine machine.step.result := by
  rw [step, run_get_bind]
  simp only [Machine.step, Traced.result_bind]
  cases machine.fetch.result with
  | error fault => rfl
  | ok word =>
    change (taking (Instruction.decode machine.dialect.extendedDisplay
      machine.registers.pc.toNat word) >>= fun instruction =>
        carryOut word instruction.operation >>= conclude instruction).run machine = _
    simp only [Traced.ofExcept]
    cases Instruction.decode machine.dialect.extendedDisplay machine.registers.pc.toNat word with
    | error fault => rfl
    | ok instruction =>
      have ran := run_carryOut drawable word instruction.operation
      change (carryOut word instruction.operation >>= conclude instruction).run machine = _
      cases carried : (machine.carryOut word instruction.operation).result with
      | error fault =>
        rw [carried] at ran
        simp only [carried]
        exact run_bind_of_error ran
      | ok ended =>
        obtain ⟨progress, after⟩ := ended
        rw [carried] at ran
        simp only [carried]
        rcases Machine.carryOut_progress carried with rfl | ⟨rfl, waits, rfl⟩
        · rw [run_bind_of_ok ran]
          exact run_conclude_executed machine after instruction
        · rw [run_bind_of_ok ran]
          exact run_conclude_waiting after instruction waits

/-- A step that leaves nothing half done: it completes its instruction or waits, or it
breaks off at a fault and the machine is as it was. -/
def Clean (machine : Machine) : Prop :=
  (∃ next, step.run machine = .ok .executed next) ∨
    (∃ next, step.run machine = .ok .waiting next) ∨
      ∃ fault, step.run machine = .error (.fault fault) machine

end InPlace

namespace Machine

variable {machine : Machine} {misuse : Number.Misuse}

/-- The next instruction sets the sound timer. -/
def SetsSound (machine : Machine) : Prop :=
  ∃ word, machine.fetch.result = .ok word ∧
    Operation.ofWord? machine.dialect.extendedDisplay word = some .setSound

/-- The next instruction sets the sound timer at a time that cannot be told. -/
def LosesTime (machine : Machine) : Prop :=
  machine.SetsSound ∧ ∃ misuse, machine.clock.seconds = .error misuse

/-- The time is lost where it cannot be told. -/
theorem lostTime_eq_some :
    machine.lostTime? = some misuse ↔ machine.clock.seconds = .error misuse := by
  unfold lostTime?
  split <;> simp [*]

/-- To settle fails exactly where the time is lost. -/
theorem settle_untimed_iff :
    machine.settle.1 = .untimed misuse ↔ machine.lostTime? = some misuse := by
  unfold settle
  cases machine.lostTime? <;> simp

/-- A step ends untimed exactly when it sets the sound timer at a time that cannot be told. -/
theorem step_untimed_iff :
    (∃ next, machine.step.result = .ok (.untimed misuse, next)) ↔
      machine.SetsSound ∧ machine.clock.seconds = .error misuse := by
  constructor
  · rintro ⟨next, stepped⟩
    obtain ⟨word, operation, fetched, known, found, after, carried, ended⟩ :=
      step_eq_ok.mp stepped
    have clock : after.clock = machine.clock := by rw [(carryOut_footprint carried).host]
    unfold conclude at ended
    split at ended
    case isTrue sets =>
      cases sets
      have lost := settle_untimed_iff.mp (congrArg Prod.fst ended)
      have noted : (after.note ⟨.setSound, word⟩ found).clock = after.clock := by
        cases found <;> rfl
      refine ⟨⟨word, fetched, known⟩, ?_⟩
      rw [← clock, ← noted]
      exact lostTime_eq_some.mp lost
    case isFalse =>
      obtain ⟨rfl, _⟩ := Prod.mk.inj ended
      rcases carryOut_progress carried with impossible | ⟨impossible, _⟩
      · cases impossible
      · cases impossible
  · rintro ⟨⟨word, fetched, known⟩, lost⟩
    let after : Machine :=
      { machine with
        timers := { machine.timers with sound := machine.registers.get word.x }
        registers := machine.registers.advance }
    let noted := after.note ⟨.setSound, word⟩ .executed
    have untimed : noted.settle.1 = .untimed misuse :=
      settle_untimed_iff.mpr (lostTime_eq_some.mpr lost)
    have ended : after.conclude ⟨.setSound, word⟩ .executed = (.untimed misuse, noted.settle.2) :=
      Prod.ext untimed rfl
    exact ⟨_, step_eq_ok.mpr ⟨word, .setSound, fetched, known, .executed, after, rfl, ended⟩⟩

/-- Where the time is lost a step ends untimed, and nowhere else. -/
theorem losesTime_iff :
    machine.LosesTime ↔ ∃ misuse next, machine.step.result = .ok (.untimed misuse, next) := by
  constructor
  · rintro ⟨sets, misuse, lost⟩
    exact ⟨misuse, step_untimed_iff.mpr ⟨sets, lost⟩⟩
  · rintro ⟨misuse, stepped⟩
    obtain ⟨sets, lost⟩ := step_untimed_iff.mp stepped
    exact ⟨sets, misuse, lost⟩

/-- A well-formed screen can be drawn on. -/
theorem WellFormed.drawable (formed : machine.WellFormed) : machine.screen.Drawable :=
  ⟨formed.grid, formed.area.1, formed.area.2⟩

/-- A step that comes to what the pure step is, is clean unless the time is lost. -/
theorem clean_iff_of_run
    (ran : InPlace.step.run machine = InPlace.reaching machine machine.step.result) :
    InPlace.Clean machine ↔ ¬machine.LosesTime := by
  rw [losesTime_iff, InPlace.Clean, ran]
  cases machine.step.result with
  | error fault => simp [InPlace.reaching]
  | ok ended =>
    obtain ⟨progress, next⟩ := ended
    cases progress <;> simp [InPlace.reaching]

/-- On every reachable machine a step comes to what the pure step is. It is clean, unless
the next instruction sets the sound timer at a time that cannot be told. -/
theorem Reachable.clean_iff (reached : Reachable machine) :
    InPlace.step.run machine = InPlace.reaching machine machine.step.result ∧
      (InPlace.Clean machine ↔ ¬machine.LosesTime) := by
  have ran := InPlace.run_step reached.wellFormed.drawable
  exact ⟨ran, clean_iff_of_run ran⟩

/-- A program that stores three digits across the end of memory. -/
def edgeProgram : List UInt8 := [0xAF, 0xFE, 0xF0, 0x33]

/-- Its second step fails at the address behind memory, and not even the two digits for which
there was room are stored. -/
theorem clean_of_edgeProgram :
    let machine := (ofRate 700 .chip8 0 .mute).serveAll [.load edgeProgram none, .step]
    InPlace.Clean machine ∧
      InPlace.step.run machine = .error (.fault (.memoryAccess 0x1000 true)) machine := by
  have built : (ofRate 700 .chip8 0 .mute).IsBuilt := isBuilt_mute (by decide) .chip8 0
  have reached := (Reachable.built built).serveAll [.load edgeProgram none, .step]
  have stands := (stands_of_load (by decide +kernel : edgeProgram.length ≤ _)).1
  rw [serveAll_cons, serveAll_cons, serveAll_nil] at reached ⊢
  generalize (ofRate 700 .chip8 0 .mute).serveOne (.load edgeProgram none) = loaded at *
  have sets : loaded.Finds 0xAFFE .loadIndex := stands.finds rfl (by decide) rfl
  obtain ⟨machine, stepped, stands, index, _⟩ := stands.loadIndex sets (by decide)
  have next : loaded.serveOne .step = machine :=
    (serveOne_step loaded).trans (afterStep_of_ok stepped)
  rw [next] at reached ⊢
  have stores : machine.Finds 0xF033 .storeDecimal := stands.finds rfl (by decide) rfl
  have place : (machine.registers.index.toNat : Int) = 0xFFE := by
    rw [index]
    rfl
  have inside : machine.memory.writable 0xFFE = true := by
    rw [Memory.writable_iff, reached.wellFormed.memorySize]
    decide
  have beyond : ¬machine.memory.writable 0x1000 = true := by
    rw [Memory.writable_iff, reached.wellFormed.memorySize]
    decide
  have refused : machine.memory.writeBlock machine.registers.index.toNat
      (decimalDigits (machine.registers.get (0xF033 : Word).x)) =
        .fail (.memoryAccess 0x1000 true) := by
    rw [place]
    exact Memory.writeBlock_eq_fail_last rfl inside beyond
  have failed : machine.step.result = .error (.memoryAccess 0x1000 true) := by
    refine step_eq_error.mpr (.inr ⟨_, stores.1, .inr ⟨.storeDecimal, stores.2, ?_⟩⟩)
    exact Traced.result_bind_eq_error.mpr (.inl (congrArg Traced.result refused))
  obtain ⟨ran, clean⟩ := reached.clean_iff
  rw [failed] at ran
  refine ⟨clean.mpr fun loses => ?_, ran⟩
  obtain ⟨_, _, untimed⟩ := losesTime_iff.mp loses
  cases failed.symm.trans untimed

/-- A program whose first word means nothing, and whose second sets the sound timer. -/
def lateProgram : List UInt8 := [0x80, 0x08, 0xF0, 0x18]

/-- Some seconds pass, the first step fails, and the host goes on behind it. -/
def lateHistory (seconds : Nat) : List Request :=
  [.load lateProgram none, .emulate (.whole seconds), .skip]

/-- The machine that the history leads to: all the time has passed, and no instruction
is complete. -/
theorem serveAll_lateHistory (seconds : Nat) (some : 0 < seconds) :
    ∃ beeper, (ofRate 700 .chip8 0 .mute).serveAll (lateHistory seconds) =
      { ofRate 700 .chip8 0 .mute with
        memory := Memory.standard.install lateProgram
        beeper
        clock := ⟨.whole 700, .whole 60, 0 + seconds * Number.microseconds⟩
        registers := Registers.initial.advance
        status := .running } := by
  have fits : lateProgram.length ≤ (ofRate 700 .chip8 0 .mute).memory.capacity := by
    decide +kernel
  obtain ⟨beeper, loaded⟩ := serveOne_load_eq fits none
  let running : Machine :=
    { ofRate 700 .chip8 0 .mute with
      memory := Memory.standard.install lateProgram
      beeper
      status := .running }
  let late : Machine :=
    { running with clock := ⟨.whole 700, .whole 60, 0 + seconds * Number.microseconds⟩ }
  have passed : running.clock.advance (.whole seconds) =
      .ok ((700 * seconds, 60 * seconds), late.clock) :=
    FrameClock.advance_whole 700 60 0 some
  have installed : late.memory = Memory.standard.install lateProgram := rfl
  have fetched : late.fetch.result = .ok 0x8008 :=
    fetch_installed installed (by decide +kernel) fits 0 rfl rfl (by decide)
  have failed : late.step.result = .error (.unknownOpcode 0x8008 0x200) :=
    step_eq_error.mpr (.inr ⟨0x8008, fetched, .inl ⟨rfl, rfl⟩⟩)
  have emulated : running.serveOne (.emulate (.whole seconds)) = late :=
    emulate_of_failed rfl passed (by omega) (by omega) failed
  refine ⟨beeper, ?_⟩
  rw [lateHistory, serveAll_cons, serveAll_cons, serveAll_cons, serveAll_nil, loaded]
  change (running.serveOne (.emulate (.whole seconds))).serveOne .skip = _
  rw [emulated]
  rfl

/-- A number of seconds beyond all finite measures. -/
def endless : Nat := Nat.pow 10 400

/-- No measure is near so many seconds. -/
theorem seconds_of_late :
    (⟨.whole 700, .whole 60, 0 + endless * Number.microseconds⟩ : FrameClock).seconds =
      .error .largeQuotient := by
  have lost : ({ ofRate 700 .chip8 0 .mute with
      clock := ⟨.whole 700, .whole 60, 0 + endless * Number.microseconds⟩ } : Machine).lostTime? =
        some .largeQuotient := by decide +kernel
  have told := lostTime_eq_some.mp lost
  exact told

/-- At a time that cannot be told a step raises what no step should raise. -/
theorem not_clean_of_lateHistory :
    let machine := (ofRate 700 .chip8 0 .mute).serveAll (lateHistory endless)
    Reachable machine ∧ ¬InPlace.Clean machine := by
  intro machine
  have reached : Reachable machine :=
    (Reachable.built (isBuilt_mute (by decide) .chip8 0)).serveAll _
  obtain ⟨beeper, ended⟩ := serveAll_lateHistory endless (by decide +kernel)
  change machine = _ at ended
  have lost : machine.clock.seconds = .error .largeQuotient := by
    rw [ended]
    exact seconds_of_late
  have installed : machine.memory = Memory.standard.install lateProgram := by rw [ended]
  have pc : machine.registers.pc.toNat = Memory.programStart + 2 := by
    rw [ended]
    rfl
  have fetched : machine.fetch.result = .ok 0xF018 :=
    fetch_installed installed (by decide +kernel) (by decide +kernel) 2 pc rfl (by decide)
  have loses : machine.LosesTime := ⟨⟨0xF018, fetched, rfl⟩, .largeQuotient, lost⟩
  have ran := InPlace.run_step reached.wellFormed.drawable
  exact ⟨reached, fun clean => (clean_iff_of_run ran).mp clean loses⟩

end Machine

end Chip8
