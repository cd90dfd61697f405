import Chip8.Machine.Execution
import Chip8.Proofs.Decoding
import Chip8.Proofs.Schedule

/-!
# Footprints

What an instruction that is carried out leaves behind, part by part. The parts
that belong to the host stay as they are under every operation; each of the others
changes under a few operations only, and for these the new part is told exactly.

A complete step is an instruction carried out, then noted, and after a change of
the sound timer settled. Everything known of steps is derived from the footprint
and these two additions.
-/

namespace Chip8

/-- The result of two parts, one after the other. -/
theorem Traced.result_bind {α β : Type} (first : Traced α) (next : α → Traced β) :
    (first >>= next).result =
      match first.result with
      | .ok value => (next value).result
      | .error fault => .error fault := by
  obtain ⟨accesses, result⟩ := first
  cases result <;> rfl

/-- A computation has a result when each of its parts has one. -/
theorem Traced.result_bind_eq_ok {α β : Type} {first : Traced α} {next : α → Traced β}
    {value : β} :
    (first >>= next).result = .ok value ↔
      ∃ found, first.result = .ok found ∧ (next found).result = .ok value := by
  obtain ⟨accesses, result⟩ := first
  cases result with
  | ok found => simp
  | error fault => simp

/-- A fault of a computation is one of its first part, or of what follows that part's result. -/
theorem Traced.result_bind_eq_error {α β : Type} {first : Traced α} {next : α → Traced β}
    {fault : Fault} :
    (first >>= next).result = .error fault ↔
      first.result = .error fault ∨
        ∃ found, first.result = .ok found ∧ (next found).result = .error fault := by
  obtain ⟨accesses, result⟩ := first
  cases result with
  | ok found => simp
  | error other => simp

namespace Registers

/-- Combining bits leaves index, program counter and stack alone. -/
theorem combine_keeps (registers : Registers) (x : Fin 16) (value : UInt8) (lowersFlag : Bool) :
    (registers.combine x value lowersFlag).index = registers.index ∧
      (registers.combine x value lowersFlag).pc = registers.pc ∧
      (registers.combine x value lowersFlag).stack = registers.stack := by
  unfold combine
  split <;> exact ⟨rfl, rfl, rfl⟩

/-- So does loading bytes. -/
theorem loadFrom_keeps (registers : Registers) (first : Nat) (bytes : List UInt8) :
    (registers.loadFrom first bytes).index = registers.index ∧
      (registers.loadFrom first bytes).pc = registers.pc ∧
      (registers.loadFrom first bytes).stack = registers.stack := by
  induction bytes generalizing registers first with
  | nil => exact ⟨rfl, rfl, rfl⟩
  | cons value rest inductionHypothesis => exact inductionHypothesis _ _

end Registers

namespace Machine

/-- The parts of a machine after an operation was carried out. -/
structure Footprint (machine : Machine) (word : Word) (operation : Operation) (next : Machine) :
    Prop where
  /-- Keypad, beeper, clock, status, dialect, the counts and the program's origin stay. -/
  host : next =
    { machine with
      registers := next.registers
      memory := next.memory
      screen := next.screen
      timers := next.timers
      random := next.random }
  /-- Only the two operations that store can write to memory. -/
  memory :
    match operation with
    | .storeDecimal =>
      (machine.memory.writeBlock machine.registers.index.toNat
        (decimalDigits (machine.registers.get word.x))).result = .ok next.memory
    | .store =>
      (machine.memory.writeBlock machine.registers.index.toNat
        (machine.registers.upTo word.x)).result = .ok next.memory
    | _ => next.memory = machine.memory
  /-- Only four operations can change the screen. -/
  screen :
    match operation with
    | .clear => next.screen = machine.screen.clear
    | .lowResolution => next.screen = machine.screen.setExtended false
    | .highResolution => next.screen = machine.screen.setExtended true
    | .draw => ∃ sprite, machine.sprite word.n = .ok sprite ∧
        next.screen = (machine.screen.draw (machine.registers.get word.x).toNat
          (machine.registers.get word.y).toNat sprite (clipping machine.dialect)).1
    | _ => next.screen = machine.screen
  /-- Each timer has an operation of its own. -/
  timers :
    match operation with
    | .setDelay =>
      next.timers = { machine.timers with delay := machine.registers.get word.x }
    | .setSound =>
      next.timers = { machine.timers with sound := machine.registers.get word.x }
    | _ => next.timers = machine.timers
  /-- The stack grows by calls and shrinks by returns. -/
  stack :
    match operation with
    | .call =>
      machine.registers.stack.push (machine.registers.pc + 2) = .ok next.registers.stack
    | .ret =>
      machine.registers.stack.pop = .ok (next.registers.pc, next.registers.stack)
    | _ => next.registers.stack = machine.registers.stack
  /-- A byte is drawn by one operation only. -/
  random :
    match operation with
    | .random => next.random = machine.random.draw.2
    | _ => next.random = machine.random

variable {machine next : Machine} {word : Word} {operation : Operation} {progress : Progress}

/-- Moving the index over a block leaves everything else alone. -/
theorem passBlock_keeps (machine : Machine) (x : Fin 16) :
    (machine.passBlock x).v = machine.registers.v ∧
      (machine.passBlock x).pc = machine.registers.pc ∧
      (machine.passBlock x).stack = machine.registers.stack := by
  unfold passBlock
  split <;> exact ⟨rfl, rfl, rfl⟩

/-- An operation that was carried out leaves its footprint. -/
theorem carryOut_footprint
    (carried : (machine.carryOut word operation).result = .ok (progress, next)) :
    Footprint machine word operation next := by
  cases operation
  case ret =>
    obtain ⟨⟨address, stack⟩, popped, complete⟩ := Traced.result_bind_eq_ok.mp carried
    cases complete
    exact ⟨rfl, rfl, rfl, rfl, popped, rfl⟩
  case call =>
    obtain ⟨stack, pushed, complete⟩ := Traced.result_bind_eq_ok.mp carried
    cases complete
    exact ⟨rfl, rfl, rfl, rfl, pushed, rfl⟩
  case or | and | xor =>
    cases carried
    exact ⟨rfl, rfl, rfl, rfl, (Registers.combine_keeps ..).2.2, rfl⟩
  case draw =>
    obtain ⟨sprite, found, complete⟩ := Traced.result_bind_eq_ok.mp carried
    cases complete
    exact ⟨rfl, rfl, ⟨sprite, found, rfl⟩, rfl, rfl, rfl⟩
  case awaitKey =>
    simp only [carryOut] at carried
    split at carried
    · cases carried
      exact ⟨rfl, rfl, rfl, rfl, rfl, rfl⟩
    · cases carried
      exact ⟨rfl, rfl, rfl, rfl, rfl, rfl⟩
  case storeDecimal =>
    obtain ⟨memory, written, complete⟩ := Traced.result_bind_eq_ok.mp carried
    cases complete
    exact ⟨rfl, written, rfl, rfl, rfl, rfl⟩
  case store =>
    obtain ⟨memory, written, complete⟩ := Traced.result_bind_eq_ok.mp carried
    cases complete
    exact ⟨rfl, written, rfl, rfl, (passBlock_keeps ..).2.2, rfl⟩
  case load =>
    obtain ⟨bytes, read, complete⟩ := Traced.result_bind_eq_ok.mp carried
    cases complete
    obtain ⟨_, _, loaded⟩ := (machine.passBlock word.x).loadFrom_keeps 0 bytes
    exact ⟨rfl, rfl, rfl, rfl, loaded.trans (passBlock_keeps ..).2.2, rfl⟩
  all_goals
    cases carried
    exact ⟨rfl, rfl, rfl, rfl, rfl, rfl⟩

/-- An operation is complete, unless it waits for a key; then it has changed nothing. -/
theorem carryOut_progress
    (carried : (machine.carryOut word operation).result = .ok (progress, next)) :
    progress = .executed ∨ (progress = .waiting ∧ operation = .awaitKey ∧ next = machine) := by
  cases operation
  case ret =>
    obtain ⟨⟨address, stack⟩, popped, complete⟩ := Traced.result_bind_eq_ok.mp carried
    cases complete
    exact .inl rfl
  case call | draw | storeDecimal | store | load =>
    obtain ⟨found, known, complete⟩ := Traced.result_bind_eq_ok.mp carried
    cases complete
    exact .inl rfl
  case awaitKey =>
    simp only [carryOut] at carried
    split at carried
    · cases carried
      exact .inl rfl
    · cases carried
      exact .inr ⟨rfl, rfl, rfl⟩
  all_goals
    cases carried
    exact .inl rfl

/-- What becomes of an operation that was carried out, within a step. -/
def conclude (machine : Machine) (instruction : Instruction) (progress : Progress) :
    Progress × Machine :=
  if instruction.operation = .setSound then (machine.note instruction progress).settle
  else (progress, machine.note instruction progress)

/-- A complete step fetches a word, finds its operation, carries it out and concludes. -/
theorem step_eq_ok :
    machine.step.result = .ok (progress, next) ↔
      ∃ word operation, machine.fetch.result = .ok word ∧
        Operation.ofWord? machine.dialect.extendedDisplay word = some operation ∧
        ∃ found after, (machine.carryOut word operation).result = .ok (found, after) ∧
          after.conclude ⟨operation, word⟩ found = (progress, next) := by
  unfold step
  simp only [Traced.result_bind_eq_ok]
  constructor
  · rintro ⟨word, fetched, instruction, decoded, ⟨found, after⟩, carried, ended⟩
    obtain ⟨operation, known, rfl⟩ := Instruction.decode_eq_ok.mp decoded
    exact ⟨word, operation, fetched, known, found, after, carried, Except.ok.inj ended⟩
  · rintro ⟨word, operation, fetched, known, found, after, carried, ended⟩
    have decoded : Instruction.decode machine.dialect.extendedDisplay
        machine.registers.pc.toNat word = .ok ⟨operation, word⟩ :=
      Instruction.decode_eq_ok.mpr ⟨operation, known, rfl⟩
    exact ⟨word, fetched, ⟨operation, word⟩, decoded, (found, after), carried,
      congrArg Except.ok ended⟩

/-- A step fails at its word, at the meaning of the word, or in the operation. -/
theorem step_eq_error {fault : Fault} :
    machine.step.result = .error fault ↔
      machine.fetch.result = .error fault ∨
        ∃ word, machine.fetch.result = .ok word ∧
          ((Operation.ofWord? machine.dialect.extendedDisplay word = none ∧
              fault = .unknownOpcode word machine.registers.pc.toNat) ∨
            ∃ operation,
              Operation.ofWord? machine.dialect.extendedDisplay word = some operation ∧
                (machine.carryOut word operation).result = .error fault) := by
  unfold step
  rw [Traced.result_bind_eq_error]
  apply or_congr Iff.rfl
  apply exists_congr
  intro word
  apply and_congr_right
  intro _
  cases known : Operation.ofWord? machine.dialect.extendedDisplay word with
  | none =>
    simp only [Traced.ofExcept, Instruction.decode, known, Traced.bind_error, Except.error.injEq,
      true_and, reduceCtorEq, false_and, exists_false, or_false]
    exact eq_comm
  | some operation =>
    simp only [Traced.ofExcept, Instruction.decode, known, Traced.result_bind_ok, reduceCtorEq,
      false_and, false_or, Option.some.injEq, exists_eq_left']
    rw [Traced.result_bind_eq_error]
    constructor
    · rintro (failed | ⟨_, _, impossible⟩)
      · exact failed
      · cases impossible
    · exact .inl

/-- A step that is attempted leaves the machine alone if it fails. Else it leaves the footprint
of an operation, and its counts; and after the sound timer was set, the beeper is adjusted. -/
theorem afterStep_cases (machine : Machine) :
    machine.afterStep = machine ∨
      ∃ word operation after executed last, machine.fetch.result = .ok word ∧
        Operation.ofWord? machine.dialect.extendedDisplay word = some operation ∧
        Footprint machine word operation after ∧
        ((operation ≠ .setSound ∧ machine.afterStep = { after with executed, last }) ∨
          (operation = .setSound ∧
            machine.afterStep = ({ after with executed, last } : Machine).adjustBeeper)) := by
  unfold afterStep
  split
  case h_2 => exact .inl rfl
  case h_1 progress next stepped =>
    obtain ⟨word, operation, fetched, known, found, after, carried, ended⟩ :=
      step_eq_ok.mp stepped
    obtain rfl : (after.conclude ⟨operation, word⟩ found).2 = next := congrArg Prod.snd ended
    obtain ⟨executed, last, noted⟩ : ∃ executed last,
        after.note ⟨operation, word⟩ found = { after with executed, last } := by
      cases found <;> exact ⟨_, _, rfl⟩
    refine .inr ⟨word, operation, after, executed, last, fetched, known,
      carryOut_footprint carried, ?_⟩
    rw [conclude, noted]
    split
    case isTrue sets => exact .inr ⟨sets, rfl⟩
    case isFalse other => exact .inl ⟨other, rfl⟩

end Machine

end Chip8
