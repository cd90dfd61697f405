import Chip8.Proofs.Isolation

/-!
# Tracing is observation

Whether the accesses of a memory are reported makes no difference to anything but the reports.
The machine whose memory is not traced does what the machine does whose memory is traced, with
the same results and the same faults, and reports nothing. In the end the two differ in whether
they report.

A computation is hushed by another one that has its result, up to a change, and no report. This
relation goes through a sequence of parts, so that it is shown for the accesses of a byte first
and carried from there to blocks, operations, steps, runs and requests.
-/

namespace Chip8

namespace Traced

variable {α β γ δ : Type}

/-- The second computation has the result of the first one, changed, and reports nothing. -/
def Hushes (change : α → β) (first : Traced α) (second : Traced β) : Prop :=
  second = ⟨[], first.result.map change⟩

/-- Silent computations hush themselves. -/
theorem hushes_ofExcept (result : Except Fault α) :
    Hushes id (.ofExcept result) (.ofExcept result) := by
  rw [Hushes, Except.map_id]
  rfl

/-- What is done in parts is hushed in parts. -/
theorem Hushes.bind {change : α → β} {after : γ → δ} {first : Traced α} {second : Traced β}
    {next : α → Traced γ} {following : β → Traced δ} (head : Hushes change first second)
    (tail : ∀ value, Hushes after (next value) (following (change value))) :
    Hushes after (first >>= next) (second >>= following) := by
  obtain ⟨accesses, result⟩ := first
  obtain rfl := head
  cases result with
  | error fault => rfl
  | ok value =>
    have rest : following (change value) = ⟨[], (next value).result.map after⟩ := tail value
    change Traced.mk ([] ++ (following (change value)).accesses)
      (following (change value)).result = _
    rw [rest]
    rfl

end Traced

open Traced (Hushes)

namespace Memory

variable (memory : Memory) (address : Int)

/-- A byte is read without a report. -/
theorem readByte_hushed :
    Hushes id (memory.readByte address) ((memory.setTraced false).readByte address) := by
  change (if memory.readable address then _ else _) = _
  unfold readByte
  split
  · rfl
  · rfl

/-- So is a word. -/
theorem readWord_hushed :
    Hushes id (memory.readWord address) ((memory.setTraced false).readWord address) := by
  apply (memory.readByte_hushed address).bind
  intro high
  apply (memory.readByte_hushed (address + 1)).bind
  intro low
  rfl

/-- A byte is written without a report. -/
theorem writeByte_hushed (value : UInt8) :
    Hushes (·.setTraced false) (memory.writeByte address value)
      ((memory.setTraced false).writeByte address value) := by
  change (if memory.writable address then _ else _) = _
  unfold writeByte
  split
  · rfl
  · rfl

/-- So are bytes one after the other. -/
theorem writeBytes_hushed (values : List UInt8) :
    Hushes (·.setTraced false) (memory.writeBytes address values)
      ((memory.setTraced false).writeBytes address values) := by
  induction values generalizing memory address with
  | nil => rfl
  | cons value rest inductionHypothesis =>
    apply (memory.writeByte_hushed address value).bind
    intro next
    exact inductionHypothesis next (address + 1)

/-- A block is written, or refused, without a report. -/
theorem writeBlock_hushed (values : List UInt8) :
    Hushes (·.setTraced false) (memory.writeBlock address values)
      ((memory.setTraced false).writeBlock address values) := by
  have first : (memory.setTraced false).writable address = memory.writable address := rfl
  have last : (memory.setTraced false).writable (address + values.length - 1) =
      memory.writable (address + values.length - 1) := rfl
  simp only [writeBlock, first, last]
  split
  · rfl
  · split
    · rfl
    · split
      · rfl
      · exact memory.writeBytes_hushed address values

end Memory

namespace Machine

variable {machine : Machine}

/-- The machine, reporting its accesses or not. -/
def withTrace (machine : Machine) (on : Bool) : Machine :=
  machine.refit id (·.setTraced on)

/-- The end of a step, for the machine that reports nothing. -/
def endHushed (ended : Progress × Machine) : Progress × Machine :=
  (ended.1, ended.2.withTrace false)

/-- A word is fetched without a report. -/
theorem fetch_hushed (machine : Machine) :
    Hushes id machine.fetch (machine.withTrace false).fetch := by
  have size : (machine.withTrace false).memory.size = machine.memory.size := rfl
  have pc : (machine.withTrace false).registers.pc = machine.registers.pc := rfl
  simp only [fetch, pc, size]
  split
  · rfl
  · exact machine.memory.readWord_hushed _

/-- An operation is carried out without a report. -/
theorem carryOut_hushed (machine : Machine) (word : Word) (operation : Operation) :
    Hushes endHushed (machine.carryOut word operation)
      ((machine.withTrace false).carryOut word operation) := by
  cases operation
  case ret =>
    apply (Traced.hushes_ofExcept machine.registers.stack.pop).bind
    intro popped
    rfl
  case call =>
    apply (Traced.hushes_ofExcept (machine.registers.stack.push _)).bind
    intro stack
    rfl
  case draw =>
    apply (Traced.hushes_ofExcept (machine.sprite word.n)).bind
    intro sprite
    rfl
  case load =>
    apply (Traced.hushes_ofExcept (machine.memory.readBlock _ _)).bind
    intro bytes
    rfl
  case storeDecimal | store =>
    apply (machine.memory.writeBlock_hushed _ _).bind
    intro next
    rfl
  case awaitKey =>
    have keypad : (machine.withTrace false).keypad = machine.keypad := rfl
    simp only [carryOut, keypad]
    cases machine.keypad.firstPressed? with
    | some key => rfl
    | none => rfl
  all_goals rfl

/-- A step is made without a report. -/
theorem step_hushed (machine : Machine) :
    Hushes endHushed machine.step (machine.withTrace false).step := by
  apply (fetch_hushed machine).bind
  intro word
  apply (Traced.hushes_ofExcept (Instruction.decode machine.dialect.extendedDisplay
    machine.registers.pc.toNat word)).bind
  intro instruction
  apply (carryOut_hushed machine word instruction.operation).bind
  intro ended
  have concluded := @conclude_refit id (·.setTraced false) ended.2 instruction ended.1
  exact congrArg (⟨[], .ok ·⟩ : _ → Traced (Progress × Machine)) concluded

end Machine

namespace Run

/-- The run of the machine that reports nothing. -/
def hushed (run : Run) : Run := ⟨run.machine.withTrace false, #[], run.stop⟩

/-- One more step is made without a report. -/
theorem step_hushed (run : Run) : run.hushed.step = run.step.hushed := by
  cases stopped : run.stop with
  | some stop => simp only [step, hushed, stopped]
  | none =>
    have made : (run.machine.withTrace false).step =
        ⟨[], run.machine.step.result.map Machine.endHushed⟩ := run.machine.step_hushed
    simp only [step, hushed, stopped, made]
    cases run.machine.step.result with
    | error fault => rfl
    | ok ended =>
      obtain ⟨progress, next⟩ := ended
      cases progress <;> rfl

theorem tick_hushed (run : Run) : run.hushed.tick = run.tick.hushed := by
  have ticked : (run.machine.withTrace false).tick = run.machine.tick.withTrace false :=
    @Machine.tick_refit id (·.setTraced false) run.machine
  cases stopped : run.stop with
  | some stop => simp only [tick, hushed, stopped]
  | none =>
    simp only [tick, hushed, stopped, ticked]
    rfl

/-- Moves are followed without a report. -/
theorem follow_hushed (run : Run) (moves : List Move) :
    run.hushed.follow moves = (run.follow moves).hushed := by
  apply List.foldl_hom
  intro run move
  cases move with
  | step => exact step_hushed run
  | tick => exact tick_hushed run

end Run

/-- The reply of the machine that reports nothing. -/
def Reply.hushed (reply : Reply) : Reply := ⟨reply.machine.withTrace false, #[], reply.result⟩

namespace Machine

/-- A frame is run without a report. -/
theorem runFrame_hushed (machine : Machine) :
    (machine.withTrace false).runFrame =
      (machine.runFrame.1.hushed, machine.runFrame.2) := by
  have running : (machine.withTrace false).isRunning = machine.isRunning := rfl
  have clock : (machine.withTrace false).clock = machine.clock := rfl
  simp only [runFrame, running, clock]
  split
  case isTrue =>
    cases machine.clock.stepsPerFrame with
    | error misuse => rfl
    | ok steps =>
      have followed := (Run.begin machine).follow_hushed (Run.frameMoves steps)
      simp only [Run.frame_eq_follow]
      exact congrArg (·, steps) followed
  case isFalse => rfl

/-- A slice of time passes without a report. -/
theorem emulate_hushed (machine : Machine) (duration : Number) :
    (machine.withTrace false).emulate duration =
      ((machine.emulate duration).1.hushed, (machine.emulate duration).2) := by
  have running : (machine.withTrace false).isRunning = machine.isRunning := rfl
  have clock : (machine.withTrace false).clock = machine.clock := rfl
  simp only [emulate, running, clock]
  split
  case isTrue =>
    cases machine.clock.advance duration with
    | error misuse => rfl
    | ok passed =>
      obtain ⟨⟨steps, ticks⟩, clock⟩ := passed
      have followed := (Run.begin { machine with clock }).follow_hushed
        (Run.sliceMoves steps.toNat ticks.toNat)
      simp only [Run.slice_eq_follow]
      exact congrArg (·, steps) followed
  case isFalse => rfl

/-- A program is started in a memory that reports nothing as it is in another. -/
theorem start_hushed (machine : Machine) (memory : Memory) (dialect : Option Dialect) :
    (machine.withTrace false).start (memory.setTraced false) dialect =
      (machine.start memory dialect).withTrace false := by
  -- To start is to reset and run with the new memory, and neither looks at it.
  let set : Machine := { machine with memory, dialect := dialect.getD machine.dialect }
  have reset : (set.withTrace false).reset = set.reset.withTrace false :=
    @reset_refit id (·.setTraced false) set
  have run : ({ set.reset with status := .running }.withTrace false).adjustBeeper =
      ({ set.reset with status := .running } : Machine).adjustBeeper.withTrace false :=
    @adjustBeeper_refit id (·.setTraced false) { set.reset with status := .running }
  change (set.withTrace false).reset.setStatus .running = _
  rw [reset]
  exact run

/-- Whether the time is lost does not depend on the reports. -/
theorem adjusted_hushed (machine : Machine) :
    Reply.adjusted (machine.withTrace false) = (Reply.adjusted machine).hushed := by
  have lost : (machine.withTrace false).lostTime? = machine.lostTime? := rfl
  unfold Reply.adjusted
  rw [lost]
  cases machine.lostTime? with
  | none => rfl
  | some misuse => rfl

/-- A request is served without a report. -/
theorem serve_hushed (machine : Machine) (request : Request) :
    (machine.withTrace false).serve request = (machine.serve request).hushed := by
  have beside (aside : request.isAside = true) :
      (machine.withTrace false).serve request = (machine.serve request).hushed := by
    have served := @serve_refit id (·.setTraced false) request machine aside
    refine served.trans ?_
    rw [Reply.refit, accesses_of_aside machine aside]
    rfl
  cases request
  case load image dialect =>
    have capacity : (machine.withTrace false).memory.capacity = machine.memory.capacity := rfl
    by_cases larger : machine.memory.capacity < image.length
    · simp only [serve, load, Rom.install, capacity, larger, if_true]
      rfl
    · have started := start_hushed machine (machine.memory.install image) dialect
      simp only [serve, load, Rom.install, capacity, larger, if_false]
      exact (congrArg Reply.adjusted started).trans (adjusted_hushed _)
  case loadFile disk path dialect =>
    have capacity : (machine.withTrace false).memory.capacity = machine.memory.capacity := rfl
    simp only [serve, loadFile, capacity]
    cases Rom.read disk path machine.memory.capacity with
    | error refusal => rfl
    | ok rom =>
      have started := start_hushed machine (machine.memory.install rom.image) dialect
      exact congrArg (fun next : Machine =>
        (⟨{ next with rom := some rom }, #[], .ok (.program rom)⟩ : Reply)) started
  case step =>
    have made : (machine.withTrace false).step =
        ⟨[], machine.step.result.map endHushed⟩ := machine.step_hushed
    simp only [serve, Reply.ofStep, made]
    cases machine.step.result with
    | error fault => rfl
    | ok ended =>
      obtain ⟨progress, next⟩ := ended
      cases progress <;> rfl
  case runFrame =>
    simp only [serve, runFrame_hushed]
    rfl
  case emulate duration =>
    simp only [serve, emulate_hushed]
    rfl
  all_goals exact beside rfl

/-- So is one request after the other. -/
theorem replies_hushed (machine : Machine) (requests : List Request) :
    (machine.withTrace false).replies requests = (machine.replies requests).map Reply.hushed := by
  induction requests generalizing machine with
  | nil => rfl
  | cons request rest inductionHypothesis =>
    have served := serve_hushed machine request
    have next : (machine.withTrace false).serveOne request =
        (machine.serveOne request).withTrace false := congrArg Reply.machine served
    simp only [replies, List.map_cons, served, next, inductionHypothesis]

end Machine

end Chip8
