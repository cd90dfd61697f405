import Chip8.Proofs.Decoding
import Chip8.Proofs.Grid
import Chip8.Proofs.Schedule
import Chip8.Proofs.Storage

/-!
# Well-formed machines

A machine is well formed when each part has its size: the stack its depth, the
memory its bytes with the reserved area as it was laid out, and the screen a grid of
one of the two sizes, of which the larger one belongs to the extended set.

Fresh machines are well formed, and steps, ticks and requests keep them so. A
request that brings a new dialect is the one case where the screen alone would not
do: loading goes back to the standard size, whatever the dialect was before.
-/

namespace Chip8

namespace CallStack

/-- A push that succeeds found room, and puts its address on top. -/
theorem push_eq_ok {stack pushed : CallStack} {address : UInt16} :
    stack.push address = .ok pushed ↔
      stack.depth < stack.capacity ∧ pushed = ⟨stack.capacity, address :: stack.entries⟩ := by
  unfold push
  split
  case isTrue full => simp [Nat.not_lt.mpr full]
  case isFalse room => simp [Nat.lt_of_not_le room, eq_comm]

/-- A pop that succeeds takes the top address away. -/
theorem pop_eq_ok {stack rest : CallStack} {address : UInt16} :
    stack.pop = .ok (address, rest) ↔
      stack.entries = address :: rest.entries ∧ rest.capacity = stack.capacity := by
  obtain ⟨capacity, entries⟩ := stack
  obtain ⟨restCapacity, restEntries⟩ := rest
  cases entries with
  | nil => simp [pop]
  | cons top below =>
    simp only [pop, Except.ok.injEq, Prod.mk.injEq, mk.injEq, List.cons.injEq]
    constructor
    · rintro ⟨rfl, rfl, rfl⟩
      exact ⟨⟨rfl, rfl⟩, rfl⟩
    · rintro ⟨⟨rfl, rfl⟩, rfl⟩
      exact ⟨rfl, rfl, rfl⟩

end CallStack

namespace Machine

/-- Every part of the machine has its size. -/
structure WellFormed (machine : Machine) : Prop where
  stackCapacity : machine.registers.stack.capacity = CallStack.standardCapacity
  stackDepth : machine.registers.stack.depth ≤ CallStack.standardCapacity
  memorySize : machine.memory.size = Memory.standardSize
  reserved : machine.memory.reservedBytes = Memory.reserved
  grid : machine.screen.IsGrid
  screenSize :
    (machine.screen.width = Screen.standardWidth ∧ machine.screen.height = Screen.standardHeight) ∨
      (machine.screen.width = Screen.extendedWidth ∧ machine.screen.height = Screen.extendedHeight ∧
        machine.dialect.extendedDisplay = true)

variable {machine next : Machine} {word : Word} {operation : Operation} {progress : Progress}

/-- A well-formed screen has an area. -/
theorem WellFormed.area (formed : machine.WellFormed) :
    0 < machine.screen.width ∧ 0 < machine.screen.height := by
  rcases formed.screenSize with ⟨width, height⟩ | ⟨width, height, _⟩
  · rw [width, height]
    decide
  · rw [width, height]
    decide

theorem WellFormed.adjustBeeper (formed : machine.WellFormed) :
    machine.adjustBeeper.WellFormed := by
  rw [adjustBeeper_eq]
  exact { formed with }

/-- The stack fits after an operation. -/
theorem Footprint.stack_fits (left : Footprint machine word operation next)
    (formed : machine.WellFormed) :
    next.registers.stack.capacity = CallStack.standardCapacity ∧
      next.registers.stack.depth ≤ CallStack.standardCapacity := by
  have capacity := formed.stackCapacity
  have depth := formed.stackDepth
  have stack := left.stack
  cases operation
  case call =>
    obtain ⟨room, pushed⟩ := CallStack.push_eq_ok.mp stack
    rw [pushed]
    rw [capacity] at room
    exact ⟨capacity, room⟩
  case ret =>
    obtain ⟨entries, kept⟩ := CallStack.pop_eq_ok.mp stack
    refine ⟨kept.trans capacity, ?_⟩
    simp only [CallStack.depth, entries, List.length_cons] at depth
    exact Nat.le_of_succ_le depth
  all_goals
    rw [stack]
    exact ⟨capacity, depth⟩

/-- Memory keeps its size and its reserved area under an operation. -/
theorem Footprint.memory_keeps (left : Footprint machine word operation next) :
    next.memory.size = machine.memory.size ∧
      next.memory.reservedBytes = machine.memory.reservedBytes := by
  have memory := left.memory
  cases operation
  case storeDecimal | store => exact Memory.writeBlock_keeps memory
  all_goals
    rw [memory]
    exact ⟨rfl, rfl⟩

/-- The screen has one of its sizes after an operation of the machine's set. -/
theorem Footprint.screen_fits (left : Footprint machine word operation next)
    (known : Operation.ofWord? machine.dialect.extendedDisplay word = some operation)
    (formed : machine.WellFormed) :
    next.screen.IsGrid ∧
      ((next.screen.width = Screen.standardWidth ∧ next.screen.height = Screen.standardHeight) ∨
        (next.screen.width = Screen.extendedWidth ∧ next.screen.height = Screen.extendedHeight ∧
          machine.dialect.extendedDisplay = true)) := by
  have screen := left.screen
  cases operation
  case clear =>
    rw [screen]
    exact ⟨Screen.isGrid_clear _, formed.screenSize⟩
  case lowResolution =>
    rw [screen]
    exact ⟨Screen.isGrid_setExtended _ _, .inl ⟨rfl, rfl⟩⟩
  case highResolution =>
    rw [screen]
    exact ⟨Screen.isGrid_setExtended _ _, .inr ⟨rfl, rfl, Operation.extended_of_ofWord known rfl⟩⟩
  case draw =>
    obtain ⟨sprite, _, drawn⟩ := screen
    rw [drawn, Screen.draw_width, Screen.draw_height]
    exact ⟨formed.grid.draw _ _ _ _, formed.screenSize⟩
  all_goals
    rw [screen]
    exact ⟨formed.grid, formed.screenSize⟩

/-- An operation of the machine's set keeps the machine well formed. -/
theorem Footprint.wellFormed (left : Footprint machine word operation next)
    (known : Operation.ofWord? machine.dialect.extendedDisplay word = some operation)
    (formed : machine.WellFormed) : next.WellFormed := by
  obtain ⟨capacity, depth⟩ := left.stack_fits formed
  obtain ⟨size, reserved⟩ := left.memory_keeps
  obtain ⟨grid, screenSize⟩ := left.screen_fits known formed
  have dialect : next.dialect = machine.dialect := by rw [left.host]
  exact ⟨capacity, depth, size.trans formed.memorySize, reserved.trans formed.reserved, grid,
    dialect ▸ screenSize⟩

/-- A step keeps the machine well formed, be it complete or not. -/
theorem WellFormed.afterStep (formed : machine.WellFormed) : machine.afterStep.WellFormed := by
  rcases afterStep_cases machine with failed |
    ⟨word, operation, after, executed, last, _, known, left, ended⟩
  · rw [failed]
    exact formed
  · have carriedOut : after.WellFormed := left.wellFormed known formed
    have noted : ({ after with executed, last } : Machine).WellFormed := { carriedOut with }
    rcases ended with ⟨_, ended⟩ | ⟨_, ended⟩
    · rw [ended]
      exact noted
    · rw [ended]
      exact noted.adjustBeeper

theorem WellFormed.tick (formed : machine.WellFormed) : machine.tick.WellFormed :=
  WellFormed.adjustBeeper { formed with }

theorem WellFormed.setStatus (formed : machine.WellFormed) (status : RunStatus) :
    (machine.setStatus status).WellFormed :=
  WellFormed.adjustBeeper { formed with }

/-- A reset needs no more than stack and memory: it brings back the standard screen. -/
theorem wellFormed_reset (machine : Machine)
    (stackCapacity : machine.registers.stack.capacity = CallStack.standardCapacity)
    (memorySize : machine.memory.size = Memory.standardSize)
    (reserved : machine.memory.reservedBytes = Memory.reserved) : machine.reset.WellFormed :=
  WellFormed.adjustBeeper
    { stackCapacity := stackCapacity
      stackDepth := Nat.zero_le _
      memorySize := memorySize
      reserved := reserved
      grid := Screen.isGrid_setExtended machine.screen false
      screenSize := .inl ⟨rfl, rfl⟩ }

theorem WellFormed.reset (formed : machine.WellFormed) : machine.reset.WellFormed :=
  wellFormed_reset machine formed.stackCapacity formed.memorySize formed.reserved

/-- Starting with an image that fits keeps the machine well formed in any dialect. -/
theorem WellFormed.start (formed : machine.WellFormed) {image : List UInt8}
    (fits : image.length ≤ machine.memory.capacity) (dialect : Option Dialect) :
    (machine.start (machine.memory.install image) dialect).WellFormed := by
  have area : Memory.programStart ≤ machine.memory.size := by
    rw [formed.memorySize]
    decide
  obtain ⟨size, reserved⟩ := Memory.install_keeps area fits
  have fromStart := wellFormed_reset
    { machine with
      memory := machine.memory.install image
      dialect := dialect.getD machine.dialect }
    formed.stackCapacity (size.trans formed.memorySize) (reserved.trans formed.reserved)
  exact fromStart.setStatus .running

/-- A machine is built well formed. -/
theorem IsBuilt.wellFormed (built : machine.IsBuilt) : machine.WellFormed := by
  rw [built.parts]
  exact
    { stackCapacity := rfl
      stackDepth := Nat.zero_le _
      memorySize := Memory.standard_size
      reserved := Memory.standard_reservedBytes
      grid := Screen.isGrid_standard
      screenSize := .inl ⟨rfl, rfl⟩ }

theorem WellFormed.outset (formed : machine.WellFormed) (request : Request) :
    (machine.outset request).WellFormed := by
  rw [outset_eq]
  exact { formed with }

/-- A request keeps the machine well formed, be it granted or refused. -/
theorem WellFormed.serveOne (formed : machine.WellFormed) (request : Request) :
    (machine.serveOne request).WellFormed := by
  cases request
  case load image dialect =>
    rw [serveOne_load]
    split
    case isTrue => exact formed
    case isFalse fits => exact formed.start (Nat.le_of_not_lt fits) dialect
  case loadFile disk path dialect =>
    rw [serveOne_loadFile]
    split
    case h_1 rom found =>
      have fits : rom.image.length ≤ machine.memory.capacity := by
        exact_mod_cast Memory.fits_of_read found
      exact { formed.start fits dialect with }
    case h_2 => exact formed
  case reset => exact serveOne_reset machine ▸ formed.reset
  case powerOn => exact serveOne_powerOn machine ▸ { formed.reset with }
  case powerOff => exact { formed with }
  case pause => exact serveOne_pause machine ▸ formed.setStatus _
  case resume => exact serveOne_resume machine ▸ formed.setStatus _
  case setStatus code =>
    rw [serveOne_setStatus]
    split
    · exact formed.setStatus _
    · exact formed
  case setRate rate =>
    rw [serveOne_setRate]
    split
    · exact { formed with }
    · exact formed
  case step => exact serveOne_step machine ▸ formed.afterStep
  case skip => exact { formed with }
  case tick => exact serveOne_tick machine ▸ formed.tick
  case runFrame =>
    rw [runFrame_eq_follow]
    exact Run.follow_keeps WellFormed (fun _ => afterStep) (fun _ => tick) formed _
  case emulate duration =>
    rw [emulate_eq_follow]
    exact Run.follow_keeps WellFormed (fun _ => afterStep) (fun _ => tick)
      (formed.outset (.emulate duration)) _
  case setKey key pressed =>
    rw [serveOne_setKey]
    split
    · exact { formed with }
    · exact formed
  case clearDelay => exact { formed with }
  case clearSound =>
    rw [serveOne_clearSound]
    exact WellFormed.adjustBeeper { formed with }

/-- So does a history of requests. -/
theorem WellFormed.serveAll (formed : machine.WellFormed) (requests : List Request) :
    (machine.serveAll requests).WellFormed :=
  serveAll_keeps WellFormed (fun request _ _ here => here.serveOne request) formed

/-- Every reachable machine is well formed. -/
theorem Reachable.wellFormed (reached : Reachable machine) : machine.WellFormed := by
  induction reached with
  | built built => exact built.wellFormed
  | serve _ request inductionHypothesis => exact inductionHypothesis.serveOne request

/-- So is every machine at which a request attempts a step. -/
theorem WellFormed.attempts (formed : machine.WellFormed) (request : Request) :
    ∀ attempted ∈ machine.attempts request, attempted.WellFormed :=
  Run.attempts_keep WellFormed (fun _ => afterStep) (fun _ => tick) (formed.outset request) _

end Machine

end Chip8
