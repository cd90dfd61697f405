import Chip8.Proofs.Accesses
import Chip8.Proofs.Tracing

/-!
# Reported writes can be replayed

What a program does to memory can be done again from the lines that report it. Each line is
read, and what it says was written is stored, in the order of the lines. As long as no program
is loaded, this turns the bytes that were there at first into those that are there now.

Memory is written byte by byte, and every byte is reported where it is stored. What fails has
stored nothing, and has reported nothing as written. This is shown for one step; a run keeps the
bytes and its reports in line with each other from move to move, and a history from request to
request.
-/

namespace Chip8

/-- The bytes after an access is done again. A read leaves them. -/
def Access.redo (bytes : Array UInt8) : Access → Array UInt8
  | .read _ _ => bytes
  | .write address value => bytes.setIfInBounds address value

/-- The bytes after the accesses are done again that the lines report, one after the other. -/
def replay (bytes : Array UInt8) (lines : List String) : Array UInt8 :=
  (lines.filterMap Access.ofLine?).foldl Access.redo bytes

/-- To replay the lines of accesses is to do the accesses again. -/
theorem replay_lines (bytes : Array UInt8) (accesses : List Access) :
    replay bytes (accesses.map Access.line) = accesses.foldl Access.redo bytes := by
  have told : accesses.filterMap (Access.ofLine? ∘ Access.line) = accesses := by
    rw [show Access.ofLine? ∘ Access.line = some from funext Access.ofLine_line]
    exact List.filterMap_some
  rw [replay, List.filterMap_map, told]

/-- The lines that report what a request accessed. -/
def Reply.lines (reply : Reply) : List String := reply.accesses.toList.map Access.line

namespace Memory

variable {memory next : Memory} {address : Int}

/-- A reported read leaves the bytes when it is done again. -/
theorem redo_report_read (memory : Memory) (address : Nat) (value : UInt8)
    (bytes : Array UInt8) :
    (memory.report (.read address value)).foldl Access.redo bytes = bytes := by
  unfold report
  split
  · rfl
  · rfl

/-- A byte that is written is written again. -/
theorem redo_writeByte {value : UInt8} (traced : memory.traced = true)
    (written : (memory.writeByte address value).result = .ok next) :
    (memory.writeByte address value).accesses.foldl Access.redo memory.bytes = next.bytes := by
  obtain ⟨inside, rfl⟩ := writeByte_eq_ok.mp written
  rw [writeByte, if_pos inside, report, if_pos traced]
  rfl

/-- So are bytes one after the other. -/
theorem redo_writeBytes {values : List UInt8} (traced : memory.traced = true)
    (written : (memory.writeBytes address values).result = .ok next) :
    (memory.writeBytes address values).accesses.foldl Access.redo memory.bytes = next.bytes := by
  induction values generalizing memory address with
  | nil =>
    cases written
    rfl
  | cons value rest inductionHypothesis =>
    obtain ⟨first, head, tail⟩ := Traced.result_bind_eq_ok.mp written
    have still : first.traced = true := by
      rw [(writeByte_eq_ok.mp head).2]
      exact traced
    -- The first byte turns the bytes into those of the memory to which the rest is written.
    rw [writeBytes, Traced.accesses_bind, head, List.foldl_append, redo_writeByte traced head]
    exact inductionHypothesis still tail

theorem redo_writeBlock {values : List UInt8} (traced : memory.traced = true)
    (written : (memory.writeBlock address values).result = .ok next) :
    (memory.writeBlock address values).accesses.foldl Access.redo memory.bytes = next.bytes := by
  rw [writeBlock_eq_of_ok written]
  exact redo_writeBytes traced (writeBytes_of_writeBlock written)

end Memory

namespace Machine

variable {machine next : Machine} {progress : Progress} {request : Request}

/-- What a fetch reports leaves the bytes when it is done again. -/
theorem redo_fetch (machine : Machine) (bytes : Array UInt8) :
    machine.fetch.accesses.foldl Access.redo bytes = bytes := by
  cases fetched : machine.fetch.result with
  | error fault => rw [fetch_accesses_of_failed fetched, List.foldl_nil]
  | ok word =>
    rw [fetch_accesses fetched, List.foldl_append, Memory.redo_report_read,
      Memory.redo_report_read]

/-- To conclude a step leaves the memory alone. -/
theorem conclude_memory (machine : Machine) (instruction : Instruction) (progress : Progress) :
    (machine.conclude instruction progress).2.memory = machine.memory := by
  have concluded := @conclude_refit id (fun _ => machine.memory) machine instruction progress
  exact congrArg (·.2.memory) concluded

/-- What a step reports turns the bytes before it into those after it, be it complete or not. -/
theorem redo_step (traced : machine.memory.traced = true) :
    machine.step.accesses.foldl Access.redo machine.memory.bytes =
      machine.afterStep.memory.bytes := by
  cases stepped : machine.step.result with
  | error fault =>
    -- A step that fails has fetched at most, and has left the machine as it was.
    have stays : machine.afterStep = machine := by simp only [afterStep, stepped]
    rw [step_accesses_of_failed stepped, redo_fetch, stays]
  | ok ended =>
    obtain ⟨progress, next⟩ := ended
    obtain ⟨word, operation, fetched, known, found, after, carried, concluded⟩ :=
      step_eq_ok.mp stepped
    have finds : machine.Finds word operation := ⟨fetched, known⟩
    have memory : next.memory = after.memory := by
      rw [← conclude_memory after ⟨operation, word⟩ found, concluded]
    rw [finds.step_accesses, List.foldl_append, redo_fetch, afterStep_of_ok stepped, memory]
    exact Memory.redo_writeBlock traced (carryOut_footprint carried).written

end Machine

/-- The machine of a run reports its accesses, and those of the run turn the bytes into the ones
that the machine has. -/
structure Run.Recorded (bytes : Array UInt8) (run : Run) : Prop where
  traced : run.machine.memory.traced = true
  redone : run.accesses.toList.foldl Access.redo bytes = run.machine.memory.bytes

namespace Run.Recorded

variable {bytes : Array UInt8} {run : Run}

/-- A step adds its reports and what they tell. -/
theorem step (recorded : Recorded bytes run) : Recorded bytes run.step := by
  have made := Machine.redo_step recorded.traced
  have kept : run.machine.afterStep.memory.traced = true :=
    (congrArg Machine.Makeup.traced run.machine.afterStep_makeup).trans recorded.traced
  cases going : run.stop with
  | some stop =>
    rw [step_of_stopped (Option.isSome_iff_exists.mpr ⟨stop, going⟩)]
    exact recorded
  | none =>
    have machine : run.step.machine = run.machine.afterStep := by
      rw [machine_step, going]
      rfl
    have accesses : run.step.accesses = run.accesses ++ run.machine.step.accesses := by
      simp only [Run.step, going]
      split <;> rfl
    constructor
    · rw [machine]
      exact kept
    · rw [accesses, machine, Array.toList_appendList, List.foldl_append, recorded.redone]
      exact made

/-- A tick adds nothing. -/
theorem tick (recorded : Recorded bytes run) : Recorded bytes run.tick := by
  have memory := run.tick_memory
  have accesses : run.tick.accesses = run.accesses := by
    unfold Run.tick
    split <;> rfl
  constructor
  · rw [memory]
    exact recorded.traced
  · rw [accesses, memory]
    exact recorded.redone

/-- From move to move a run stays in line with its reports. -/
theorem follow (recorded : Recorded bytes run) (moves : List Move) :
    Recorded bytes (run.follow moves) := by
  induction moves generalizing run with
  | nil => exact recorded
  | cons move rest inductionHypothesis =>
    cases move with
    | step => exact inductionHypothesis recorded.step
    | tick => exact inductionHypothesis recorded.tick

end Run.Recorded

namespace Machine

variable {machine : Machine} {request : Request}

/-- What a request reports turns the bytes before it into those after it. -/
theorem redo_serve (plain : request.isLoad = false) (traced : machine.memory.traced = true) :
    (machine.serve request).accesses.toList.foldl Access.redo machine.memory.bytes =
      (machine.serveOne request).memory.bytes := by
  have beside (aside : request.isAside = true) :
      (machine.serve request).accesses.toList.foldl Access.redo machine.memory.bytes =
        (machine.serveOne request).memory.bytes := by
    rw [accesses_of_aside machine aside, memory_of_aside machine aside]
    rfl
  cases request
  case load | loadFile => cases plain
  case step =>
    rw [serveOne_step, ← redo_step traced]
    change (Reply.ofStep machine).accesses.toList.foldl _ _ = _
    unfold Reply.ofStep
    dsimp only
    split <;> rfl
  case runFrame =>
    change machine.runFrame.1.accesses.toList.foldl _ _ = machine.runFrame.1.machine.memory.bytes
    unfold runFrame
    split
    case isFalse => rfl
    case isTrue =>
      split
      case h_1 steps _ =>
        have begun : Run.Recorded machine.memory.bytes (.begin machine) :=
          ⟨traced, rfl⟩
        rw [Run.frame_eq_follow]
        exact (begun.follow _).redone
      case h_2 => rfl
  case emulate duration =>
    change (machine.emulate duration).1.accesses.toList.foldl _ _ =
      (machine.emulate duration).1.machine.memory.bytes
    unfold emulate
    split
    case isFalse => rfl
    case isTrue =>
      split
      case h_1 steps ticks clock _ =>
        have begun : Run.Recorded machine.memory.bytes (.begin { machine with clock }) :=
          ⟨traced, rfl⟩
        rw [Run.slice_eq_follow]
        exact (begun.follow _).redone
      case h_2 => rfl
  all_goals exact beside rfl

/-- A history goes on from the bytes that its requests have made. -/
theorem redo_replies (machine : Machine) {requests : List Request}
    (plain : ∀ request ∈ requests, request.isLoad = false)
    (traced : machine.memory.traced = true) :
    ((machine.replies requests).flatMap fun reply => reply.accesses.toList).foldl Access.redo
        machine.memory.bytes = (machine.serveAll requests).memory.bytes := by
  induction requests generalizing machine with
  | nil => rfl
  | cons request rest inductionHypothesis =>
    have still : (machine.serveOne request).memory.traced = true :=
      (congrArg Makeup.traced (machine.serveOne_makeup request)).trans traced
    have first := redo_serve (plain request List.mem_cons_self) traced
    rw [replies, List.flatMap_cons, List.foldl_append, first]
    exact inductionHypothesis (machine.serveOne request)
      (fun other later => plain other (List.mem_cons_of_mem _ later)) still

/-- Reports are pure observation, and those of the writes are complete. A machine that is asked
for the same, and reports nothing, gives the same results and is left the same, but that it
reports nothing. As long as nothing is loaded, the lines of the reports turn the bytes that the
memory had when they were switched on into those that it has. -/
theorem traces_observe (machine : Machine) (requests : List Request) :
    (machine.withTrace false).replies requests =
        ((machine.withTrace true).replies requests).map Reply.hushed ∧
      ((∀ request ∈ requests, request.isLoad = false) →
        replay machine.memory.bytes
            (((machine.withTrace true).replies requests).flatMap Reply.lines) =
          ((machine.withTrace true).serveAll requests).memory.bytes) := by
  constructor
  · exact replies_hushed (machine.withTrace true) requests
  · intro plain
    have lines : ((machine.withTrace true).replies requests).flatMap Reply.lines =
        (((machine.withTrace true).replies requests).flatMap
          fun reply => reply.accesses.toList).map Access.line :=
      (List.map_flatMap ..).symm
    rw [lines, replay_lines]
    exact redo_replies (machine.withTrace true) plain rfl

/-- Three bytes are written in a small memory, and four have no room any more. The refused block
is not reported, and the lines tell what the memory has become. -/
theorem traces_observe_of_refusal :
    let machine : Machine :=
      { ofRate 700 .chip8 0 .mute with
        memory := ⟨((List.replicate 0x200 0 : List UInt8) ++
          [0xA2, 0x06, 0xF0, 0x33, 0xF3, 0x55, 9, 9, 9]).toArray, false⟩ }
    let requests : List Request := [.step, .step, .step]
    let lines := ["read: addr=200 val=A2", "read: addr=201 val=06", "read: addr=202 val=F0",
      "read: addr=203 val=33", "write: addr=206 val=00", "write: addr=207 val=00",
      "write: addr=208 val=00", "read: addr=204 val=F3", "read: addr=205 val=55"]
    (∀ request ∈ requests, request.isLoad = false) ∧
      ((machine.withTrace false).replies requests).map (·.result.isOk) = [true, true, false] ∧
      ((machine.withTrace true).replies requests).flatMap Reply.lines = lines ∧
      replay machine.memory.bytes lines =
        ((machine.withTrace true).serveAll requests).memory.bytes := by
  intro machine requests lines
  have plain : ∀ request ∈ requests, request.isLoad = false := by decide
  have shown : ((machine.withTrace true).replies requests).flatMap Reply.lines = lines := by
    decide +kernel
  obtain ⟨hushed, replays⟩ := traces_observe machine requests
  have replayed := replays plain
  rw [shown] at replayed
  refine ⟨plain, ?_, shown, replayed⟩
  rw [hushed]
  decide +kernel

end Machine

end Chip8
