import Chip8.Proofs.Request

/-!
# Schedules

Frames and slices of time are nested loops that may be left in the middle. Written
out, each is a list of moves, a step or a tick apiece, and a run follows the list
until something stops it. Properties of runs are then shown for one move and
carried along a list.

The moves that a request makes, and the machine it makes them from, are its
agenda. The attempts of a request are the machines at which it tries a step; the
last of them may be the one whose step failed.
-/

namespace Chip8

/-- One move of a run. -/
inductive Move where
  | step
  | tick
deriving DecidableEq, Repr

/-- The machine after an attempted step. -/
def Machine.afterStep (machine : Machine) : Machine :=
  match machine.step.result with
  | .ok (_, next) => next
  | .error _ => machine

namespace Run

/-- One more move, unless the run has stopped. -/
def move (run : Run) : Move → Run
  | .step => run.step
  | .tick => run.tick

/-- Follow a list of moves until something stops the run. -/
def follow (run : Run) (moves : List Move) : Run := moves.foldl move run

/-- The moves of one frame. -/
def frameMoves (steps : Nat) : List Move := List.replicate steps .step ++ [.tick]

/-- The moves of the remaining ticks of a slice, each after its share of the steps. -/
def shareMoves (steps ticks : Nat) : Nat → List Move
  | 0 => []
  | left + 1 =>
    let tick := ticks - (left + 1)
    List.replicate (due steps ticks (tick + 1) - due steps ticks tick) .step ++
      .tick :: shareMoves steps ticks left

/-- The moves of a slice. Without a tick the steps stand alone. -/
def sliceMoves (steps ticks : Nat) : List Move :=
  if ticks = 0 then List.replicate steps .step else shareMoves steps ticks ticks

/-- The machines at which a run that follows the moves attempts a step. -/
def attempts (run : Run) : List Move → List Machine
  | [] => []
  | .step :: rest => (if run.stop.isSome then [] else [run.machine]) ++ run.step.attempts rest
  | .tick :: rest => run.tick.attempts rest

/-- A stopped run makes no further step. -/
theorem step_of_stopped {run : Run} (stopped : run.stop.isSome) : run.step = run := by
  obtain ⟨stop, known⟩ := Option.isSome_iff_exists.mp stopped
  simp only [step, known]

/-- A stopped run makes no further tick. -/
theorem tick_of_stopped {run : Run} (stopped : run.stop.isSome) : run.tick = run := by
  obtain ⟨stop, known⟩ := Option.isSome_iff_exists.mp stopped
  simp only [tick, known]

/-- A stopped run follows nothing. -/
theorem follow_of_stopped {run : Run} (stopped : run.stop.isSome) (moves : List Move) :
    run.follow moves = run := by
  induction moves with
  | nil => rfl
  | cons move rest inductionHypothesis =>
    have still : run.move move = run := by
      cases move with
      | step => exact step_of_stopped stopped
      | tick => exact tick_of_stopped stopped
    change (run.move move).follow rest = run
    rw [still]
    exact inductionHypothesis

theorem follow_append (run : Run) (first second : List Move) :
    run.follow (first ++ second) = (run.follow first).follow second :=
  List.foldl_append ..

/-- The machine of a run that still goes on has made its step. -/
theorem machine_step (run : Run) :
    run.step.machine = if run.stop.isSome then run.machine else run.machine.afterStep := by
  cases known : run.stop with
  | some stop => simp only [step, known, Option.isSome_some, if_true]
  | none =>
    simp only [step, known, Machine.afterStep, Option.isSome_none, Bool.false_eq_true, if_false]
    split <;> simp_all

theorem machine_tick (run : Run) :
    run.tick.machine = if run.stop.isSome then run.machine else run.machine.tick := by
  cases known : run.stop <;> simp [tick, known]

/-- A run whose first step fails comes to nothing. -/
theorem follow_of_failed {machine : Machine} {fault : Fault}
    (failed : machine.step.result = .error fault) (rest : List Move) :
    ((begin machine).follow (.step :: rest)).machine = machine := by
  have stepped : (begin machine).step =
      ⟨machine, (#[] : Array Access) ++ machine.step.accesses, some (.fault fault)⟩ := by
    simp only [step, begin, failed]
  change ((begin machine).step.follow rest).machine = _
  rw [stepped, follow_of_stopped rfl]

/-- What a step and a tick keep, a run keeps. -/
theorem follow_keeps (holds : Machine → Prop)
    (ofStep : ∀ machine, holds machine → holds machine.afterStep)
    (ofTick : ∀ machine, holds machine → holds machine.tick)
    {run : Run} (start : holds run.machine) (moves : List Move) :
    holds (run.follow moves).machine := by
  induction moves generalizing run with
  | nil => exact start
  | cons move rest inductionHypothesis =>
    have moved : holds (run.move move).machine := by
      cases move with
      | step =>
        change holds run.step.machine
        rw [machine_step]
        split
        · exact start
        · exact ofStep _ start
      | tick =>
        change holds run.tick.machine
        rw [machine_tick]
        split
        · exact start
        · exact ofTick _ start
    exact inductionHypothesis moved

/-- What a step and a tick keep holds wherever a run attempts a step. -/
theorem attempts_keep (holds : Machine → Prop)
    (ofStep : ∀ machine, holds machine → holds machine.afterStep)
    (ofTick : ∀ machine, holds machine → holds machine.tick)
    {run : Run} (start : holds run.machine) (moves : List Move) :
    ∀ machine ∈ run.attempts moves, holds machine := by
  induction moves generalizing run with
  | nil =>
    intro machine member
    cases member
  | cons move rest inductionHypothesis =>
    have after : holds (run.move move).machine := follow_keeps holds ofStep ofTick start [move]
    intro machine member
    cases move with
    | tick => exact inductionHypothesis after machine member
    | step =>
      rcases List.mem_append.mp member with here | later
      · split at here
        · cases here
        · exact List.eq_of_mem_singleton here ▸ start
      · exact inductionHypothesis after machine later

/-- A number of steps, as moves. -/
theorem steps_eq_follow (count : Nat) (run : Run) :
    run.steps count = run.follow (List.replicate count .step) := by
  induction count generalizing run with
  | zero => rfl
  | succ count inductionHypothesis =>
    change (if run.stop.isSome then run else run.step.steps count) = _
    split
    case isTrue stopped => exact (follow_of_stopped stopped _).symm
    case isFalse => exact inductionHypothesis run.step

/-- A frame, as moves. -/
theorem frame_eq_follow (steps : Nat) (run : Run) :
    run.frame steps = run.follow (frameMoves steps) := by
  rw [frameMoves, follow_append, ← steps_eq_follow]
  rfl

/-- The remaining ticks of a slice, as moves. -/
theorem share_eq_follow (steps ticks left : Nat) (run : Run) :
    share steps ticks left run = run.follow (shareMoves steps ticks left) := by
  induction left generalizing run with
  | zero => rfl
  | succ left inductionHypothesis =>
    rw [share]
    split
    case isTrue stopped => exact (follow_of_stopped stopped _).symm
    case isFalse =>
      rw [inductionHypothesis, shareMoves, follow_append, steps_eq_follow]
      rfl

/-- A slice, as moves. -/
theorem slice_eq_follow (steps ticks : Nat) (run : Run) :
    run.slice steps ticks = run.follow (sliceMoves steps ticks) := by
  unfold slice sliceMoves
  split
  · exact steps_eq_follow steps run
  · exact share_eq_follow steps ticks ticks run

/-- A slice with enough steps for its ticks begins with a step. -/
theorem sliceMoves_eq_cons (steps ticks : Nat) (some : 0 < steps) (enough : ticks ≤ steps) :
    ∃ rest, sliceMoves steps ticks = .step :: rest := by
  cases ticks with
  | zero =>
    obtain ⟨others, rfl⟩ := Nat.exists_eq_succ_of_ne_zero (Nat.ne_of_gt some)
    exact ⟨List.replicate others .step, rfl⟩
  | succ left =>
    have first : 0 < due steps (left + 1) 1 - due steps (left + 1) 0 := by
      have share : 0 < steps * 1 / (left + 1) := Nat.div_pos (by omega) (Nat.succ_pos left)
      simpa [due] using share
    obtain ⟨others, count⟩ := Nat.exists_eq_succ_of_ne_zero (Nat.ne_of_gt first)
    refine ⟨List.replicate others .step ++ .tick :: shareMoves steps (left + 1) left, ?_⟩
    rw [sliceMoves, if_neg (Nat.succ_ne_zero left), shareMoves, Nat.sub_self, count]
    rfl

end Run

/-- Whole seconds hold whole numbers of events of a whole rate. -/
theorem FrameClock.between_whole (rate : Int) (elapsed seconds : Nat) :
    between (.whole rate) elapsed (elapsed + seconds * Number.microseconds) =
      .ok (rate * seconds) := by
  have total : rate * ((elapsed + seconds * Number.microseconds : Nat) : Int) =
      rate * elapsed + rate * seconds * Number.microseconds := by
    push_cast
    rw [Int.mul_add, Int.mul_assoc]
  have events : rate * ((elapsed + seconds * Number.microseconds : Nat) : Int) /
      Number.microseconds - rate * elapsed / Number.microseconds = rate * seconds := by
    rw [total, Int.add_mul_ediv_right _ _ (by decide)]
    omega
  rw [← events]
  simp only [between, count_whole]
  rfl

/-- Time that passes is counted in microseconds. -/
theorem FrameClock.advance_of_passed (clock : FrameClock) {duration : Number} {passed : Int}
    (measured : duration.toMicroseconds = .ok passed) (positive : 0 < passed) :
    clock.advance duration = clock.pass passed.toNat := by
  rw [advance, measured]
  exact if_neg (Int.not_le.mpr positive)

/-- Whole seconds pass on a clock of whole rates. -/
theorem FrameClock.advance_whole (rate timerRate : Int) (elapsed : Nat) {seconds : Nat}
    (some : 0 < seconds) :
    (⟨.whole rate, .whole timerRate, elapsed⟩ : FrameClock).advance (.whole seconds) =
      .ok ((rate * seconds, timerRate * seconds),
        ⟨.whole rate, .whole timerRate, elapsed + seconds * Number.microseconds⟩) := by
  have positive : 0 < (seconds : Int) * (Number.microseconds : Int) :=
    Int.mul_pos (by omega) (by decide)
  have amount : ((seconds : Int) * (Number.microseconds : Int)).toNat =
      seconds * Number.microseconds := by
    rw [← Int.natCast_mul, Int.toNat_natCast]
  rw [advance_of_passed _ rfl positive, amount]
  simp only [pass, between_whole]
  rfl

namespace Machine

/-- The machine from which a request makes its moves. Time passes first. -/
def outset (machine : Machine) : Request → Machine
  | .emulate duration =>
    if machine.isRunning then
      match machine.clock.advance duration with
      | .ok (_, clock) => { machine with clock }
      | .error _ => machine
    else machine
  | _ => machine

/-- The moves of a request. -/
def agenda (machine : Machine) : Request → List Move
  | .step => [.step]
  | .tick => [.tick]
  | .runFrame =>
    if machine.isRunning then
      match machine.clock.stepsPerFrame with
      | .ok steps => Run.frameMoves steps
      | .error _ => []
    else []
  | .emulate duration =>
    if machine.isRunning then
      match machine.clock.advance duration with
      | .ok ((steps, ticks), _) => Run.sliceMoves steps.toNat ticks.toNat
      | .error _ => []
    else []
  | _ => []

/-- The machines at which a request attempts a step. -/
def attempts (machine : Machine) (request : Request) : List Machine :=
  (Run.begin (machine.outset request)).attempts (machine.agenda request)

/-- The machines at which a history attempts a step. -/
def attemptsAll (machine : Machine) : List Request → List Machine
  | [] => []
  | request :: rest => machine.attempts request ++ (machine.serveOne request).attemptsAll rest

/-- The time that passes before a request's first move is the clock's alone. -/
theorem outset_eq (machine : Machine) (request : Request) :
    machine.outset request = { machine with clock := (machine.outset request).clock } := by
  cases request
  case emulate duration =>
    simp only [outset]
    split
    · split <;> rfl
    · rfl
  all_goals rfl

/-- A complete step leads where its result says. -/
theorem afterStep_of_ok {machine next : Machine} {progress : Progress}
    (stepped : machine.step.result = .ok (progress, next)) : machine.afterStep = next := by
  simp only [afterStep, stepped]

/-- A single step is attempted where it is asked for. -/
theorem attempts_step (machine : Machine) : machine.attempts .step = [machine] := rfl

theorem serveOne_step (machine : Machine) : machine.serveOne .step = machine.afterStep := by
  change (Reply.ofStep machine).machine = _
  dsimp only [Reply.ofStep, afterStep]
  rcases machine.step.result with fault | ⟨progress, next⟩
  · rfl
  · cases progress <;> rfl

/-- A frame as it is requested follows its agenda. -/
theorem runFrame_eq_follow (machine : Machine) :
    machine.serveOne .runFrame =
      ((Run.begin machine).follow (machine.agenda .runFrame)).machine := by
  change machine.runFrame.1.machine = _
  by_cases running : machine.isRunning
  · cases told : machine.clock.stepsPerFrame with
    | ok steps => simp only [runFrame, agenda, running, told, if_true, Run.frame_eq_follow]
    | error misuse =>
      simp only [runFrame, agenda, running, told, if_true]
      rfl
  · simp only [runFrame, agenda, running, Bool.false_eq_true, if_false]
    rfl

/-- A slice as it is requested follows its agenda. -/
theorem emulate_eq_follow (machine : Machine) (duration : Number) :
    machine.serveOne (.emulate duration) =
      ((Run.begin (machine.outset (.emulate duration))).follow
        (machine.agenda (.emulate duration))).machine := by
  change (machine.emulate duration).1.machine = _
  by_cases running : machine.isRunning
  · cases advanced : machine.clock.advance duration with
    | ok passed =>
      simp only [emulate, outset, agenda, running, advanced, if_true, Run.slice_eq_follow]
    | error misuse =>
      simp only [emulate, outset, agenda, running, advanced, if_true]
      rfl
  · simp only [emulate, outset, agenda, running, Bool.false_eq_true, if_false]
    rfl

/-- A slice whose first step fails lets the time pass and does nothing else. -/
theorem emulate_of_failed {machine : Machine} {duration : Number} {steps ticks : Int}
    {clock : FrameClock} {fault : Fault} (running : machine.isRunning = true)
    (advanced : machine.clock.advance duration = .ok ((steps, ticks), clock))
    (some : 0 < steps) (enough : ticks ≤ steps)
    (failed : ({ machine with clock } : Machine).step.result = .error fault) :
    machine.serveOne (.emulate duration) = { machine with clock } := by
  have outset : machine.outset (.emulate duration) = { machine with clock } := by
    simp only [Machine.outset, running, if_true, advanced]
  have agenda : machine.agenda (.emulate duration) =
      Run.sliceMoves steps.toNat ticks.toNat := by
    simp only [Machine.agenda, running, if_true, advanced]
  obtain ⟨rest, begins⟩ := Run.sliceMoves_eq_cons steps.toNat ticks.toNat (by omega) (by omega)
  rw [emulate_eq_follow, outset, agenda, begins]
  exact Run.follow_of_failed failed rest

end Machine

end Chip8
