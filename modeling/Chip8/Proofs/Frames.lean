import Chip8.Proofs.Exactness
import Chip8.Proofs.Slices
import Chip8.Proofs.Surroundings

/-!
# Frames and slices

Frames one after the other are a list of moves, so many steps and a tick again and again,
and a run follows it as if it were one. Where it is stopped, some frames are complete and
a part of the steps of the next one is.

A slice that spreads a multiple of its ticks gives every tick the same share, and has the
same moves. This is the slice of a clock whose rates are whole, one a multiple of the
other, as long as ticks fall on whole microseconds. Letting the time of some frames pass
and making that many frames then keep in step, with the time itself apart. They part only
where a move needs the time and it is lost to one of them.
-/

namespace Chip8

namespace Run

variable {run : Run} {moves : List Move}

/-- The moves of several frames of a number of steps. -/
def framesMoves (steps count : Nat) : List Move := (List.replicate count (frameMoves steps)).flatten

theorem framesMoves_succ (steps count : Nat) :
    framesMoves steps (count + 1) = frameMoves steps ++ framesMoves steps count := by
  rw [framesMoves, List.replicate_succ, List.flatten_cons, framesMoves]

/-- One frame more may also stand behind the others. -/
theorem framesMoves_concat (steps count : Nat) :
    framesMoves steps (count + 1) = framesMoves steps count ++ frameMoves steps := by
  rw [framesMoves, framesMoves, List.replicate_succ', List.flatten_append, List.flatten_singleton]

/-- Every frame has its steps and one tick. -/
theorem count_framesMoves (steps count : Nat) :
    (framesMoves steps count).count .step = steps * count ∧
      (framesMoves steps count).count .tick = count := by
  induction count with
  | zero => exact ⟨rfl, rfl⟩
  | succ count inductionHypothesis =>
    have ofFrame : (frameMoves steps).count .step = steps ∧ (frameMoves steps).count .tick = 1 := by
      simp [frameMoves, List.count_replicate]
    rw [framesMoves_succ, List.count_append, List.count_append, ofFrame.1, ofFrame.2,
      inductionHypothesis.1, inductionHypothesis.2]
    exact ⟨by rw [Nat.mul_succ, Nat.add_comm], Nat.add_comm 1 count⟩

/-- Some steps more are counted as steps. -/
theorem count_framesMoves_append (steps count more : Nat) :
    let moves := framesMoves steps count ++ List.replicate more .step
    moves.count .step = count * steps + more ∧ moves.count .tick = count := by
  obtain ⟨made, ticked⟩ := count_framesMoves steps count
  have none : (List.replicate more Move.step).count .tick = 0 := by simp [List.count_replicate]
  refine ⟨?_, ?_⟩
  · rw [List.count_append, made, List.count_replicate_self, Nat.mul_comm]
  · rw [List.count_append, ticked, none, Nat.add_zero]

/-- Spread over its ticks, a multiple gives every tick the same share. -/
theorem shareMoves_eq_framesMoves (steps ticks : Nat) {left : Nat} (within : left ≤ ticks) :
    shareMoves (steps * ticks) ticks left = framesMoves steps left := by
  induction left with
  | zero => rfl
  | succ left inductionHypothesis =>
    have some : 0 < ticks := Nat.zero_lt_of_lt within
    have exact (tick : Nat) : due (steps * ticks) ticks tick = steps * tick := by
      rw [due, Nat.mul_right_comm, Nat.mul_div_cancel _ some]
    have share : steps * (ticks - (left + 1) + 1) - steps * (ticks - (left + 1)) = steps := by
      rw [Nat.mul_succ, Nat.add_sub_cancel_left]
    rw [shareMoves, exact, exact, share, inductionHypothesis (Nat.le_of_succ_le within),
      framesMoves_succ, frameMoves, List.append_assoc]
    rfl

theorem sliceMoves_eq_framesMoves (steps ticks : Nat) :
    sliceMoves (steps * ticks) ticks = framesMoves steps ticks := by
  unfold sliceMoves
  split
  case isTrue none =>
    subst none
    rfl
  case isFalse => exact shareMoves_eq_framesMoves steps ticks (Nat.le_refl ticks)

/-- The run with accesses before its own. -/
def after (run : Run) (earlier : Array Access) : Run :=
  { run with accesses := earlier ++ run.accesses }

/-- What was accessed before does not matter to a run. -/
theorem follow_after (run : Run) (earlier : Array Access) (moves : List Move) :
    (run.after earlier).follow moves = (run.follow moves).after earlier := by
  induction moves generalizing run with
  | nil => rfl
  | cons move rest inductionHypothesis =>
    have moved : (run.after earlier).move move = (run.move move).after earlier := by
      obtain ⟨machine, accesses, stop⟩ := run
      cases stop with
      | some stop => cases move <;> rfl
      | none =>
        cases move with
        | tick => rfl
        | step =>
          have joined : earlier ++ accesses ++ machine.step.accesses =
              earlier ++ (accesses ++ machine.step.accesses) :=
            Array.ext' (by simp)
          simp only [Run.move, step, after, joined]
          rcases machine.step.result with fault | ⟨progress, next⟩
          · rfl
          · cases progress <;> rfl
    change ((run.after earlier).move move).follow rest = _
    rw [moved]
    exact inductionHypothesis (run.move move)

end Run

namespace Machine

variable {machine reached last : Machine} {before moves performed : List Move}
  {stopped : Option Run.Stop} {stop : Run.Stop} {steps count : Nat}

/-- Moves that come after others that are performed. -/
theorem Outcome.prepend (first : machine.Performs before reached)
    (further : reached.Outcome moves performed stopped last) :
    machine.Outcome (before ++ moves) (before ++ performed) stopped last := by
  induction first with
  | nil => exact further
  | cons completes _ inductionHypothesis => exact .cons completes (inductionHypothesis further)

/-- Moves that are stopped are not stopped by those that were to follow. -/
theorem Outcome.extend (outcome : machine.Outcome moves performed (some stop) last)
    (later : List Move) : machine.Outcome (moves ++ later) performed (some stop) last := by
  cases outcome with
  | @broken _ after move reached _ _ performs fails =>
    rw [List.append_assoc, List.cons_append]
    exact .broken performs fails

/-- A frame that is stopped has performed a part of its steps, and by a fault not all. -/
theorem Outcome.of_frame
    (outcome : machine.Outcome (Run.frameMoves steps) performed (some stop) last) :
    ∃ made, performed = List.replicate made .step ∧
      ∀ fault, stop = .fault fault → made < steps := by
  generalize whole : Run.frameMoves steps = moves at outcome
  cases outcome with
  | @broken _ after move reached _ _ performs fails =>
    have within : performed.length ≤ steps := by
      have lengths := congrArg List.length whole
      simp only [Run.frameMoves, List.length_append, List.length_replicate, List.length_cons,
        List.length_nil] at lengths
      omega
    have made : performed = List.replicate performed.length .step := by
      have taken := congrArg (List.take performed.length) whole
      rw [Run.frameMoves, List.take_append_of_le_length (List.length_replicate.symm ▸ within),
        List.take_replicate, List.take_left, Nat.min_eq_left within] at taken
      exact taken.symm
    refine ⟨performed.length, made, ?_⟩
    rintro fault rfl
    cases fails with
    | fault =>
      -- After all steps of the frame comes its tick, which cannot fail with a fault.
      refine Nat.lt_of_le_of_ne within fun all => ?_
      rw [made, all, Run.frameMoves] at whole
      cases List.append_cancel_left whole

/-- Several frames of a machine, up to the first that is stopped, with the steps of each
one before it. -/
def frames (machine : Machine) (count : Nat) : List Int × Run :=
  machine.repeated (fun next => next.runFrame.map id Int.ofNat) count

/-- One frame, and the others if it is not stopped. -/
theorem frames_succ (running : machine.isRunning = true)
    (told : machine.clock.stepsPerFrame = .ok steps) (count : Nat) :
    let first := (Run.begin machine).follow (Run.frameMoves steps)
    machine.frames (count + 1) =
      if first.stop.isSome then ([], first)
      else ((steps : Int) :: (first.machine.frames count).1,
        (first.machine.frames count).2.after first.accesses) := by
  have frame : machine.runFrame = ((Run.begin machine).follow (Run.frameMoves steps), steps) := by
    simp only [runFrame, running, told, if_true, Run.frame_eq_follow]
  simp only [frames, repeated, frame]
  rfl

/-- A frame that is not stopped leaves the machine running at its rates. -/
theorem Performs.goesOn (performs : machine.Performs moves last)
    (running : machine.isRunning = true) (told : machine.clock.stepsPerFrame = .ok steps) :
    last.isRunning = true ∧ last.clock.stepsPerFrame = .ok steps := by
  obtain ⟨clock, status⟩ := performs.host
  rw [isRunning, clock, status]
  exact ⟨running, told⟩

/-- Frames one after the other follow their moves. -/
theorem frames_run (running : machine.isRunning = true)
    (told : machine.clock.stepsPerFrame = .ok steps) (count : Nat) :
    (machine.frames count).2 = (Run.begin machine).follow (Run.framesMoves steps count) := by
  induction count generalizing machine with
  | zero => rfl
  | succ count inductionHypothesis =>
    rw [frames_succ running told, Run.framesMoves_succ, Run.follow_append]
    have performs := Run.performs_of_going (.begin machine) (Run.frameMoves steps)
    generalize (Run.begin machine).follow (Run.frameMoves steps) = first at performs ⊢
    obtain ⟨reached, accesses, stop⟩ := first
    cases stop with
    | some stop => exact (Run.follow_of_stopped rfl _).symm
    | none =>
      obtain ⟨runs, length⟩ := (performs rfl).goesOn running told
      change (reached.frames count).2.after accesses = _
      rw [inductionHypothesis runs length, ← Run.follow_after]
      rfl

/-- Where frames are stopped, some of them are complete, each with its steps, and a part of
the steps of the next one is. -/
theorem frames_outcome (running : machine.isRunning = true)
    (told : machine.clock.stepsPerFrame = .ok steps) (count : Nat) :
    let framed := machine.frames count
    ∃ complete made, framed.1 = List.replicate complete (steps : Int) ∧
      (framed.2.stop = none → complete = count ∧ made = 0) ∧
      (∀ fault, framed.2.stop = some (.fault fault) → made < steps) ∧
      machine.Outcome (Run.framesMoves steps count)
        (Run.framesMoves steps complete ++ List.replicate made .step)
        framed.2.stop framed.2.machine := by
  induction count generalizing machine with
  | zero =>
    refine ⟨0, 0, rfl, fun _ => ⟨rfl, rfl⟩, ?_, .complete (.nil machine)⟩
    intro fault (stops : none = some _)
    cases stops
  | succ count inductionHypothesis =>
    rw [frames_succ running told, Run.framesMoves_succ]
    have performs := Run.performs_of_going (.begin machine) (Run.frameMoves steps)
    obtain ⟨performed, outcome⟩ :=
      Run.follow_outcome (.begin machine) rfl (Run.frameMoves steps)
    generalize (Run.begin machine).follow (Run.frameMoves steps) = first at performs outcome ⊢
    obtain ⟨reached, accesses, stop⟩ := first
    cases stop with
    | some stop =>
      obtain ⟨made, rfl, part⟩ := outcome.of_frame
      refine ⟨0, made, rfl, ?_, ?_, outcome.extend _⟩
      · intro (going : some stop = none)
        cases going
      · intro fault (stops : some stop = some _)
        exact part fault (Option.some.inj stops)
    | none =>
      obtain ⟨runs, length⟩ := (performs rfl).goesOn running told
      obtain ⟨complete, made, counts, all, part, further⟩ := inductionHypothesis runs length
      refine ⟨complete + 1, made, ?_, ?_, part, ?_⟩
      · exact congrArg ((steps : Int) :: ·) counts
      · intro going
        obtain ⟨every, none⟩ := all going
        exact ⟨congrArg (· + 1) every, none⟩
      · rw [Run.framesMoves_succ, List.append_assoc]
        exact further.prepend (performs rfl)

end Machine

/-- The beeper with the times of its changes forgotten. -/
def Beeper.untimed (beeper : Beeper) : Beeper :=
  beeper.withHistory (beeper.history.map fun beep => { beep with time := .whole 0 })

/-- Switched at any time, a beeper that has forgotten the times is where it always is. -/
theorem Beeper.untimed_setActive (beeper : Beeper) (time : Number) (on : Bool) :
    (beeper.setActive time on).untimed = beeper.untimed.setActive (.whole 0) on := by
  unfold untimed
  rw [setActive_withHistory beeper (.whole 0) time, setActive_history]
  congr 1
  unfold chronicle
  split <;> rfl

/-- The machine with the time forgotten, on its clock and in the history of its beeper. -/
def Machine.timeless (machine : Machine) : Machine :=
  { machine with clock := machine.clock.reset, beeper := machine.beeper.untimed }

/-- Surroundings that differ in nothing but time. -/
structure Surroundings.SameButTime (around other : Surroundings) : Prop where
  clock : around.clock.reset = other.clock.reset
  beeper : around.beeper.untimed = other.beeper.untimed
  rom : around.rom = other.rom

/-- Switching the beeper keeps surroundings the same but for time. -/
theorem Surroundings.switchesAlike_sameButTime : Machine.SwitchesAlike SameButTime := by
  intro around other on same timing
  unfold lostTime? at timing
  unfold switch
  cases told : around.clock.seconds with
  | error misuse =>
    cases toldOther : other.clock.seconds with
    | error _ => exact same
    | ok _ => simp [told, toldOther] at timing
  | ok now =>
    cases toldOther : other.clock.seconds with
    | error _ => simp [told, toldOther] at timing
    | ok _ =>
      refine ⟨same.clock, ?_, same.rom⟩
      simp only [Beeper.untimed_setActive, same.beeper]

/-- Machines that are alike in surroundings the same but for time are the same but for time. -/
theorem Machine.Akin.timeless {first second : Machine}
    (akin : Machine.Akin Surroundings.SameButTime first second) :
    first.timeless = second.timeless := by
  have parts := akin.parts
  obtain ⟨clock, beeper, rom⟩ := akin.around
  generalize second.surroundings = around at parts clock beeper rom
  subst parts
  simp only [Machine.timeless, Machine.within, ← clock, ← beeper, ← rom]
  rfl

namespace Run

variable {first second : Run} {moves : List Move}

/-- Runs keep in step when after every move both have made the same accesses, are stopped
by the same or not at all, and their machines are the same but for time. -/
def InStep (first second : Run) (moves : List Move) : Prop :=
  ∀ earlier later, moves = earlier ++ later →
    (first.follow earlier).accesses = (second.follow earlier).accesses ∧
      (first.follow earlier).stop = (second.follow earlier).stop ∧
      (first.follow earlier).machine.timeless = (second.follow earlier).machine.timeless

/-- Runs of machines that are the same but for time keep in step, unless they come to a
move that needs the time and it is lost to one of them, or to both in different ways. -/
theorem inStep_iff (akin : Run.Akin Surroundings.SameButTime first second)
    (going : first.stop = none) :
    first.InStep second moves ↔
      ¬(first.machine.lostTime? ≠ second.machine.lostTime? ∧ first.machine.NeedsTime moves) := by
  constructor
  · rintro inStep ⟨apart, needs⟩
    have needsOther := akin.machine.needsTime Surroundings.switchesAlike_sameButTime needs
    obtain ⟨_, stop, _⟩ := inStep moves [] (List.append_nil moves).symm
    refine apart (Option.ext fun misuse => ?_)
    have lost : (first.follow moves).stop = some (.number misuse) ↔ _ :=
      Machine.follow_stop_number_iff first going
    have lostOther : (second.follow moves).stop = some (.number misuse) ↔ _ :=
      Machine.follow_stop_number_iff second (akin.stop.trans going)
    rw [stop, lostOther, and_iff_left needs, and_iff_left needsOther] at lost
    exact lost.symm
  · intro timely earlier later split
    have spared : ¬first.machine.NeedsTime earlier ∨
        first.machine.lostTime? = second.machine.lostTime? := by
      by_cases same : first.machine.lostTime? = second.machine.lostTime?
      · exact .inr same
      · exact .inl fun needs => timely ⟨same, split ▸ needs.append later⟩
    have followed := akin.follow Surroundings.switchesAlike_sameButTime earlier spared
    exact ⟨followed.accesses.symm, followed.stop.symm, followed.machine.timeless⟩

end Run

namespace FrameClock

variable {timerRate period : Nat}

/-- The clock some microseconds later. -/
def later (clock : FrameClock) (passed : Nat) : FrameClock :=
  { clock with elapsed := clock.elapsed + passed }

/-- In whole periods of the timer a multiple of its rate has whole numbers of events. -/
theorem count_of_periods (whole : timerRate * period = Number.microseconds) (factor periods : Nat) :
    count (.whole (factor * timerRate)) (periods * period) = .ok (factor * periods) := by
  have events : ((factor * timerRate : Int) * ((periods * period : Nat) : Int)) =
      (factor * periods : Int) * (Number.microseconds : Int) := by
    rw [← whole]
    exact_mod_cast Nat.mul_mul_mul_comm factor timerRate periods period
  rw [count_whole, events, Int.mul_ediv_cancel _ (by decide)]

/-- So many periods after a whole number of them there are so many more events. -/
theorem between_of_periods (whole : timerRate * period = Number.microseconds)
    (factor before periods : Nat) :
    between (.whole (factor * timerRate)) (before * period) (before * period + periods * period) =
      .ok (factor * periods) := by
  have more : (factor * ((before + periods : Nat) : Int)) - factor * before = factor * periods := by
    rw [Int.natCast_add, Int.mul_add]
    omega
  simp only [between, ← Nat.add_mul, count_of_periods whole]
  exact congrArg Except.ok more

/-- In some periods a clock counts so many ticks, and for each of them the steps of a frame. -/
theorem advance_periods {clock : FrameClock} {steps periods : Nat} {duration : Number}
    (whole : timerRate * period = Number.microseconds)
    (rated : clock.rate = .whole (steps * timerRate)) (timed : clock.timerRate = .whole timerRate)
    (aligned : period ∣ clock.elapsed) (some : 0 < periods)
    (measured : duration.toMicroseconds = .ok (periods * period : Nat)) :
    clock.advance duration =
      .ok (((steps * periods : Int), (periods : Int)), clock.later (periods * period)) := by
  have somePeriod : 0 < period := by
    refine Nat.pos_of_ne_zero ?_
    rintro rfl
    cases whole
  have positive : 0 < ((periods * period : Nat) : Int) := by
    exact_mod_cast Nat.mul_pos some somePeriod
  obtain ⟨before, passed⟩ := aligned
  rw [Nat.mul_comm] at passed
  have ticks := between_of_periods whole 1 before periods
  rw [Int.natCast_one, Int.one_mul, Int.one_mul] at ticks
  rw [advance_of_passed clock measured positive, Int.toNat_natCast]
  simp only [pass, rated, timed, passed, between_of_periods whole, ticks]
  simp only [later, rated, timed, passed]
  rfl

end FrameClock

namespace Machine

variable {machine : Machine} {duration : Number} {steps timerRate count : Nat}

/-- Let the instruction rate be a multiple of the timer rate, and a whole number of ticks
passed. To let the time of some frames pass then has the moves of that many frames, so
many ticks with the same number of steps each, and either way the machine follows them.
The two keep in step, unless they come to a move that needs the time, a tick or the
setting of the sound timer, and it is lost to one of them. -/
theorem emulate_inStep_iff (running : machine.isRunning = true) (someTimerRate : 0 < timerRate)
    (divides : timerRate ∣ Number.microseconds) (someSteps : 1 ≤ steps)
    (fits : steps < Nat.pow 2 Rounding.precision)
    (rated : machine.clock.rate = .whole (steps * timerRate))
    (timed : machine.clock.timerRate = .whole timerRate)
    (aligned : Number.microseconds / timerRate ∣ machine.clock.elapsed) (someFrames : 1 ≤ count)
    (measured : duration.toMicroseconds = .ok (count * (Number.microseconds / timerRate) : Nat)) :
    let moves := Run.framesMoves steps count
    let frames := machine.frames count
    let clock := machine.clock.later (count * (Number.microseconds / timerRate))
    let outset : Machine := { machine with clock }
    moves.count .step = steps * count ∧ moves.count .tick = count ∧
      machine.emulate duration = ((Run.begin outset).follow moves, (steps * count : Int)) ∧
      frames.2 = (Run.begin machine).follow moves ∧
      (frames.2.stop = none → frames.1 = List.replicate count (steps : Int)) ∧
      ((Run.begin outset).InStep (.begin machine) moves ↔
        ¬(outset.lostTime? ≠ machine.lostTime? ∧ outset.NeedsTime moves)) := by
  intro moves frames clock outset
  have told : machine.clock.stepsPerFrame = .ok steps := by
    have clocked : machine.clock =
        ⟨.whole (steps * timerRate), .whole timerRate, machine.clock.elapsed⟩ := by
      rw [← rated, ← timed]
    rw [clocked]
    exact FrameClock.stepsPerFrame_of_multiple someSteps fits someTimerRate
  have advanced : machine.clock.advance duration =
      .ok (((steps * count : Int), (count : Int)), clock) :=
    FrameClock.advance_periods (Nat.mul_div_cancel' divides) rated timed aligned someFrames measured
  have slice : Run.sliceMoves (steps * count : Int).toNat (count : Int).toNat = moves := by
    rw [← Int.natCast_mul, Int.toNat_natCast, Int.toNat_natCast]
    exact Run.sliceMoves_eq_framesMoves steps count
  have akin : Run.Akin Surroundings.SameButTime (.begin outset) (.begin machine) :=
    ⟨⟨⟨rfl, rfl, rfl⟩, rfl⟩, rfl, rfl⟩
  obtain ⟨complete, made, counts, all, _⟩ := frames_outcome running told count
  refine ⟨(Run.count_framesMoves steps count).1, (Run.count_framesMoves steps count).2, ?_,
    frames_run running told count, ?_, Run.inStep_iff akin rfl⟩
  · rw [emulate_of_advanced running advanced, slice]
  · intro going
    rw [counts, (all going).1]

/-- A machine that runs the loop keeps in step with its frames for a second. -/
theorem emulate_inStep_of_loopProgram :
    let machine := (silent ⟨.whole 500, .whole 50, 0⟩ .chip8 0).serveOne (.load loopProgram none)
    let outset : Machine := { machine with clock := machine.clock.later 1000000 }
    machine.emulate (.whole 1) = ((Run.begin outset).follow (Run.framesMoves 10 50), 500) ∧
      (Run.begin outset).InStep (.begin machine) (Run.framesMoves 10 50) := by
  intro machine outset
  obtain ⟨running, clocked⟩ :
      machine.isRunning = true ∧ machine.clock = ⟨.whole 500, .whole 50, 0⟩ :=
    serveOne_load_running (by decide +kernel) none
  have divides : 50 ∣ Number.microseconds := by decide
  have fits : 10 < Nat.pow 2 Rounding.precision := by decide +kernel
  have aligned : Number.microseconds / 50 ∣ machine.clock.elapsed := by
    rw [clocked]
    exact Nat.dvd_zero _
  obtain ⟨_, _, slice, _, _, inStep⟩ := emulate_inStep_iff running (show 0 < 50 by decide) divides
    (show 1 ≤ 10 by decide) fits (by rw [clocked]; rfl) (by rw [clocked]; rfl) aligned
    (show 1 ≤ 50 by decide) (show (Number.whole 1).toMicroseconds = _ from rfl)
  refine ⟨slice, inStep.mpr ?_⟩
  rintro ⟨apart, _⟩
  have start : machine.lostTime? = none := lostTime_of_start (by rw [clocked])
  have told : outset.lostTime? = none := by
    simp only [outset, lostTime?, clocked]
    decide +kernel
  exact apart (told.trans start.symm)

/-- A machine of one instruction and one tick a second that runs the loop. -/
def evenMachine : Machine :=
  (silent ⟨.whole 1, .whole 1, 0⟩ .chip8 0).serveOne (.load loopProgram none)

/-- A jump is always complete. -/
theorem step_of_jump {machine : Machine} (fetched : machine.fetch.result = .ok 0x1200) :
    ∃ next, machine.step.result = .ok (.executed, next) := by
  have known (extended : Bool) : Operation.ofWord? extended 0x1200 = some .jump := by
    cases extended <;> rfl
  exact ⟨_, step_eq_ok.mpr ⟨0x1200, .jump, fetched, known _, .executed, _, rfl, rfl⟩⟩

/-- After so many seconds that the time is lost, letting them pass is stopped by the first
tick, while no frame is stopped for want of the time. -/
theorem not_inStep_of_endless :
    Reachable evenMachine ∧ evenMachine.isRunning = true ∧
      evenMachine.clock = ⟨.whole 1, .whole 1, 0⟩ ∧
      (Number.whole endless).toMicroseconds = .ok (endless * (Number.microseconds / 1) : Nat) ∧
      (evenMachine.emulate (.whole endless)).1.stop = some (.number .largeQuotient) ∧
      ∀ misuse, (evenMachine.frames endless).2.stop ≠ some (.number misuse) := by
  have built : (silent ⟨.whole 1, .whole 1, 0⟩ .chip8 0).IsBuilt := by
    have isRate : (Number.whole 1).isRate = true := by decide +kernel
    refine ⟨⟨.whole 1, .whole 1, ?_⟩, ⟨.standard, .idle, false, rfl⟩, rfl⟩
    simp only [FrameClock.ofRates?, isRate]
    rfl
  have fits : loopProgram.length ≤ Memory.standard.capacity := by decide +kernel
  obtain ⟨running, clocked⟩ :
      evenMachine.isRunning = true ∧ evenMachine.clock = ⟨.whole 1, .whole 1, 0⟩ :=
    @serveOne_load_running (silent ⟨.whole 1, .whole 1, 0⟩ .chip8 0) _ fits none
  have fetched : evenMachine.fetch.result = .ok 0x1200 := by
    have area : Memory.programStart ≤ Memory.standard.size := by decide +kernel
    obtain ⟨beeper, even⟩ : ∃ beeper, evenMachine =
        { silent ⟨.whole 1, .whole 1, 0⟩ .chip8 0 with
          memory := Memory.standard.install loopProgram
          beeper
          status := .running } :=
      @serveOne_load_eq (silent ⟨.whole 1, .whole 1, 0⟩ .chip8 0) _ fits none
    rw [even]
    exact fetch_installed rfl area fits 0 rfl rfl (by decide)
  have some : 0 < endless := by decide +kernel
  have lost : (⟨.whole 1, .whole 1, 0 + endless * Number.microseconds⟩ : FrameClock).seconds =
      .error .largeQuotient := seconds_of_late
  have reached : Reachable evenMachine := (Reachable.built built).serve _
  generalize endless = seconds at some lost ⊢
  generalize evenMachine = machine at reached running clocked fetched ⊢
  refine ⟨reached, running, clocked, ?_, ?_, ?_⟩
  · exact congrArg Except.ok (Int.natCast_mul ..).symm
  · have advanced : machine.clock.advance (.whole seconds) =
        .ok (((seconds : Int), (seconds : Int)),
          ⟨.whole 1, .whole 1, 0 + seconds * Number.microseconds⟩) := by
      rw [clocked, FrameClock.advance_whole 1 1 0 some, Int.one_mul]
    obtain ⟨left, rfl⟩ := Nat.exists_eq_succ_of_ne_zero (Nat.ne_of_gt some)
    have moves := Run.sliceMoves_eq_framesMoves 1 (left + 1)
    rw [Nat.one_mul, Run.framesMoves_succ] at moves
    let outset : Machine := { machine with
      clock := ⟨.whole 1, .whole 1, 0 + (left + 1) * Number.microseconds⟩ }
    have sameWord (clock : FrameClock) : ({ machine with clock } : Machine).fetch = machine.fetch :=
      rfl
    have stands : outset.fetch.result = .ok 0x1200 :=
      (congrArg Traced.result (sameWord _)).trans fetched
    obtain ⟨next, stepped⟩ := step_of_jump stands
    rw [emulate_of_advanced running advanced, Int.toNat_natCast, moves]
    exact (follow_stop_number_iff (.begin outset) rfl).mpr
      ⟨lostTime_eq_some.mpr lost, .step stepped .tick⟩
  · intro misuse stops
    have told : machine.clock.stepsPerFrame = .ok 1 := by
      rw [clocked]
      exact @FrameClock.stepsPerFrame_of_multiple 1 1 0 Nat.one_pos (by decide +kernel) Nat.one_pos
    rw [frames_run running told] at stops
    obtain ⟨impossible, _⟩ := (follow_stop_number_iff (.begin machine) rfl).mp stops
    have start : machine.lostTime? = none := lostTime_of_start (by rw [clocked])
    cases start.symm.trans impossible

end Machine

end Chip8
