import Chip8.Proofs.Frames
import Chip8.Session

/-!
# Sessions and frames

A session whose only limit is a number of frames attempts steps and closes frames one
after the other, by loops of its own. Written out, these are the moves of that many frames,
and a session follows them as a run does: it performs the same moves, counts them, and ends
where the run is stopped. It therefore leaves the machine that the frames leave, and its
counts say how far they came.

What the frames meet as a fault, the session reports. A number that cannot be told breaks
it off instead: the time, where a move needs it, or the length of a frame, which a session
asks for before its first frame even if it is to make none.
-/

namespace Chip8

namespace Session

/-- A number of frames is the only limit. -/
def Limits.ofFrames (count : Nat) (reports : Bool) : Limits :=
  ⟨some count, none, [], false, reports, fun _ => false⟩

/-- The ending where a run would be stopped. -/
def Ending.ofStop : Run.Stop → Ending
  | .fault found => .fault found
  | .number found => .number found

/-- One more move, unless the session has ended. -/
def move (limits : Limits) (session : Session) : Move → Session
  | .step => if session.ending.isSome then session else session.attempt limits
  | .tick => session.closeFrame limits

/-- Follow a list of moves until the session ends. -/
def follow (limits : Limits) (session : Session) (moves : List Move) : Session :=
  moves.foldl (move limits) session

theorem follow_append (limits : Limits) (session : Session) (first second : List Move) :
    session.follow limits (first ++ second) =
      (session.follow limits first).follow limits second :=
  List.foldl_append ..

/-- A session that has ended follows nothing. -/
theorem follow_of_ended {limits : Limits} {session : Session} (ended : session.ending.isSome)
    (moves : List Move) :
    session.follow limits moves = session := by
  induction moves with
  | nil => rfl
  | cons move rest inductionHypothesis =>
    have still : session.move limits move = session := by
      cases move with
      | step => exact if_pos ended
      | tick => exact if_pos ended
    change (session.move limits move).follow limits rest = session
    rw [still]
    exact inductionHypothesis

/-- A number of attempts, as moves. -/
theorem attempts_eq_follow (limits : Limits) (session : Session) (count : Nat) :
    session.attempts limits count = session.follow limits (List.replicate count .step) := by
  induction count generalizing session with
  | zero => rfl
  | succ count inductionHypothesis =>
    rw [attempts]
    split
    case isTrue ended => exact (follow_of_ended ended _).symm
    case isFalse going =>
      have moved : session.move limits .step = session.attempt limits := if_neg going
      rw [inductionHypothesis, ← moved]
      rfl

/-- A frame, as moves. -/
theorem frame_eq_follow (limits : Limits) (session : Session) (steps : Nat) :
    session.frame limits steps = session.follow limits (Run.frameMoves steps) := by
  rw [Run.frameMoves, follow_append, ← attempts_eq_follow]
  rfl

/-- What a session goes through while moves are performed: the machine it comes to, how it
ends, and what it counts. -/
structure Reaches (before after : Session) (performed : List Move) (last : Machine)
    (ending : Option Ending) : Prop where
  machine : after.machine = last
  ending : after.ending = ending
  steps : after.steps = before.steps + performed.count .step
  frames : after.frames = before.frames + performed.count .tick

variable {session middle after : Session} {next reached left last : Machine} {action : Move}
  {moves performed further : List Move} {stop : Run.Stop} {stopped : Option Run.Stop}
  {ending : Option Ending}

theorem Reaches.trans (first : session.Reaches middle performed reached none)
    (second : middle.Reaches after further last ending) :
    session.Reaches after (performed ++ further) last ending where
  machine := second.machine
  ending := second.ending
  steps := by rw [second.steps, first.steps, List.count_append, Nat.add_assoc]
  frames := by rw [second.frames, first.frames, List.count_append, Nat.add_assoc]

/-- To announce an attempt is no move. -/
theorem announce_reaches (going : session.ending = none) :
    session.Reaches session.announce [] session.machine none := by
  simp only [announce]
  cases (shownWord session.machine).result <;> exact ⟨rfl, going, rfl, rfl⟩

variable (count : Nat) (reports : Bool)

/-- Where a fault is all that stops an attempt, it is a step, announced or not. -/
theorem move_step_reaches (going : session.ending = none)
    (stepped : ∀ ready : Session, ready.machine = session.machine → ready.ending = none →
      ready.Reaches (ready.step false) performed last ending) :
    session.Reaches (session.move (.ofFrames count reports) .step) performed last ending := by
  have attempted : session.move (.ofFrames count reports) .step =
      (if reports then session.announce else session).step false := by
    simp only [move, going, attempt, Limits.ofFrames, Session.reached, Limits.breaksAt,
      List.any_nil, Bool.and_false, Option.isSome_none, Bool.false_eq_true, if_false]
    rfl
  rw [attempted]
  cases reports with
  | false => exact stepped session rfl going
  | true =>
    have announced := announce_reaches going
    exact announced.trans (stepped session.announce announced.machine announced.ending)

/-- A session that goes on makes a move that is complete, counts it, and still goes on. -/
theorem move_of_completes (going : session.ending = none)
    (completes : session.machine.Completes action next) :
    session.Reaches (session.move (.ofFrames count reports) action) [action] next none := by
  cases completes with
  | tick told =>
    simp only [move, closeFrame, going, told]
    exact ⟨rfl, rfl, rfl, rfl⟩
  | @step progress next stepped timed =>
    refine move_step_reaches count reports going fun ready stands open_ => ?_
    rw [← stands] at stepped
    simp only [step, stepped]
    cases progress with
    | untimed misuse => exact absurd rfl (timed misuse)
    | executed => exact ⟨rfl, open_, rfl, rfl⟩
    | waiting => exact ⟨rfl, open_, rfl, rfl⟩

/-- A session that goes on is ended by a move that fails, and does not count it. -/
theorem move_of_fails (going : session.ending = none)
    (fails : session.machine.Fails action stop left) :
    session.Reaches (session.move (.ofFrames count reports) action) [] left
      (some (.ofStop stop)) := by
  cases fails with
  | lost lost =>
    simp only [move, closeFrame, going, lost]
    exact ⟨rfl, rfl, rfl, rfl⟩
  | @fault found failed =>
    refine move_step_reaches count reports going fun ready stands _ => ?_
    rw [← stands] at failed
    simp only [step, failed]
    cases found <;> exact ⟨stands, rfl, rfl, rfl⟩
  | untimed stepped =>
    refine move_step_reaches count reports going fun ready stands _ => ?_
    rw [← stands] at stepped
    simp only [step, stepped]
    exact ⟨rfl, rfl, rfl, rfl⟩

/-- Moves that can be performed are followed to their end. -/
theorem follow_of_performs (going : session.ending = none)
    (performs : session.machine.Performs moves last) :
    session.Reaches (session.follow (.ofFrames count reports) moves) moves last none := by
  induction moves generalizing session with
  | nil =>
    cases performs
    exact ⟨rfl, going, rfl, rfl⟩
  | cons action rest inductionHypothesis =>
    cases performs with
    | cons first further =>
      have moved := move_of_completes count reports going first
      exact moved.trans (inductionHypothesis moved.ending (moved.machine ▸ further))

/-- A session ends in the one way in which its moves can end. -/
theorem follow_of_outcome (going : session.ending = none)
    (outcome : session.machine.Outcome moves performed stopped last) :
    session.Reaches (session.follow (.ofFrames count reports) moves) performed last
      (stopped.map .ofStop) := by
  cases outcome with
  | complete performs => exact follow_of_performs count reports going performs
  | broken performs fails =>
    have arrived := follow_of_performs count reports going performs
    have moved := move_of_fails count reports arrived.ending
      (arrived.machine ▸ fails)
    rw [follow_append]
    change session.Reaches (((session.follow _ _).move _ _).follow _ _) _ _ _
    rw [follow_of_ended (moved.ending ▸ rfl)]
    have whole := arrived.trans moved
    rwa [List.append_nil] at whole

/-- At the limit of frames a session ends, if it has not ended before. -/
def close (session : Session) : Session :=
  if session.ending.isSome then session else session.finish .frameLimit

/-- After a frame that has not ended the session, one frame more is complete. -/
theorem frames_of_frame (steps : Nat) (going : session.ending = none)
    (goesOn : (session.follow (.ofFrames count reports) (Run.frameMoves steps)).ending = none) :
    (session.follow (.ofFrames count reports) (Run.frameMoves steps)).frames =
      session.frames + 1 := by
  obtain ⟨performed, outcome⟩ := Run.follow_outcome (.begin session.machine) rfl
    (Run.frameMoves steps)
  have ended := (follow_of_outcome count reports going outcome).ending
  have still := Option.map_eq_none_iff.mp (ended.symm.trans goesOn)
  have performs := Run.performs_of_going (.begin session.machine) (Run.frameMoves steps) still
  have ticks : (Run.frameMoves steps).count .tick = 1 := by
    simp [Run.frameMoves, List.count_replicate]
  rw [(follow_of_performs count reports going performs).frames, ticks]

/-- A session that has ended plays nothing. -/
theorem play_of_ended {limits : Limits} (ended : session.ending.isSome = true)
    (steps fuel : Nat) : session.play limits steps fuel = session := by
  cases fuel with
  | zero => rfl
  | succ fuel => exact if_pos ended

/-- A session plays the frames that are left to it, and then closes. -/
theorem play_ofFrames (steps : Nat) {left : Nat} (session : Session)
    (remaining : session.ending = none → session.frames + left = count) :
    session.play (.ofFrames count reports) steps (left + 1) =
      (session.follow (.ofFrames count reports) (Run.framesMoves steps left)).close := by
  induction left generalizing session with
  | zero =>
    by_cases ended : session.ending.isSome
    · rw [play_of_ended ended, follow_of_ended ended, close, if_pos ended]
    · have made := remaining (Option.not_isSome_iff_eq_none.mp ended)
      have full : Session.reached (Limits.ofFrames count reports).frames session.frames = true := by
        simp [Session.reached, Limits.ofFrames, ← made]
      rw [play, if_neg ended, if_pos full]
      exact (if_neg ended).symm
  | succ left inductionHypothesis =>
    by_cases ended : session.ending.isSome
    · rw [play_of_ended ended, follow_of_ended ended, close, if_pos ended]
    · have going := Option.not_isSome_iff_eq_none.mp ended
      have made := remaining going
      have room : ¬Session.reached (Limits.ofFrames count reports).frames session.frames = true := by
        simp only [Session.reached, Limits.ofFrames, decide_eq_true_eq]
        omega
      rw [play, if_neg ended, if_neg room, frame_eq_follow, Run.framesMoves_succ, follow_append]
      apply inductionHypothesis
      intro goesOn
      rw [frames_of_frame count reports steps going goesOn]
      omega

/-- On a machine that tells the length of its frames, a session follows their moves. -/
theorem run_ofFrames {machine : Machine} {steps : Nat}
    (told : machine.clock.stepsPerFrame = .ok steps) :
    run (.ofFrames count reports) machine =
      ((begin machine).follow (.ofFrames count reports) (Run.framesMoves steps count)).close := by
  have played := play_ofFrames count reports steps (begin machine) fun _ => Nat.zero_add count
  simp only [run, told]
  exact played

/-- Closing a session gives it an ending, and changes nothing else. -/
theorem close_eq (session : Session) :
    session.close = { session with ending := some (session.ending.getD .frameLimit) } := by
  obtain ⟨machine, accesses, texts, steps, frames, skipped, waiting, ending⟩ := session
  cases ending <;> rfl

/-- A session plays a number of frames of a machine: it leaves the machine that the frames
leave, and its fault is the one that stops them, if there is one. It counts the complete
frames, and the steps of these together with the complete steps of the frame in which the
fault occurred. -/
structure PlaysFrames (session : Session) (machine : Machine) (count : Nat) : Prop where
  leaves : session.machine = (machine.frames count).2.machine
  fault : session.fault?.map .fault = (machine.frames count).2.stop
  limit : session.fault? = none → session.ending = some .frameLimit
  frames : session.frames = (machine.frames count).1.length
  steps : ∃ steps made, machine.clock.stepsPerFrame = .ok steps ∧
    session.steps = session.frames * steps + made ∧
    (machine.frames session.frames).2.machine.Performs (List.replicate made .step)
      session.machine ∧
    match session.fault? with
    | none => made = 0
    | some fault => made < steps ∧ session.machine.step.result = .error fault

end Session

namespace Machine

variable {machine reached : Machine} {steps count : Nat}

/-- Frames whose moves are performed lead where these lead. -/
theorem frames_of_performs (running : machine.isRunning = true)
    (told : machine.clock.stepsPerFrame = .ok steps)
    (performs : machine.Performs (Run.framesMoves steps count) reached) :
    (machine.frames count).2.machine = reached := by
  rw [frames_run running told]
  exact (Run.follow_of_performs rfl performs).1

/-- Where the length of a frame cannot be told, frames leave the machine as it is. -/
theorem frames_of_untold {misuse : Number.Misuse} (running : machine.isRunning = true)
    (untold : machine.clock.stepsPerFrame = .error misuse) (count : Nat) :
    (machine.frames count).2.machine = machine := by
  cases count with
  | zero => rfl
  | succ count =>
    simp only [frames, repeated, runFrame, running, untold, if_true]
    rfl

/-- A session counts how far the frames come, and ends where they are stopped. -/
theorem session_reaches (told : machine.clock.stepsPerFrame = .ok steps) (reports : Bool)
    {complete made : Nat} {stopped : Option Run.Stop}
    (outcome : machine.Outcome (Run.framesMoves steps count)
      (Run.framesMoves steps complete ++ List.replicate made .step) stopped reached) :
    let session := Session.run (.ofFrames count reports) machine
    session.machine = reached ∧ session.frames = complete ∧
      session.steps = session.frames * steps + made ∧
      session.ending = some ((stopped.map .ofStop).getD .frameLimit) := by
  intro session
  have reaches := @Session.follow_of_outcome (.begin machine) _ _ _ _ count reports rfl outcome
  have run : session = _ := Session.run_ofFrames count reports told
  rw [Session.close_eq] at run
  generalize (Session.begin machine).follow _ _ = ended at run reaches
  obtain ⟨stepCount, tickCount⟩ := Run.count_framesMoves_append steps complete made
  have frames : session.frames = complete := by
    rw [run, reaches.frames, tickCount]
    exact Nat.zero_add complete
  refine ⟨?_, frames, ?_, ?_⟩
  · rw [run, reaches.machine]
  · rw [frames, run, reaches.steps, stepCount]
    exact Nat.zero_add _
  · rw [run, reaches.ending]

/-- Unless a number stops the frames, a session plays them. -/
theorem session_playsFrames (running : machine.isRunning = true)
    (told : machine.clock.stepsPerFrame = .ok steps) (reports : Bool)
    (timely : ∀ misuse, (machine.frames count).2.stop ≠ some (.number misuse)) :
    (Session.run (.ofFrames count reports) machine).PlaysFrames machine count := by
  obtain ⟨complete, made, counts, all, part, outcome⟩ := frames_outcome running told count
  obtain ⟨leaves, frames, counted, ending⟩ := session_reaches told reports outcome
  generalize Session.run (.ofFrames count reports) machine = session at *
  have closed : session.frames = (machine.frames count).1.length := by
    rw [frames, counts, List.length_replicate]
  cases stops : (machine.frames count).2.stop with
  | none =>
    obtain ⟨rfl, rfl⟩ := all stops
    rw [stops] at ending
    have unhurt : session.fault? = none := by
      simp only [Session.fault?, ending]
      rfl
    refine ⟨leaves, by rw [unhurt, stops]; rfl, fun _ => ending, closed, steps, 0, told,
      counted, ?_, ?_⟩
    · rw [frames, leaves]
      exact .nil _
    · rw [unhurt]
  | some stop =>
    cases stop with
    | number misuse => exact absurd stops (timely misuse)
    | fault fault =>
      rw [stops] at ending outcome
      have hurt : session.fault? = some fault := by
        simp only [Session.fault?, ending]
        rfl
      obtain ⟨performs, failed⟩ := outcome.at_fault
      obtain ⟨reached, first, second⟩ := performs_append_iff.mp performs
      refine ⟨leaves, by rw [hurt, stops]; rfl, ?_, closed, steps, made, told, counted, ?_, ?_⟩
      · intro unhurt
        cases hurt.symm.trans unhurt
      · rw [frames, leaves, frames_of_performs running told first]
        exact second
      · rw [hurt, leaves]
        exact ⟨part fault stops, failed⟩

/-- A session with a limit of frames alone leaves the machine that so many frames leave. It
plays them, to the limit or to a fault, exactly if the length of a frame can be told and
no move needs the time while it is lost. -/
theorem session_playsFrames_iff (running : machine.isRunning = true) (count : Nat)
    (reports : Bool) :
    let session := Session.run (.ofFrames count reports) machine
    session.machine = (machine.frames count).2.machine ∧
      (session.PlaysFrames machine count ↔
        ∃ steps, machine.clock.stepsPerFrame = .ok steps ∧
          ¬((∃ misuse, machine.clock.seconds = .error misuse) ∧
            machine.NeedsTime (Run.framesMoves steps count))) := by
  intro session
  cases told : machine.clock.stepsPerFrame with
  | error misuse =>
    have broken : session = (Session.begin machine).finish (.number misuse) := by
      simp only [session, Session.run, told]
    refine ⟨?_, ?_, ?_⟩
    · rw [frames_of_untold running told, broken]
      rfl
    · rintro ⟨_, _, _, _, steps, _, known, _⟩
      cases told.symm.trans known
    · rintro ⟨_, impossible, _⟩
      cases impossible
  | ok steps =>
    have lost (misuse : Number.Misuse) : (machine.frames count).2.stop = some (.number misuse) ↔
        machine.clock.seconds = .error misuse ∧ machine.NeedsTime (Run.framesMoves steps count) := by
      rw [frames_run running told, ← lostTime_eq_some]
      exact follow_stop_number_iff (.begin machine) rfl
    obtain ⟨_, _, _, _, _, outcome⟩ := frames_outcome running told count
    refine ⟨(session_reaches told reports outcome).1, ?_, ?_⟩
    · intro plays
      refine ⟨steps, rfl, ?_⟩
      rintro ⟨⟨misuse, lostTime⟩, needs⟩
      have stops := plays.fault.trans ((lost misuse).mpr ⟨lostTime, needs⟩)
      cases found : session.fault? <;> simp [found] at stops
    · rintro ⟨_, known, timely⟩
      obtain rfl := Except.ok.inj known
      refine session_playsFrames running told reports fun misuse stops => timely ?_
      obtain ⟨lostTime, needs⟩ := (lost misuse).mp stops
      exact ⟨⟨misuse, lostTime⟩, needs⟩

/-- On a machine that runs the loop, a session plays the frames of a second. -/
theorem session_playsFrames_of_loopProgram :
    let machine := (silent ⟨.whole 500, .whole 50, 0⟩ .chip8 0).serveOne (.load loopProgram none)
    (Session.run (.ofFrames 50 false) machine).PlaysFrames machine 50 := by
  intro machine
  obtain ⟨running, clocked⟩ :
      machine.isRunning = true ∧ machine.clock = ⟨.whole (10 * 50), .whole 50, 0⟩ :=
    serveOne_load_running (by decide +kernel) none
  have told : machine.clock.stepsPerFrame = .ok 10 := by
    rw [clocked]
    exact @FrameClock.stepsPerFrame_of_multiple 10 50 0 (by decide) (by decide +kernel) (by decide)
  refine (session_playsFrames_iff running 50 false).2.mpr ⟨10, told, ?_⟩
  rintro ⟨⟨misuse, lost⟩, _⟩
  have start : machine.lostTime? = none := lostTime_of_start (by rw [clocked])
  cases start.symm.trans (lostTime_eq_some.mpr lost)

/-- A machine with so many instructions a second that the length of a frame cannot be told. -/
def swiftMachine : Machine := (ofRate endless .chip8 0 .mute).serveOne (.load loopProgram none)

theorem swiftMachine_running :
    swiftMachine.isRunning = true ∧ swiftMachine.clock = ⟨.whole endless, standardTimerRate, 0⟩ :=
  serveOne_load_running (by decide +kernel) none

/-- No measure is near the quotient of its rates. -/
theorem swiftMachine_untold : swiftMachine.clock.stepsPerFrame = .error .largeQuotient := by
  have beyond : Measure.ofRat ((endless : Int) / (60 : Int)) = .infinite false := by
    decide +kernel
  have divided : (Number.whole endless).div standardTimerRate = .error .largeQuotient := by
    change Number.quotient endless 60 = _
    rw [Number.quotient, if_neg (by decide), beyond]
  rw [swiftMachine_running.2]
  simp only [FrameClock.stepsPerFrame, divided]
  rfl

/-- Asked for no frame at all, a session of the swift machine breaks off, while no frame
meets with anything. -/
theorem not_playsFrames_of_swift :
    let session := Session.run (.ofFrames 0 false) swiftMachine
    Reachable swiftMachine ∧ swiftMachine.isRunning = true ∧
      (swiftMachine.frames 0).2.stop = none ∧ session.ending = some (.number .largeQuotient) ∧
      ¬session.PlaysFrames swiftMachine 0 := by
  intro session
  have broken : session.ending = some (.number .largeQuotient) := by
    simp only [session, Session.run, swiftMachine_untold]
    rfl
  have positive : (0 : Int) < endless := by decide +kernel
  refine ⟨(Reachable.built (isBuilt_mute positive .chip8 0)).serve _, swiftMachine_running.1,
    rfl, broken, ?_⟩
  intro plays
  have unhurt : session.fault? = none := by
    simp only [Session.fault?, broken]
  cases (plays.limit unhurt).symm.trans broken

end Machine

end Chip8
