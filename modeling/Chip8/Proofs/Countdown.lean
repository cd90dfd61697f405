import Chip8.Proofs.Effects
import Chip8.Proofs.Slices

/-!
# Countdown

A timer shows what it last received, less the ticks since then. Neither instructions nor keys
nor faults come into it: what a timer goes through is a list of marks, values received and
ticks, and from the marks alone its value can be told.

Marks are kept where they arise. A complete instruction may give a timer the value of a
register, requests clear one timer or both, and ticks come from four sides: one at a time when
they are asked for, at the end of a frame, spread over a slice of time, and at the end of a
session's frame. A tick counts as soon as the timers have made it, also where after it the
beeper cannot be adjusted because the time is lost. A frame that breaks off before its end does
not tick.

One law says what a mark does to the timers, and one how a machine that makes a move agrees
with its mark. Runs and sessions follow by induction on their moves.
-/

namespace Chip8

/-- The two timers by name. -/
inductive Timers.Name where
  | delay
  | sound
deriving DecidableEq

/-- What a timer shows. -/
def Timers.get (timers : Timers) : Timers.Name → UInt8
  | .delay => timers.delay
  | .sound => timers.sound

/-- Give a value to a timer. -/
def Timers.give (timers : Timers) (value : UInt8) : Timers.Name → Timers
  | .delay => { timers with delay := value }
  | .sound => { timers with sound := value }

/-- Something that happens to the timers: one of them receives a value, or both tick. -/
inductive Mark where
  | receive (timer : Timers.Name) (value : UInt8)
  | tick
deriving DecidableEq

namespace Mark

/-- The value that a timer last received; at first it has none but zero. The latest mark
comes first. -/
def received (timer : Timers.Name) : List Mark → UInt8
  | [] => 0
  | .receive other value :: earlier => if other = timer then value else received timer earlier
  | .tick :: earlier => received timer earlier

/-- The ticks since then. -/
def ticksSince (timer : Timers.Name) : List Mark → Nat
  | [] => 0
  | .receive other _ :: earlier => if other = timer then 0 else ticksSince timer earlier
  | .tick :: earlier => ticksSince timer earlier + 1

/-- Both timers are cleared. -/
def cleared : List Mark := [.receive .delay 0, .receive .sound 0]

end Mark

namespace Timers

variable {timers : Timers} {log : List Mark}

/-- Each timer shows what it last received, less the ticks since then, but not below zero. -/
def Agree (timers : Timers) (log : List Mark) : Prop :=
  ∀ timer, (timers.get timer).toNat = (Mark.received timer log).toNat - Mark.ticksSince timer log

/-- Cleared timers agree, whatever went before. -/
theorem agree_cleared (log : List Mark) : zero.Agree (Mark.cleared ++ log) := by
  intro timer
  cases timer <;> rfl

/-- A tick is one tick more for both timers. -/
theorem Agree.tick (agrees : timers.Agree log) : timers.tick.Agree (.tick :: log) := by
  intro timer
  have fell : (timers.tick.get timer).toNat = (timers.get timer).toNat - 1 := by
    cases timer <;> exact Timer.tick_toNat _
  rw [fell, agrees timer, Nat.sub_sub]
  rfl

/-- A timer that receives a value shows it, and the other goes on. -/
theorem Agree.receive (agrees : timers.Agree log) (timer : Name) (value : UInt8) :
    (timers.give value timer).Agree (.receive timer value :: log) := by
  have delay := agrees .delay
  have sound := agrees .sound
  intro other
  cases timer with
  | delay =>
    cases other with
    | delay => rfl
    | sound => exact sound
  | sound =>
    cases other with
    | delay => exact delay
    | sound => rfl

end Timers

/-- What a complete instruction gives to a timer. -/
def Instruction.gives (registers : Registers) (instruction : Instruction) : List Mark :=
  match instruction.operation with
  | .setDelay => [.receive .delay (registers.get instruction.word.x)]
  | .setSound => [.receive .sound (registers.get instruction.word.x)]
  | _ => []

namespace Machine

variable {machine : Machine} {log : List Mark}

/-- What the next step gives to a timer. One that fails gives nothing. -/
def gives (machine : Machine) : List Mark :=
  match machine.step.result with
  | .ok (_, next) => (next.last.map (·.gives machine.registers)).getD []
  | .error _ => []

/-- A step gives no tick. -/
theorem gives_ticks (machine : Machine) : machine.gives.count .tick = 0 := by
  have ofInstruction (instruction : Instruction) :
      (instruction.gives machine.registers).count .tick = 0 := by
    unfold Instruction.gives
    split <;> rfl
  unfold gives
  split
  case h_1 progress next _ =>
    cases next.last with
    | none => rfl
    | some instruction => exact ofInstruction instruction
  case h_2 => rfl

/-- An attempted step, be it complete or not, leaves timers that agree with what it gave. -/
theorem agree_afterStep (agrees : machine.timers.Agree log) :
    machine.afterStep.timers.Agree (machine.gives ++ log) := by
  cases result : machine.step.result with
  | error fault =>
    simp only [afterStep, gives, result]
    exact agrees
  | ok ended =>
    obtain ⟨progress, next⟩ := ended
    obtain ⟨word, operation, found, after, beeper, _, carried, rfl, _, _⟩ := step_parts result
    have timers := (carryOut_footprint carried).timers
    simp only [afterStep, gives, result]
    cases operation
    case setDelay =>
      rw [timers]
      exact agrees.receive .delay _
    case setSound =>
      rw [timers]
      exact agrees.receive .sound _
    all_goals
      rw [timers]
      exact agrees

/-- So does a tick. -/
theorem agree_tick (agrees : machine.timers.Agree log) :
    machine.tick.timers.Agree (.tick :: log) := by
  rw [Machine.tick, adjustBeeper_eq]
  exact agrees.tick

end Machine

namespace Run

variable {run : Run} {log : List Mark}

/-- The mark that a move leaves. A run that has stopped leaves none. -/
def marked (run : Run) (move : Move) : List Mark :=
  if run.stop.isSome then []
  else
    match move with
    | .step => run.machine.gives
    | .tick => [.tick]

/-- The marks that moves leave, the latest first. -/
def marks (run : Run) : List Move → List Mark
  | [] => []
  | move :: rest => (run.move move).marks rest ++ run.marked move

/-- A move keeps timers and marks in agreement. -/
theorem agree_move (agrees : run.machine.timers.Agree log) (move : Move) :
    (run.move move).machine.timers.Agree (run.marked move ++ log) := by
  cases move with
  | step =>
    change run.step.machine.timers.Agree _
    rw [machine_step, marked]
    split
    · exact agrees
    · exact Machine.agree_afterStep agrees
  | tick =>
    change run.tick.machine.timers.Agree _
    rw [machine_tick, marked]
    split
    · exact agrees
    · exact Machine.agree_tick agrees

/-- So does a list of moves, as far as it is followed. -/
theorem agree_follow (agrees : run.machine.timers.Agree log) (moves : List Move) :
    (run.follow moves).machine.timers.Agree (run.marks moves ++ log) := by
  induction moves generalizing run log with
  | nil => exact agrees
  | cons move rest inductionHypothesis =>
    have moved := inductionHypothesis (agree_move agrees move)
    rw [Run.marks, List.append_assoc]
    exact moved

/-- Moves that are followed to their end leave as many ticks as there are among them. -/
theorem count_marks {moves : List Move} (goes : (run.follow moves).stop = none) :
    (run.marks moves).count .tick = moves.count .tick := by
  induction moves generalizing run with
  | nil => rfl
  | cons move rest inductionHypothesis =>
    have going : run.stop.isSome = false := by
      cases stops : run.stop.isSome with
      | false => rfl
      | true =>
        rw [follow_of_stopped stops] at goes
        rw [goes] at stops
        cases stops
    have here : (run.marked move).count .tick = [move].count .tick := by
      cases move with
      | step =>
        simp only [marked, going]
        exact run.machine.gives_ticks
      | tick =>
        simp only [marked, going]
        rfl
    have later : ((run.move move).marks rest).count .tick = rest.count .tick :=
      inductionHypothesis goes
    change _ = ([move] ++ rest).count .tick
    rw [Run.marks, List.count_append, List.count_append, here, later, Nat.add_comm]

end Run

namespace Session

variable {limits : Limits} {session : Session} {log : List Mark}

/-- The mark that a session's move leaves. One that ends at a limit or a breakpoint makes no
step. -/
def marked (limits : Limits) (session : Session) (move : Move) : List Mark :=
  if session.ending.isSome then []
  else
    match move with
    | .step =>
      if reached limits.steps session.steps ||
          (session.steps != 0 && limits.breaksAt session.machine.registers.pc.toNat) then []
      else session.machine.gives
    | .tick => [.tick]

/-- The marks of a session that follows moves, the latest first. -/
def marks (limits : Limits) (session : Session) : List Move → List Mark
  | [] => []
  | move :: rest => (session.move limits move).marks limits rest ++ session.marked limits move

/-- The marks of a number of frames. -/
def framesMarks (limits : Limits) (perFrame : Nat) (session : Session) : Nat → List Mark
  | 0 => []
  | rounds + 1 =>
    if session.ending.isSome || reached limits.frames session.frames then []
    else
      (session.frame limits perFrame).framesMarks limits perFrame rounds ++
        session.marks limits (Run.frameMoves perFrame)

/-- A step within a session leaves the timers as the step does; a word that is moved over is
not carried out. -/
theorem step_timers (session : Session) (skipsUnknown : Bool) :
    (session.step skipsUnknown).machine.timers = session.machine.afterStep.timers := by
  cases result : session.machine.step.result with
  | ok ended =>
    obtain ⟨progress, next⟩ := ended
    simp only [step, Machine.afterStep, result]
    cases progress <;> rfl
  | error fault =>
    simp only [step, Machine.afterStep, result]
    unfold fail
    split <;> rfl

/-- An attempt that ends at a limit or a breakpoint leaves no mark, and any other that of its
step. -/
theorem agree_attempt (going : session.ending.isSome = false)
    (agrees : session.machine.timers.Agree log) :
    (session.attempt limits).machine.timers.Agree (session.marked limits .step ++ log) := by
  unfold attempt
  simp only [marked, going, Bool.false_eq_true, if_false, Bool.or_eq_true]
  split
  case isTrue full =>
    rw [if_pos (.inl full)]
    exact agrees
  case isFalse room =>
    split
    case isTrue stands =>
      rw [if_pos (.inr stands)]
      exact agrees
    case isFalse clear =>
      rw [if_neg (not_or.mpr ⟨room, clear⟩), step_timers]
      split
      · rw [session.announce_rests.1.machine]
        exact Machine.agree_afterStep agrees
      · exact Machine.agree_afterStep agrees

/-- A move keeps timers and marks in agreement. -/
theorem agree_move (agrees : session.machine.timers.Agree log) (move : Move) :
    (session.move limits move).machine.timers.Agree (session.marked limits move ++ log) := by
  cases ended : session.ending.isSome with
  | true =>
    have still : session.move limits move = session := follow_of_ended ended [move]
    simp only [still, marked, ended, if_true]
    exact agrees
  | false =>
    cases move with
    | step =>
      simp only [move, ended, Bool.false_eq_true, if_false]
      exact agree_attempt ended agrees
    | tick =>
      have ticked := Machine.agree_tick agrees
      simp only [move, closeFrame, marked, ended, Bool.false_eq_true, if_false]
      split
      · exact ticked
      · split <;> exact ticked

/-- So does a list of moves, until the session ends. -/
theorem agree_follow (agrees : session.machine.timers.Agree log) (moves : List Move) :
    (session.follow limits moves).machine.timers.Agree (session.marks limits moves ++ log) := by
  induction moves generalizing session log with
  | nil => exact agrees
  | cons move rest inductionHypothesis =>
    have moved := inductionHypothesis (@agree_move limits _ _ agrees move)
    rw [marks, List.append_assoc]
    exact moved

/-- So do its frames, as far as it comes. -/
theorem agree_play (agrees : session.machine.timers.Agree log) (perFrame rounds : Nat) :
    (session.play limits perFrame rounds).machine.timers.Agree
      (session.framesMarks limits perFrame rounds ++ log) := by
  induction rounds generalizing session log with
  | zero => exact agrees
  | succ rounds inductionHypothesis =>
    rw [play, framesMarks]
    cases ended : session.ending.isSome with
    | true => exact agrees
    | false =>
      cases full : reached limits.frames session.frames with
      | true => exact agrees
      | false =>
        simp only [Bool.false_eq_true, if_false, Bool.or_false]
        rw [List.append_assoc]
        apply inductionHypothesis
        rw [frame_eq_follow]
        exact agree_follow agrees (Run.frameMoves perFrame)

/-- A session that has broken off has a misuse to show. -/
theorem misuse_of_number {misuse : Number.Misuse} (ends : session.ending = some (.number misuse)) :
    session.misuse? = some misuse := by
  rw [misuse?, ends]

/-- An attempt counts no frame, unless the session breaks off there. -/
theorem Attempted.frames {after : Session} (attempted : Attempted limits session after)
    (told : after.misuse? = none) : after.frames = session.frames := by
  cases attempted with
  | stepLimit => rfl
  | breakpoint => rfl
  | @made _ deed _ _ isStep makes _ =>
    rw [makes.frames]
    cases deed
    case tick => cases isStep
    all_goals rfl
  | failed _ _ rests => exact rests.frames
  | lost ends => cases (misuse_of_number ends).symm.trans told

/-- A move counts a frame where it leaves a tick. -/
theorem frames_move {move : Move} (told : (session.move limits move).misuse? = none) :
    (session.move limits move).frames =
      session.frames + (session.marked limits move).count .tick := by
  cases ending : session.ending with
  | some reason =>
    have ended : session.ending.isSome = true := by rw [ending]; rfl
    have still : session.move limits move = session := follow_of_ended ended [move]
    simp only [still, marked, ended, if_true]
    rfl
  | none =>
    cases move with
    | step =>
      have moved : session.move limits .step = session.attempt limits := by
        simp only [Session.move, ending, Option.isSome_none, Bool.false_eq_true, if_false]
      have none : (session.marked limits .step).count .tick = 0 := by
        simp only [marked, ending, Option.isSome_none, Bool.false_eq_true, if_false]
        split
        · rfl
        · exact session.machine.gives_ticks
      rw [moved] at told ⊢
      rw [none]
      exact (attempt_cases ending).frames told
    | tick =>
      have one : (session.marked limits .tick).count .tick = 1 := by
        simp only [marked, ending, Option.isSome_none, Bool.false_eq_true, if_false]
        rfl
      rcases closeFrame_cases limits ending with ⟨misuse, ends⟩ | ⟨makes, _⟩
      · cases (misuse_of_number ends).symm.trans told
      · rw [one]
        exact makes.frames

/-- A session that has broken off does not come to a list of moves that it would make. -/
theorem told_of_follow {moves : List Move}
    (told : (session.follow limits moves).misuse? = none) :
    session.misuse? = none := by
  cases ending : session.ending with
  | some reason =>
    rw [follow_of_ended (by rw [ending]; rfl)] at told
    exact told
  | none => rw [misuse?, ending]

/-- Nor to frames. -/
theorem told_of_play {perFrame rounds : Nat}
    (told : (session.play limits perFrame rounds).misuse? = none) : session.misuse? = none := by
  cases ending : session.ending with
  | some reason =>
    rw [play_of_ended (by rw [ending]; rfl)] at told
    exact told
  | none => rw [misuse?, ending]

/-- A session counts a frame for each tick among its marks. -/
theorem frames_follow {moves : List Move} (told : (session.follow limits moves).misuse? = none) :
    (session.follow limits moves).frames =
      session.frames + (session.marks limits moves).count .tick := by
  induction moves generalizing session with
  | nil => rfl
  | cons move rest inductionHypothesis =>
    change ((session.move limits move).follow limits rest).misuse? = none at told
    change ((session.move limits move).follow limits rest).frames = _
    rw [inductionHypothesis told, frames_move (told_of_follow told), marks, List.count_append,
      Nat.add_assoc, Nat.add_comm ((session.marked limits move).count .tick)]

/-- So it does frame by frame. -/
theorem frames_play {perFrame rounds : Nat}
    (told : (session.play limits perFrame rounds).misuse? = none) :
    (session.play limits perFrame rounds).frames =
      session.frames + (session.framesMarks limits perFrame rounds).count .tick := by
  induction rounds generalizing session with
  | zero => rfl
  | succ rounds inductionHypothesis =>
    rw [play] at told ⊢
    rw [framesMarks]
    cases ended : session.ending.isSome with
    | true => rfl
    | false =>
      cases full : reached limits.frames session.frames with
      | true => rfl
      | false =>
        simp only [ended, full, Bool.false_eq_true, if_false, Bool.or_false] at told ⊢
        have framed : (session.frame limits perFrame).misuse? = none := told_of_play told
        rw [inductionHypothesis told]
        rw [frame_eq_follow] at framed ⊢
        rw [frames_follow framed, List.count_append, Nat.add_assoc,
          Nat.add_comm ((session.marks limits (Run.frameMoves perFrame)).count .tick)]

end Session

namespace Machine

variable {machine : Machine} {log : List Mark}

/-- The marks that a request leaves. A program that is started and a reset clear both timers;
a request that is refused before that leaves them alone. -/
def marks (machine : Machine) : Request → List Mark
  | .load image dialect =>
    match machine.load image dialect with
    | .ok _ => Mark.cleared
    | .error _ => []
  | .loadFile disk path dialect =>
    match machine.loadFile disk path dialect with
    | .ok _ => Mark.cleared
    | .error _ => []
  | .reset | .powerOn => Mark.cleared
  | .clearDelay => [.receive .delay 0]
  | .clearSound => [.receive .sound 0]
  | request => (Run.begin (machine.outset request)).marks (machine.agenda request)

/-- A step that is asked for leaves what it gives, and a tick a tick. -/
theorem marks_step (machine : Machine) : machine.marks .step = machine.gives := rfl

theorem marks_tick (machine : Machine) : machine.marks .tick = [.tick] := rfl

/-- A program that is started finds its timers cleared. -/
theorem start_timers (machine : Machine) (memory : Memory) (dialect : Option Dialect) :
    (machine.start memory dialect).timers = .zero := by
  obtain ⟨beeper, started⟩ := start_eq machine memory dialect
  rw [started]
  rfl

/-- So does one that was granted to load. -/
theorem timers_of_load {next : Machine} {image : List UInt8} {dialect : Option Dialect}
    (loaded : machine.load image dialect = .ok next) : next.timers = .zero := by
  unfold load at loaded
  cases installed : Rom.install machine.memory image with
  | error refusal =>
    rw [installed] at loaded
    cases loaded
  | ok memory =>
    rw [installed] at loaded
    cases loaded
    exact start_timers machine memory dialect

theorem timers_of_loadFile {next : Machine} {disk : Disk} {path : Disk.Path} {rom : Rom}
    {dialect : Option Dialect} (loaded : machine.loadFile disk path dialect = .ok (rom, next)) :
    next.timers = .zero := by
  unfold loadFile at loaded
  cases read : Rom.read disk path machine.memory.capacity with
  | error refusal =>
    rw [read] at loaded
    cases loaded
  | ok found =>
    rw [read] at loaded
    cases loaded
    exact start_timers machine (machine.memory.install rom.image) dialect

/-- What adjusts nothing but the beeper leaves the timers alone. -/
theorem adjustBeeper_timers (machine : Machine) : machine.adjustBeeper.timers = machine.timers := by
  rw [adjustBeeper_eq]

/-- A request that makes moves leaves timers that agree with their marks. -/
theorem agree_agenda (agrees : machine.timers.Agree log) (request : Request)
    {moves : List Move} :
    ((Run.begin (machine.outset request)).follow moves).machine.timers.Agree
      ((Run.begin (machine.outset request)).marks moves ++ log) := by
  have same : (machine.outset request).timers = machine.timers := by rw [outset_eq]
  apply Run.agree_follow
  change (machine.outset request).timers.Agree log
  rw [same]
  exact agrees

/-- A request leaves timers that agree with its marks. -/
theorem agree_serveOne (agrees : machine.timers.Agree log) (request : Request) :
    (machine.serveOne request).timers.Agree (machine.marks request ++ log) := by
  cases request
  case step =>
    rw [serveOne_step, marks_step]
    exact agree_afterStep agrees
  case tick =>
    rw [serveOne_tick, marks_tick]
    exact agree_tick agrees
  case runFrame =>
    rw [runFrame_eq_follow]
    exact agree_agenda agrees .runFrame
  case emulate duration =>
    rw [emulate_eq_follow]
    exact agree_agenda agrees (.emulate duration)
  case load image dialect =>
    simp only [serveOne, serve, marks]
    cases loaded : machine.load image dialect with
    | error refusal => exact agrees
    | ok next =>
      dsimp only
      rw [Reply.adjusted_machine, timers_of_load loaded]
      exact Timers.agree_cleared log
  case loadFile disk path dialect =>
    simp only [serveOne, serve, marks]
    cases loaded : machine.loadFile disk path dialect with
    | error refusal => exact agrees
    | ok found =>
      obtain ⟨rom, next⟩ := found
      dsimp only
      rw [timers_of_loadFile loaded]
      exact Timers.agree_cleared log
  case reset =>
    rw [serveOne_reset, reset_eq, adjustBeeper_timers]
    exact Timers.agree_cleared log
  case powerOn =>
    rw [serveOne_powerOn]
    change machine.restarted.adjustBeeper.timers.Agree _
    rw [adjustBeeper_timers]
    exact Timers.agree_cleared log
  case clearDelay => exact agrees.receive .delay 0
  case clearSound =>
    rw [serveOne_clearSound, clearSound, adjustBeeper_timers]
    exact agrees.receive .sound 0
  case powerOff | skip => exact agrees
  case pause =>
    rw [serveOne_pause, pause, setStatus, adjustBeeper_timers]
    exact agrees
  case resume =>
    rw [serveOne_resume, resume, setStatus, adjustBeeper_timers]
    exact agrees
  case setStatus code =>
    rw [serveOne_setStatus]
    split
    · rw [setStatus, adjustBeeper_timers]
      exact agrees
    · exact agrees
  case setRate rate =>
    rw [serveOne_setRate]
    split <;> exact agrees
  case setKey key pressed =>
    rw [serveOne_setKey]
    split <;> exact agrees

/-- The machines that are met in the course of any use, from the construction on, each with
the marks of its timers, the latest first. -/
inductive Logs : Machine → List Mark → Prop where
  | built {machine : Machine} (built : machine.IsBuilt) : Logs machine []
  /-- A request has been served, be it granted or refused. -/
  | served {machine : Machine} {log : List Mark} (logs : Logs machine log) (request : Request) :
      Logs (machine.serveOne request) (machine.marks request ++ log)
  /-- A request is under way, and some of its moves are made. -/
  | underWay {machine : Machine} {log : List Mark} (logs : Logs machine log) (request : Request)
      {before : List Move} (leading : before <+: machine.agenda request) :
      Logs ((Run.begin (machine.outset request)).follow before).machine
        ((Run.begin (machine.outset request)).marks before ++ log)
  /-- A session is under way, with some of its frames complete and some attempts in the next. -/
  | session {machine : Machine} {log : List Mark} (logs : Logs machine log)
      (limits : Session.Limits) {perFrame : Nat}
      (told : machine.clock.stepsPerFrame = .ok perFrame) (rounds : Nat) {count : Nat}
      (part : count ≤ perFrame) :
      Logs (((Session.begin machine).play limits perFrame rounds).attempts limits count).machine
        (((Session.begin machine).play limits perFrame rounds).marks limits
            (List.replicate count .step) ++
          ((Session.begin machine).framesMarks limits perFrame rounds ++ log))

/-- At every moment timers and marks agree. -/
theorem Logs.agree (logs : machine.Logs log) : machine.timers.Agree log := by
  induction logs with
  | built built =>
    rw [congrArg Machine.timers built.parts]
    intro timer
    cases timer <;> rfl
  | served _ request inductionHypothesis => exact agree_serveOne inductionHypothesis request
  | underWay _ request _ inductionHypothesis => exact agree_agenda inductionHypothesis request
  | session _ limits _ rounds _ inductionHypothesis =>
    rw [Session.attempts_eq_follow]
    apply Session.agree_follow
    apply Session.agree_play
    exact inductionHypothesis

/-- A run that hands back a result has not been stopped. -/
theorem stop_of_ofRun {run : Run} {count : Int} {result : Reply.Result}
    (complete : (Reply.ofRun run count).result = .ok result) : run.stop = none := by
  cases stops : run.stop with
  | none => rfl
  | some stop =>
    simp only [Reply.ofRun, stops] at complete
    cases complete

/-- A frame that is complete ticks once; a machine that does not run makes none. -/
theorem ticks_of_runFrame {result : Reply.Result}
    (complete : (machine.serve .runFrame).result = .ok result) :
    (machine.marks .runFrame).count .tick = if machine.isRunning then 1 else 0 := by
  cases running : machine.isRunning with
  | false =>
    simp only [marks, agenda, running, Bool.false_eq_true, if_false]
    rfl
  | true =>
    cases told : machine.clock.stepsPerFrame with
    | error misuse =>
      simp only [serve, runFrame, running, told, if_true] at complete
      cases complete
    | ok steps =>
      simp only [serve, runFrame, running, told, if_true, Run.frame_eq_follow] at complete
      have goes := stop_of_ofRun complete
      simp only [marks, agenda, running, told, if_true]
      change ((Run.begin machine).marks (Run.frameMoves steps)).count .tick = 1
      rw [Run.count_marks goes, Run.frameMoves, List.count_append, List.count_replicate]
      rfl

/-- A slice that is complete has the ticks that the clock finds in it. -/
theorem ticks_of_emulate {duration : Number} {steps ticks : Int} {clock : FrameClock}
    {result : Reply.Result} (running : machine.isRunning = true)
    (advanced : machine.clock.advance duration = .ok ((steps, ticks), clock))
    (complete : (machine.serve (.emulate duration)).result = .ok result) :
    (machine.marks (.emulate duration)).count .tick = ticks.toNat := by
  simp only [serve, emulate_of_advanced running advanced] at complete
  have goes := stop_of_ofRun complete
  simp only [marks, agenda, outset, running, advanced, if_true]
  rw [Run.count_marks goes, Run.sliceMoves]
  split
  case isTrue none =>
    rw [none, List.count_replicate]
    rfl
  case isFalse => exact (Run.count_shareMoves _ _ (Nat.le_refl _)).2

/-- A session that does not break off has as many ticks as it reports frames. -/
theorem ticks_of_session {limits : Session.Limits} {perFrame : Nat}
    (told : machine.clock.stepsPerFrame = .ok perFrame)
    (complete : (Session.run limits machine).misuse? = none) :
    ((Session.begin machine).framesMarks limits perFrame limits.fuel).count .tick =
      (Session.run limits machine).frames := by
  have played : Session.run limits machine =
      (Session.begin machine).play limits perFrame limits.fuel := by
    simp only [Session.run, told]
  rw [played] at complete ⊢
  rw [Session.frames_play complete]
  exact (Nat.zero_add _).symm

/-- What the timers of a machine show at a moment, and where its ticks come from. -/
structure CountsDown (machine : Machine) (log : List Mark) : Prop where
  /-- Each timer shows what it last received, less the ticks since then, but not below zero. -/
  shows : ∀ timer, (machine.timers.get timer).toNat =
    (Mark.received timer log).toNat - Mark.ticksSince timer log
  /-- A program reads what the delay timer shows. -/
  reads : ∀ word, machine.Finds word .readDelay →
    ∃ next, machine.step.result = .ok (.executed, next) ∧
      next.registers.get word.x = machine.timers.get .delay
  tick : machine.marks .tick = [.tick]
  /-- A frame ticks once when it is complete. -/
  frame : ∀ result, (machine.serve .runFrame).result = .ok result →
    (machine.marks .runFrame).count .tick = if machine.isRunning then 1 else 0
  /-- A slice of time ticks as often as the clock finds ticks in it. -/
  slice : ∀ duration steps ticks clock result, machine.isRunning = true →
    machine.clock.advance duration = .ok ((steps, ticks), clock) →
      (machine.serve (.emulate duration)).result = .ok result →
        (machine.marks (.emulate duration)).count .tick = ticks.toNat
  /-- A session ticks once for each frame that it reports. -/
  session : ∀ limits perFrame, machine.clock.stepsPerFrame = .ok perFrame →
    (Session.run limits machine).misuse? = none →
      ((Session.begin machine).framesMarks limits perFrame limits.fuel).count .tick =
        (Session.run limits machine).frames

/-- At every moment, in the course of any use, the timers count down from what they received,
by ticks and by nothing else. -/
theorem Logs.countsDown (logs : machine.Logs log) : machine.CountsDown log := by
  constructor
  case shows => exact logs.agree
  case reads =>
    intro word finds
    exact ⟨_, finds.step rfl, Registers.get_set machine.registers _ _⟩
  case tick => exact machine.marks_tick
  case frame => exact fun _ complete => ticks_of_runFrame complete
  case slice => exact fun _ _ _ _ _ running advanced complete =>
    ticks_of_emulate running advanced complete
  case session => exact fun _ _ told complete => ticks_of_session told complete

/-- A program that sets the delay timer. -/
def delayProgram : List UInt8 := [0x60, 0x09, 0xF0, 0x15]

/-- Its second step gives the timer the byte that the first has loaded. -/
theorem Stands.gives_of_delayProgram (stands : machine.Stands delayProgram 0) :
    (machine.serveOne .step).gives = [.receive .delay 9] := by
  have first : machine.Finds 0x6009 .loadByte := stands.finds rfl (by decide) rfl
  obtain ⟨armed, loaded, further, value⟩ := stands.loadByte first (by decide)
  have second : armed.Finds 0xF015 .setDelay := further.finds rfl (by decide) rfl
  have nine : armed.registers.get (Word.x 0xF015) = 9 := value
  rw [serveOne_step, afterStep_of_ok loaded, gives, second.step rfl, ← nine]
  rfl

/-- Two ticks later it has fallen by two. -/
theorem countsDown_of_delayProgram :
    let machine := (ofRate 700 .chip8 0 .mute).serveAll
      [.load delayProgram none, .step, .step, .tick, .tick]
    ∃ log, machine.Logs log ∧ Mark.received .delay log = 9 ∧ Mark.ticksSince .delay log = 2 ∧
      machine.CountsDown log := by
  have built : (ofRate 700 .chip8 0 .mute).IsBuilt := isBuilt_mute (by decide) .chip8 0
  have loaded := (Logs.built built).served (.load delayProgram none)
  obtain ⟨stands, _⟩ := @stands_of_load delayProgram (by decide +kernel)
  have given := stands.gives_of_delayProgram
  rw [serveAll_cons, serveAll_cons, serveAll_cons, serveAll_cons, serveAll_cons, serveAll_nil]
  generalize (ofRate 700 .chip8 0 .mute).serveOne (.load delayProgram none) = machine
    at loaded given ⊢
  have logs := (((loaded.served .step).served .step).served .tick).served .tick
  rw [marks_tick, marks_tick, marks_step (machine.serveOne .step), given] at logs
  exact ⟨_, logs, rfl, rfl, logs.countsDown⟩

end Machine

end Chip8
