import Chip8.Proofs.Loading
import Chip8.Proofs.Planning

/-!
# The runner in place

To carry out a command line is to change a desk: the machine, what has been printed, the
messages, the disk. Here this is spelled out part by part, with everything that can be thrown
on the way and every place where something thrown is caught. What is thrown past the last of
these places ends the program with nothing but what is on the desk by then.

The session has a record of its own that is written at many exits: its counts, whether a
breakpoint was met, whether the last step waits, the fault, whether time was up. Attempt by
attempt and frame by frame the record is the one that the session keeps, so that all that is
known of sessions holds of it.
-/

namespace Chip8.Runner

/-- What may be thrown while a command line is carried out. -/
inductive Thrown where
  | stop (stop : Stop)
  | refused (refusal : Reply.Refusal)
  /-- The session goes on after all the frames that are looked at. -/
  | unfinished

/-- What a runner works on. Messages are lines, the earliest first. -/
structure Desk where
  machine : Machine
  output : Output
  messages : List String
  disk : Disk

/-- A part of a runner, which changes the desk as it goes. -/
abbrev Conduct := EStateM Thrown Desk

/-- The record of a session. -/
structure Record where
  steps : Nat
  frames : Nat
  breakHit : Bool
  waiting : Bool
  fault : Option Fault
  skipped : Nat
  timedOut : Bool

namespace Conduct

def say (line : String) : Conduct Unit :=
  modify fun desk => { desk with messages := desk.messages ++ [line] }

def become (machine : Machine) : Conduct Unit := modify fun desk => { desk with machine }

/-- Take a value, or throw why there is none. -/
def demand {α : Type} : Except Stop α → Conduct α
  | .ok value => pure value
  | .error stop => throw (.stop stop)

/-- Take a result, or throw its fault. -/
def taking {α : Type} : Except Fault α → Conduct α
  | .ok value => pure value
  | .error fault => throw (.refused (.stopped (.fault fault)))

/-- Load a program file, write by write. -/
def loadFile (path : Disk.Path) : Conduct Unit := do
  let desk ← get
  match (Loader.loadFile desk.disk path none).run desk.machine with
  | .ok _ machine => become machine
  | .error refusal machine => do
    become machine
    throw (.refused refusal)

/-- Load a program file, and tell whether that was possible. A path with a null character is
not reported as a file that could not be loaded. -/
def tryLoad (path : Disk.Path) : Conduct Bool :=
  tryCatch
    (do
      loadFile path
      pure true)
    fun
    | .refused (.noProgram .noPath) => throw (.refused (.noProgram .noPath))
    | .refused (.noProgram refusal) => do
      say ("Failed to load ROM: " ++ refusal.message)
      pure false
    | other => throw other

/-- Hold keys down, one after the other. -/
def holdKeys : List Int → Conduct Unit
  | [] => pure ()
  | key :: rest => do
    match (← get).machine.setKey key true with
    | .ok machine => become machine
    | .error misuse => throw (.refused (.key misuse))
    holdKeys rest

/-- Say which instruction comes next. -/
def trace : Conduct Unit := do
  let machine := (← get).machine
  let word ← taking (Session.shownWord machine).result
  say (Session.report machine.registers.pc.toNat word)

/-- Make a step. -/
def step : Conduct Progress := do
  match (← get).machine.step.result with
  | .ok (.untimed misuse, machine) => do
    become machine
    throw (.refused (.stopped (.number misuse)))
  | .ok (progress, machine) => do
    become machine
    pure progress
  | .error fault => throw (.refused (.stopped (.fault fault)))

/-- Make a tick. -/
def tick : Conduct Unit := do
  let machine := (← get).machine
  become machine.tick
  match machine.lostTime? with
  | some misuse => throw (.refused (.stopped (.number misuse)))
  | none => pure ()

/-- What is done about a fault: a word without meaning may be skipped, else the session ends. -/
def recover (record : Record) (skipsUnknown : Bool) (fault : Fault) :
    Conduct (Except Record Record) :=
  match fault, skipsUnknown with
  | .unknownOpcode .., true => do
    say ("skipping " ++ fault.message)
    become (← get).machine.skip
    pure (.ok
      { record with
        steps := record.steps + 1
        skipped := record.skipped + 1
        waiting := false })
  | _, _ => pure (.error { record with fault := some fault })

/-- Try a step. Only faults are caught. -/
def tryStep (record : Record) (skipsUnknown : Bool) : Conduct (Except Record Record) :=
  tryCatch
    (do
      let progress ← step
      pure (.ok { record with steps := record.steps + 1, waiting := progress == .waiting }))
    fun
    | .refused (.stopped (.fault fault)) => recover record skipsUnknown fault
    | other => throw other

/-- An attempt goes on with the record, or ends the session with it. -/
def attempt (limits : Session.Limits) (record : Record) : Conduct (Except Record Record) := do
  let pc := (← get).machine.registers.pc.toNat
  if Session.reached limits.steps record.steps then pure (.error record)
  else if record.steps != 0 && limits.breaksAt pc then
    pure (.error { record with breakHit := true })
  else do
    if limits.reports then trace
    tryStep record limits.skipsUnknown

/-- The attempts of a frame. -/
def attempts (limits : Session.Limits) : Nat → Record → Conduct (Except Record Record)
  | 0, record => pure (.ok record)
  | count + 1, record => do
    match ← attempt limits record with
    | .ok next => attempts limits count next
    | .error ended => pure (.error ended)

/-- The tick after the attempts of a frame. Then time may be up. -/
def closeFrame (limits : Session.Limits) (record : Record) : Conduct (Except Record Record) := do
  tick
  let closed := { record with frames := record.frames + 1 }
  if limits.timeUp closed.frames then pure (.error { closed with timedOut := true })
  else pure (.ok closed)

/-- One frame. -/
def frame (limits : Session.Limits) (perFrame : Nat) (record : Record) :
    Conduct (Except Record Record) := do
  match ← attempts limits perFrame record with
  | .ok next => closeFrame limits next
  | .error ended => pure (.error ended)

/-- The frames of a session, of which at most so many are looked at. -/
def play (limits : Session.Limits) (perFrame : Nat) : Nat → Record → Conduct Record
  | 0, _ => throw .unfinished
  | rounds + 1, record =>
    if Session.reached limits.frames record.frames then pure record
    else do
      match ← frame limits perFrame record with
      | .ok next => play limits perFrame rounds next
      | .error ended => pure ended

/-- The limits of a session on a machine. -/
def limitsFor (options : Options) (plan : Plan) (machine : Machine) (reading : Nat → Number) :
    Except Stop Session.Limits := do
  let frames ← need .valueExpected options.frames
  (⟨options, plan, frames, machine⟩ : Job).limits reading

/-- Run a session on the machine. -/
def execute (rounds : Nat) (options : Options) (plan : Plan) (reading : Nat → Number) :
    Conduct Record := do
  let machine := (← get).machine
  let limits ← demand (limitsFor options plan machine reading)
  let perFrame ← demand (machine.clock.stepsPerFrame.mapError .ofNumber)
  play limits perFrame rounds ⟨0, 0, false, false, none, 0, false⟩

/-- Print the screen and the registers, if this is asked for. -/
def printState (options : Options) : Conduct Unit := modify fun desk =>
  if options.showDisplay then
    let machine := desk.machine
    { desk with
      output :=
        (machine.screen.plainText :: (Snapshot.ofMachine machine).lines).foldl Output.print
          desk.output }
  else desk

/-- Read the memory for a dump. -/
def readDump (ranges : List AddressRange) : DumpFormat → Conduct (Option Output.Piece)
  | .table => do
    let shown ← taking (HexDump.text (← get).machine.memory ranges)
    pure (some (.text shown))
  | .bytes => do
    let bytes ← taking (HexDump.bytes (← get).machine.memory ranges)
    pure (some (.bytes bytes))
  | .none => pure none

/-- Dump memory, to a file if one is named. Nothing that is thrown here is caught. -/
def writeDump (options : Options) (ranges : List AddressRange) : Conduct Unit := do
  match ← readDump (AddressRange.merge ranges) options.dumpForm with
  | none => pure ()
  | some piece => do
    let desk ← get
    let (output, disk) ←
      demand ((place desk.disk desk.output options.dump piece).mapError .broken)
    set { desk with output, disk }

/-- The exit code for a record, and the message that explains it. -/
def judge (record : Record) : Conduct Nat :=
  match record.fault with
  | some fault => do
    say ("Execution halted: " ++ fault.message)
    pure 2
  | none =>
    if record.breakHit then pure 0
    else if record.waiting then do
      say "Execution stopped: waiting for a key"
      pure 3
    else do
      if record.timedOut then say "Execution stopped: time limit reached"
      pure 0

/-- Print and dump what is asked for after a session, and judge the run. -/
def finish (options : Options) (plan : Plan) (record : Record) : Conduct Nat := do
  printState options
  writeDump options plan.dumpRanges
  judge record

/-- Carry out a plan, and give back the exit code. -/
def undertake (rounds : Nat) (options : Options) (plan : Plan) (reading : Nat → Number) :
    Conduct Nat := do
  if ← tryLoad plan.rom then do
    holdKeys plan.heldKeys
    let record ← execute rounds options plan reading
    finish options plan record
  else pure 1

open InPlace (run_bind_of_ok run_bind_of_error run_get_bind)

variable {α : Type} {desk after : Desk} {session : Session} {limits : Session.Limits}

/-- What goes through is not caught. -/
theorem run_tryCatch_of_ok {act : Conduct α} {handler : Thrown → Conduct α} {value : α}
    (went : act.run desk = .ok value after) : (tryCatch act handler).run desk = .ok value after := by
  change EStateM.tryCatch act handler desk = _
  delta EStateM.tryCatch
  rw [show act desk = _ from went]

/-- What is thrown is handled on the desk as it is then. -/
theorem run_tryCatch_of_error {act : Conduct α} {handler : Thrown → Conduct α} {thrown : Thrown}
    (broke : act.run desk = .error thrown after) :
    (tryCatch act handler).run desk = (handler thrown).run after := by
  change EStateM.tryCatch act handler desk = _
  delta EStateM.tryCatch
  rw [show act desk = _ from broke]
  rfl

/-- The record that a session keeps. -/
def recordOf (session : Session) : Record where
  steps := session.steps
  frames := session.frames
  breakHit := session.ending == some .breakpoint
  waiting := session.waiting
  fault := session.fault?
  skipped := session.skipped
  timedOut := session.ending == some .timeUp

/-- A desk on which a session has come so far. -/
def deskOf (desk : Desk) (session : Session) : Desk :=
  { desk with machine := session.machine, messages := session.reports.toList }

/-- What a part of a session comes to: the session goes on with its record, breaks off, or ends
with its record. -/
def outcome (desk : Desk) (session : Session) :
    EStateM.Result Thrown Desk (Except Record Record) :=
  match session.ending with
  | none => .ok (.ok (recordOf session)) (deskOf desk session)
  | some (.number misuse) => .error (.refused (.stopped (.number misuse))) (deskOf desk session)
  | some _ => .ok (.error (recordOf session)) (deskOf desk session)

/-- What a step comes to. A fault leaves the desk alone. -/
theorem run_step (desk : Desk) :
    step.run desk =
      match desk.machine.step.result with
      | .ok (.untimed misuse, machine) =>
        .error (.refused (.stopped (.number misuse))) { desk with machine }
      | .ok (progress, machine) => .ok progress { desk with machine }
      | .error fault => .error (.refused (.stopped (.fault fault))) desk := by
  rw [step, run_get_bind]
  cases desk.machine.step.result with
  | error fault => rfl
  | ok ended =>
    obtain ⟨progress, next⟩ := ended
    cases progress <;> rfl

/-- A fault is dealt with as the session deals with it. -/
theorem run_recover (going : session.ending = none) (skipsUnknown : Bool) (fault : Fault) :
    (recover (recordOf session) skipsUnknown fault).run (deskOf desk session) =
      outcome desk (session.fail skipsUnknown fault) := by
  obtain ⟨machine, accesses, reports, steps, frames, skipped, waiting, ending⟩ := session
  cases going
  cases fault <;> cases skipsUnknown
  case unknownOpcode.true word address =>
    simp only [Session.fail, outcome, deskOf, Array.toList_push]
    rfl
  all_goals rfl

/-- A step that is tried makes the step of the session. -/
theorem run_tryStep (going : session.ending = none) (skipsUnknown : Bool) :
    (tryStep (recordOf session) skipsUnknown).run (deskOf desk session) =
      outcome desk (session.step skipsUnknown) := by
  have stepped := run_step (deskOf desk session)
  obtain ⟨machine, accesses, reports, steps, frames, skipped, waiting, ending⟩ := session
  cases going
  simp only [deskOf] at stepped
  cases result : machine.step.result with
  | error fault =>
    rw [result] at stepped
    simp only [Session.step, result]
    rw [← run_recover rfl]
    exact run_tryCatch_of_error (run_bind_of_error stepped)
  | ok ended =>
    obtain ⟨progress, next⟩ := ended
    rw [result] at stepped
    simp only [Session.step, result]
    cases progress with
    | untimed misuse => exact run_tryCatch_of_error (run_bind_of_error stepped)
    | executed => exact run_tryCatch_of_ok (run_bind_of_ok stepped)
    | waiting => exact run_tryCatch_of_ok (run_bind_of_ok stepped)

/-- The word that a report shows can always be read. -/
theorem shownWord_succeeds (machine : Machine) :
    ∃ word, (Session.shownWord machine).result = .ok word := by
  unfold Session.shownWord
  dsimp only
  split
  case isTrue bound =>
    have high : machine.memory.readable machine.registers.pc.toNat = true := by
      simp only [Memory.readable, Bool.and_eq_true, decide_eq_true_eq]
      omega
    have low : machine.memory.readable (machine.registers.pc.toNat + 1) = true := by
      simp only [Memory.readable, Bool.and_eq_true, decide_eq_true_eq]
      omega
    simp only [Memory.readWord, Memory.readByte, high, low, if_true]
    exact ⟨_, rfl⟩
  case isFalse => exact ⟨0, rfl⟩

/-- To trace is to announce, and never fails. -/
theorem run_trace (desk : Desk) (session : Session) :
    trace.run (deskOf desk session) = .ok () (deskOf desk session.announce) := by
  obtain ⟨word, shown⟩ := shownWord_succeeds session.machine
  have taken : (taking (Session.shownWord session.machine).result).run (deskOf desk session) =
      .ok word (deskOf desk session) := by
    rw [shown]
    rfl
  simp only [Session.announce, shown, deskOf, Array.toList_push]
  exact run_bind_of_ok taken

/-- An attempt is an attempt of the session. -/
theorem run_attempt (going : session.ending = none) (limits : Session.Limits) :
    (attempt limits (recordOf session)).run (deskOf desk session) =
      outcome desk (session.attempt limits) := by
  obtain ⟨announced, same⟩ := session.announce_rests
  have trying := @run_tryStep desk
  have tracing := run_trace desk session
  have record : recordOf session.announce = recordOf session := by
    unfold Session.announce
    dsimp only
    split <;> rfl
  have steps : (recordOf session).steps = session.steps := rfl
  have pc : (deskOf desk session).machine.registers.pc.toNat =
    session.machine.registers.pc.toNat := rfl
  simp only [attempt, run_get_bind, Session.attempt, steps, pc]
  cases Session.reached limits.steps session.steps with
  | true =>
    obtain ⟨machine, accesses, reports, steps, frames, skipped, waiting, ending⟩ := session
    cases going
    rfl
  | false =>
    cases session.steps != 0 && limits.breaksAt session.machine.registers.pc.toNat with
    | true =>
      obtain ⟨machine, accesses, reports, steps, frames, skipped, waiting, ending⟩ := session
      cases going
      rfl
    | false =>
      cases limits.reports with
      | false => exact trying going limits.skipsUnknown
      | true =>
        have tried := trying (same.trans going) limits.skipsUnknown
        rw [record] at tried
        exact (run_bind_of_ok tracing).trans tried

/-- A session goes on, has broken off, or returns. -/
theorem outcome_cases (desk : Desk) (session : Session) :
    (session.ending = none ∧
        outcome desk session = .ok (.ok (recordOf session)) (deskOf desk session)) ∨
      (∃ misuse, session.ending = some (.number misuse) ∧
        outcome desk session =
          .error (.refused (.stopped (.number misuse))) (deskOf desk session)) ∨
      (session.Returns ∧
        outcome desk session = .ok (.error (recordOf session)) (deskOf desk session)) := by
  unfold outcome
  cases ends : session.ending with
  | none => exact .inl ⟨rfl, rfl⟩
  | some ending =>
    cases ending
    case number misuse => exact .inr (.inl ⟨misuse, rfl, rfl⟩)
    all_goals exact .inr (.inr ⟨⟨_, ends, nofun⟩, rfl⟩)

/-- The attempts of a frame are those of the session. -/
theorem run_attempts (going : session.ending = none) (limits : Session.Limits) (count : Nat) :
    (attempts limits count (recordOf session)).run (deskOf desk session) =
      outcome desk (session.attempts limits count) := by
  induction count generalizing session with
  | zero =>
    simp only [outcome, Session.attempts, going]
    rfl
  | succ count inductionHypothesis =>
    have notEnded : ¬session.ending.isSome = true := by simp [going]
    have attempted := @run_attempt desk session going limits
    rw [Session.attempts, if_neg notEnded, attempts]
    rcases outcome_cases desk (session.attempt limits) with
      ⟨goesOn, out⟩ | ⟨misuse, ended, out⟩ | ⟨⟨ending, ended, _⟩, out⟩
    · rw [run_bind_of_ok (attempted.trans out)]
      exact inductionHypothesis goesOn
    · rw [run_bind_of_error (attempted.trans out),
        Session.attempts_of_ended (by rw [ended]; rfl), out]
    · rw [run_bind_of_ok (attempted.trans out),
        Session.attempts_of_ended (by rw [ended]; rfl), out]
      rfl

/-- What a tick comes to. The timers have counted down even where the time cannot be told. -/
theorem run_tick (desk : Desk) :
    tick.run desk =
      match desk.machine.lostTime? with
      | some misuse =>
        .error (.refused (.stopped (.number misuse))) { desk with machine := desk.machine.tick }
      | none => .ok () { desk with machine := desk.machine.tick } := by
  rw [tick, run_get_bind]
  dsimp only
  cases desk.machine.lostTime? <;> rfl

/-- To close a frame is to close one of the session. -/
theorem run_closeFrame (going : session.ending = none) (limits : Session.Limits) :
    (closeFrame limits (recordOf session)).run (deskOf desk session) =
      outcome desk (session.closeFrame limits) := by
  have ticked := run_tick (deskOf desk session)
  obtain ⟨machine, accesses, reports, steps, frames, skipped, waiting, ending⟩ := session
  cases going
  simp only [deskOf] at ticked
  simp only [Session.closeFrame, Option.isSome_none, Bool.false_eq_true, if_false]
  cases told : machine.lostTime? with
  | some misuse =>
    rw [told] at ticked
    exact run_bind_of_error ticked
  | none =>
    rw [told] at ticked
    refine (run_bind_of_ok ticked).trans ?_
    change (if limits.timeUp (frames + 1) then _ else _ : Conduct _).run _ = _
    cases limits.timeUp (frames + 1) <;> rfl

/-- A frame is one of the session. -/
theorem run_frame (going : session.ending = none) (limits : Session.Limits) (perFrame : Nat) :
    (frame limits perFrame (recordOf session)).run (deskOf desk session) =
      outcome desk (session.frame limits perFrame) := by
  have attempted := @run_attempts desk session going limits perFrame
  rw [frame, Session.frame]
  generalize session.attempts limits perFrame = middle at *
  rcases outcome_cases desk middle with
    ⟨goesOn, out⟩ | ⟨misuse, ended, out⟩ | ⟨⟨ending, ended, _⟩, out⟩
  · rw [run_bind_of_ok (attempted.trans out)]
    exact run_closeFrame goesOn limits
  · have isSome : middle.ending.isSome = true := by rw [ended]; rfl
    rw [run_bind_of_error (attempted.trans out), Session.closeFrame, if_pos isSome, out]
  · have isSome : middle.ending.isSome = true := by rw [ended]; rfl
    rw [run_bind_of_ok (attempted.trans out), Session.closeFrame, if_pos isSome, out]
    rfl

/-- What the frames of a session come to that may go on for ever. -/
def final (desk : Desk) (session : Session) : EStateM.Result Thrown Desk Record :=
  match session.ending with
  | none => .error .unfinished (deskOf desk session)
  | some (.number misuse) => .error (.refused (.stopped (.number misuse))) (deskOf desk session)
  | some _ => .ok (recordOf session) (deskOf desk session)

/-- The frames are those of the session. -/
theorem run_play (going : session.ending = none) (limits : Session.Limits)
    (perFrame rounds : Nat) :
    (play limits perFrame rounds (recordOf session)).run (deskOf desk session) =
      final desk (session.play limits perFrame rounds) := by
  induction rounds generalizing session with
  | zero =>
    simp only [final, Session.play, going]
    rfl
  | succ rounds inductionHypothesis =>
    have notEnded : ¬session.ending.isSome = true := by simp [going]
    have frames : (recordOf session).frames = session.frames := rfl
    rw [Session.play, if_neg notEnded, play, frames]
    cases Session.reached limits.frames session.frames with
    | true =>
      obtain ⟨machine, accesses, reports, steps, frames, skipped, waiting, ending⟩ := session
      cases going
      rfl
    | false =>
      have framed := @run_frame desk session going limits perFrame
      simp only [Bool.false_eq_true, if_false]
      rcases outcome_cases desk (session.frame limits perFrame) with
        ⟨goesOn, out⟩ | ⟨misuse, ended, out⟩ | ⟨⟨ending, ended, settled⟩, out⟩
      · rw [run_bind_of_ok (framed.trans out)]
        exact inductionHypothesis goesOn
      · rw [run_bind_of_error (framed.trans out), Session.play_of_ended (by rw [ended]; rfl),
          final, ended]
      · rw [run_bind_of_ok (framed.trans out), Session.play_of_ended (by rw [ended]; rfl),
          final, ended]
        cases ending
        case number misuse => exact absurd rfl (settled misuse)
        all_goals rfl

/-- A value is taken, or the stop is thrown. -/
theorem run_demand (part : Except Stop α) (desk : Desk) :
    (demand part).run desk =
      match part with
      | .ok value => .ok value desk
      | .error stop => .error (.stop stop) desk := by
  cases part <;> rfl

/-- Where the limits cannot be told, nothing is played. -/
theorem run_execute_of_error {options : Options} {plan : Plan} {reading : Nat → Number} {stop : Stop}
    (stops : limitsFor options plan desk.machine reading = .error stop) (rounds : Nat) :
    (execute rounds options plan reading).run desk = .error (.stop stop) desk := by
  have demanded := run_demand (limitsFor options plan desk.machine reading) desk
  rw [stops] at demanded
  rw [execute, run_get_bind]
  dsimp only
  rw [stops]
  exact run_bind_of_error demanded

/-- On a desk without messages a session is played from its beginning. -/
theorem run_execute_of_ok {options : Options} {plan : Plan} {reading : Nat → Number}
    {perFrame : Nat} (limited : limitsFor options plan desk.machine reading = .ok limits)
    (told : desk.machine.clock.stepsPerFrame = .ok perFrame) (quiet : desk.messages = [])
    (rounds : Nat) :
    (execute rounds options plan reading).run desk =
      final desk ((Session.begin desk.machine).play limits perFrame rounds) := by
  have played := @run_play desk (Session.begin desk.machine) rfl limits perFrame rounds
  have start : deskOf desk (Session.begin desk.machine) = desk := by
    obtain ⟨machine, output, messages, disk⟩ := desk
    cases quiet
    rfl
  rw [start] at played
  rw [execute, run_get_bind]
  dsimp only
  rw [limited, told]
  exact played

/-- A file is loaded as a whole, or refused with nothing changed. -/
theorem run_loadFile (area : Memory.programStart ≤ desk.machine.memory.size) (path : Disk.Path) :
    (loadFile path).run desk =
      match desk.machine.loadFile desk.disk path none with
      | .ok (_, machine) => .ok () { desk with machine }
      | .error refusal => .error (.refused (.noProgram refusal)) desk := by
  have served := Loader.reply_loadFile area desk.disk path none
  rw [Machine.serve] at served
  rw [loadFile, run_get_bind]
  generalize desk.machine.loadFile desk.disk path none = found at served ⊢
  cases found with
  | ok found =>
    obtain ⟨rom, loaded⟩ := found
    have ended : (Loader.loadFile desk.disk path none).run desk.machine =
        .ok (.program rom) loaded := by
      generalize (Loader.loadFile desk.disk path none).run desk.machine = ended at served ⊢
      cases ended <;> cases served
      rfl
    rw [ended]
    rfl
  | error refusal =>
    have ended : (Loader.loadFile desk.disk path none).run desk.machine =
        .error (.noProgram refusal) desk.machine := by
      generalize (Loader.loadFile desk.disk path none).run desk.machine = ended at served ⊢
      cases ended <;> cases served
      rfl
    rw [ended]
    rfl

/-- What could not be loaded is reported, except for a path with a null character. -/
theorem run_tryLoad (area : Memory.programStart ≤ desk.machine.memory.size) (path : Disk.Path) :
    (tryLoad path).run desk =
      match desk.machine.loadFile desk.disk path none with
      | .ok (_, machine) => .ok true { desk with machine }
      | .error .noPath => .error (.refused (.noProgram .noPath)) desk
      | .error refusal =>
        .ok false
          { desk with messages := desk.messages ++ ["Failed to load ROM: " ++ refusal.message] } := by
  have loaded := run_loadFile area path
  rw [tryLoad]
  generalize desk.machine.loadFile desk.disk path none = found at loaded ⊢
  cases found with
  | ok found =>
    apply run_tryCatch_of_ok
    rw [run_bind_of_ok loaded]
    rfl
  | error refusal =>
    rw [run_tryCatch_of_error (run_bind_of_error loaded)]
    cases refusal <;> rfl

/-- Keys that exist are held down, one after the other. -/
theorem run_holdKeys {keys : List Int} (exist : ∀ key ∈ keys, 0 ≤ key ∧ key < 16) (desk : Desk) :
    (holdKeys keys).run desk = .ok () { desk with machine := hold desk.machine keys } := by
  induction keys generalizing desk with
  | nil => rfl
  | cons key rest inductionHypothesis =>
    have further := inductionHypothesis fun other later => exist other (List.mem_cons_of_mem _ later)
    obtain ⟨next, pressed⟩ : ∃ next, desk.machine.setKey key true = .ok next := by
      rw [Machine.setKey, Keypad.setNumbered, if_pos (exist key List.mem_cons_self)]
      exact ⟨_, rfl⟩
    have held : hold desk.machine (key :: rest) = hold next rest := by
      rw [hold, List.foldl_cons, pressed]
      rfl
    rw [holdKeys, run_get_bind, pressed, held]
    exact (run_bind_of_ok rfl).trans (further _)

/-- What is asked for can be read from a standard memory. -/
theorem run_readDump (size : desk.machine.memory.size = 0x1000) {ranges : List AddressRange}
    (within : ∀ range ∈ ranges, range.Within) (form : DumpFormat) :
    (readDump ranges form).run desk = .ok (dump desk.machine.memory ranges form) desk := by
  cases form with
  | none => rfl
  | table =>
    rw [readDump, run_get_bind, dump, HexDump.text_of_within size within]
    rfl
  | bytes =>
    rw [readDump, run_get_bind, dump, HexDump.bytes_of_within size within]
    rfl

end Conduct

/-- A line of output. -/
theorem unlines_singleton (line : String) : unlines [line] = line ++ "\n" := by
  simp [unlines, String.join]

/-- Lines after lines. -/
theorem unlines_append (first second : List String) :
    unlines (first ++ second) = unlines first ++ unlines second := by
  simp only [unlines, List.map_append, String.join_append]

/-- What is printed of a machine in the end. -/
def Options.shown (options : Options) (machine : Machine) : Output :=
  if options.showDisplay then picture machine else .empty

/-- What is printed and written of a machine, where its memory is dumped as well. -/
def handOver (options : Options) (plan : Plan) (machine : Machine) (disk : Disk) :
    Except Breakdown (Output × Disk) :=
  match dump machine.memory (AddressRange.merge plan.dumpRanges) options.dumpForm with
  | none => .ok (options.shown machine, disk)
  | some piece => place disk (options.shown machine) options.dump piece

namespace Conduct

open InPlace (run_bind_of_ok run_bind_of_error run_get_bind)

variable {desk : Desk} {session : Session} {options : Options} {plan : Plan}

/-- On empty paper everything that is shown is printed. -/
theorem run_printState (blank : desk.output = .empty) :
    (printState options).run desk = .ok () { desk with output := options.shown desk.machine } := by
  obtain ⟨machine, output, messages, disk⟩ := desk
  cases blank
  change EStateM.Result.ok () (if options.showDisplay then _ else _) = _
  rw [Options.shown]
  cases options.showDisplay <;> rfl

/-- A dump is handed over after what is shown, or breaks off with nothing written. -/
theorem run_writeDump (shown : desk.output = options.shown desk.machine)
    (size : desk.machine.memory.size = 0x1000) (within : ∀ range ∈ plan.dumpRanges, range.Within) :
    (writeDump options plan.dumpRanges).run desk =
      match handOver options plan desk.machine desk.disk with
      | .ok (output, disk) => .ok () { desk with output, disk }
      | .error breakdown => .error (.stop (.broken breakdown)) desk := by
  have read := run_readDump size (AddressRange.merge_within within) options.dumpForm
  rw [writeDump, run_bind_of_ok read, handOver, ← shown]
  cases dump desk.machine.memory (AddressRange.merge plan.dumpRanges) options.dumpForm with
  | none => rfl
  | some piece =>
    dsimp only
    rw [run_get_bind]
    cases place desk.disk desk.output options.dump piece <;> rfl

/-- A session that returns is judged by its record. -/
theorem run_judge (returns : session.Returns) (desk : Desk) :
    ∃ code lines, verdict session = (.exit code, unlines lines) ∧
      (judge (recordOf session)).run desk =
        .ok code { desk with messages := desk.messages ++ lines } := by
  obtain ⟨ending, ended, settled⟩ := returns
  have silent : { desk with messages := desk.messages ++ [] } = desk := by rw [List.append_nil]
  obtain ⟨machine, accesses, reports, steps, frames, skipped, waiting, _⟩ := session
  cases ended
  cases ending with
  | number misuse => exact absurd rfl (settled misuse)
  | fault fault =>
    refine ⟨2, [_], ?_, rfl⟩
    rw [unlines_singleton]
    cases waiting <;> rfl
  | breakpoint =>
    refine ⟨0, [], by cases waiting <;> rfl, ?_⟩
    rw [silent]
    rfl
  | frameLimit | stepLimit =>
    cases waiting with
    | false =>
      refine ⟨0, [], rfl, ?_⟩
      rw [silent]
      rfl
    | true => exact ⟨3, [_], by rw [unlines_singleton]; rfl, rfl⟩
  | timeUp =>
    cases waiting with
    | false => exact ⟨0, [_], by rw [unlines_singleton]; rfl, rfl⟩
    | true => exact ⟨3, [_], by rw [unlines_singleton]; rfl, rfl⟩

/-- What cannot be handed over ends the run unjudged. -/
theorem run_finish_of_error (blank : desk.output = .empty)
    (size : desk.machine.memory.size = 0x1000) (within : ∀ range ∈ plan.dumpRanges, range.Within)
    {breakdown : Breakdown} (failed : handOver options plan desk.machine desk.disk = .error breakdown)
    (record : Record) :
    (finish options plan record).run desk =
      .error (.stop (.broken breakdown)) { desk with output := options.shown desk.machine } := by
  have written := @run_writeDump { desk with output := options.shown desk.machine } options plan rfl
    size within
  rw [failed] at written
  exact (run_bind_of_ok (run_printState blank)).trans (run_bind_of_error written)

/-- After everything is handed over, a session that returns is judged. -/
theorem run_finish_of_ok (blank : desk.output = .empty)
    (size : desk.machine.memory.size = 0x1000) (within : ∀ range ∈ plan.dumpRanges, range.Within)
    {output : Output} {disk : Disk}
    (handed : handOver options plan desk.machine desk.disk = .ok (output, disk))
    (returns : session.Returns) :
    ∃ code lines, verdict session = (.exit code, unlines lines) ∧
      (finish options plan (recordOf session)).run desk =
        .ok code ⟨desk.machine, output, desk.messages ++ lines, disk⟩ := by
  have written := @run_writeDump { desk with output := options.shown desk.machine } options plan rfl
    size within
  rw [handed] at written
  obtain ⟨code, lines, judged, ended⟩ := run_judge returns { desk with output, disk }
  refine ⟨code, lines, judged, ?_⟩
  refine (run_bind_of_ok (run_printState blank)).trans ?_
  exact (run_bind_of_ok written).trans ended

end Conduct

end Chip8.Runner
