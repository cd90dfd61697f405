import Chip8.Emulator
import Chip8.Proofs.Completion
import Chip8.Proofs.Sessions
import Chip8.Proofs.Tuning

/-!
# Leaving the window

A script is played up to the batch in which the host quits or the escape key goes down, and that
batch gets its frame like any other. Then the machine is silenced and the window is closed.

What a turn adds to the record of a session is one line for the fault of its frame, if there is
one: events leave the record alone, and a halted program runs no frame. The exit code says whether
there is any such line.

What can break a session off is a frame whose length cannot be told. The clock of a window never
leaves time zero, so that nothing else that a frame needs can fail to be told.
-/

namespace Chip8

namespace Window

variable {window : Window}

/-- Whether an event closes the window. -/
def Event.leaves : Event → Bool
  | .quit => true
  | .keyDown code => code == escapeKey
  | .keyUp _ | .other => false

/-- The batches of a script up to the first with an event that closes the window. When no more are
known the host quits. -/
def lasting : List (List Event) → List (List Event)
  | [] => [[.quit]]
  | events :: rest => events :: if events.any Event.leaves then [] else lasting rest

/-- The window at the frame of each turn, when the events are handled. -/
def atFrames (window : Window) : List (List Event) → List Window
  | [] => []
  | events :: rest => events.foldl handle window :: (window.turn events).atFrames rest

/-- The fault that the frame meets. No frame is run of a halted program. -/
def fault? (window : Window) : Option Fault :=
  match window.halted, window.machine.runFrame.1.stop with
  | none, some (.fault fault) => some fault
  | _, _ => none

theorem fault_of_stop {fault : Fault} (going : window.halted = none)
    (stop : window.machine.runFrame.1.stop = some (.fault fault)) : window.fault? = some fault := by
  rw [fault?, going, stop]

/-- The line that tells of a fault. -/
def lineOf (fault : Fault) : String := "Execution halted: " ++ fault.message

/-- Between two windows nothing but these faults was entered into the record, the length of a frame
has stayed, and the beeper was kept in tune. -/
structure Adds (before after : Window) (faults : List Fault) : Prop where
  failed : after.failed = (before.failed || !faults.isEmpty)
  broken : after.broken = before.broken
  errors : after.errors = (faults.map lineOf).reverse ++ before.errors
  pace : after.machine.clock.stepsPerFrame = before.machine.clock.stepsPerFrame
  tuned : before.Tuned → after.Tuned

theorem Adds.refl (window : Window) : window.Adds window [] :=
  ⟨(Bool.or_false _).symm, rfl, rfl, rfl, id⟩

theorem Adds.trans {before middle after : Window} {earlier later : List Fault}
    (first : before.Adds middle earlier) (second : middle.Adds after later) :
    before.Adds after (earlier ++ later) where
  failed := by
    rw [second.failed, first.failed, Bool.or_assoc]
    cases earlier <;> rfl
  broken := second.broken.trans first.broken
  errors := by simp [second.errors, first.errors]
  pace := second.pace.trans first.pace
  tuned := second.tuned ∘ first.tuned

/-- What is no sound is asked for without further notice. -/
theorem Adds.request (window : Window) {asked : Request} (silent : soundOf? asked = none) :
    window.Adds (window.request asked) [] where
  failed := (Bool.or_false _).symm
  broken := rfl
  errors := rfl
  pace := rfl
  tuned tuned := by
    have same : (window.request asked).sounds = window.sounds := List.filterMap_cons_none silent
    rw [Tuned, same]
    exact tuned

theorem Adds.follow (window : Window) {machine : Machine}
    (pace : machine.clock.stepsPerFrame = window.machine.clock.stepsPerFrame)
    (rings : Machine.Rings window.machine machine) : window.Adds (window.follow machine) [] where
  failed := (Bool.or_false _).symm
  broken := rfl
  errors := rfl
  pace := pace
  tuned tuned := tuned.follow rings

/-- A change of the keypad, the size or the closing enters nothing. -/
theorem Adds.of_same {before after : Window}
    (machine : after.machine = { before.machine with keypad := after.machine.keypad })
    (failed : after.failed = before.failed) (broken : after.broken = before.broken)
    (errors : after.errors = before.errors) (requests : after.requests = before.requests) :
    before.Adds after [] where
  failed := failed.trans (Bool.or_false _).symm
  broken := broken
  errors := errors
  pace := by rw [machine]
  tuned tuned := by
    rw [Tuned, sounds, machine, requests]
    exact tuned

end Window

namespace Machine

/-- A machine that gets another status keeps the length of its frames, and only asks its beeper for
a position. -/
theorem setStatus_rings (machine : Machine) (status : RunStatus) :
    (machine.setStatus status).clock.stepsPerFrame = machine.clock.stepsPerFrame ∧
      Rings machine (machine.setStatus status) := by
  refine ⟨?_, .adjusted rfl⟩
  rw [(setStatus_keeps machine status).2]

/-- So does one that is restarted. -/
theorem restart_rings (machine : Machine) :
    machine.reset.resume.clock.stepsPerFrame = machine.clock.stepsPerFrame ∧
      Rings machine machine.reset.resume := by
  have clock := (setStatus_keeps machine.reset machine.reset.status.resume).2
  have back : Rings machine machine.reset := .adjusted rfl
  have pace : machine.reset.clock.stepsPerFrame = machine.clock.stepsPerFrame := by
    rw [reset_eq, adjustBeeper_eq]
    rfl
  obtain ⟨same, rings⟩ := machine.reset.setStatus_rings machine.reset.status.resume
  exact ⟨same.trans pace, back.trans rings clock⟩

end Machine

namespace Window

/-- To pause or to resume is not entered into the record. -/
theorem Adds.setStatus (window : Window) (status : RunStatus) :
    window.Adds (window.follow (window.machine.setStatus status)) [] :=
  .follow window (window.machine.setStatus_rings status).1 (window.machine.setStatus_rings status).2

/-- A halt is, with its fault. -/
theorem adds_halt (window : Window) (fault : Fault) : window.Adds (window.halt fault) [fault] := by
  have paused := Adds.setStatus window window.machine.status.pause
  have entered : (window.follow window.machine.pause).Adds
      { window.follow window.machine.pause with
        halted := some fault.name
        failed := true
        errors := lineOf fault :: (window.follow window.machine.pause).errors } [fault] :=
    ⟨(Bool.or_true _).symm, rfl, rfl, rfl, id⟩
  exact (paused.trans entered).trans (.request _ rfl)

/-- Events are not. -/
theorem adds_handle (window : Window) (event : Event) : window.Adds (window.handle event) [] := by
  cases event with
  | quit | keyUp | other => exact .of_same rfl rfl rfl rfl rfl
  | keyDown code =>
    change window.Adds (window.press code) []
    unfold press
    split
    · exact .of_same rfl rfl rfl rfl rfl
    split
    · obtain ⟨pace, rings⟩ := window.machine.restart_rings
      have followed := Adds.follow window pace rings
      have freed : (window.follow window.machine.reset.resume).Adds
          { window.follow window.machine.reset.resume with halted := none } [] :=
        .of_same rfl rfl rfl rfl rfl
      exact (followed.trans freed).trans (.request _ rfl)
    split
    · have followed : window.Adds (window.follow (if window.machine.isRunning then
          window.machine.pause else window.machine.resume)) [] := by
        split
        · exact .setStatus window _
        · exact .setStatus window _
      exact followed.trans (.request _ rfl)
    · exact .of_same rfl rfl rfl rfl rfl

theorem adds_handleAll (window : Window) (events : List Event) :
    window.Adds (events.foldl handle window) [] := by
  induction events generalizing window with
  | nil => exact .refl window
  | cons event rest inductionHypothesis =>
    exact (window.adds_handle event).trans (inductionHypothesis _)

/-- To show the screen is not entered either. -/
theorem adds_present (window : Window) : window.Adds window.present [] := by
  unfold present
  have fitted :
      window.Adds (if window.size = window.fitting then window else window.resize) [] := by
    split
    · exact .refl window
    · have sized : window.Adds { window with size := window.fitting } [] :=
        .of_same rfl rfl rfl rfl rfl
      exact sized.trans (.request _ rfl)
  exact ((fitted.trans (.request _ rfl)).trans (.request _ rfl)).trans (.request _ rfl)

end Window

namespace Machine

variable {machine : Machine} {misuse : Number.Misuse}

/-- At time zero all that a frame needs can be told but its length. -/
theorem stop_ne_number (start : machine.clock.elapsed = 0)
    (paced : (∃ steps, machine.clock.stepsPerFrame = .ok steps) ∨ machine.isRunning = false) :
    machine.runFrame.1.stop ≠ some (.number misuse) := by
  intro stops
  cases running : machine.isRunning with
  | false =>
    rw [runFrame_of_paused running] at stops
    cases stops
  | true =>
    rw [running] at paced
    obtain ⟨steps, told⟩ := paced.resolve_right Bool.true_eq_false_eq_False
    simp only [runFrame, running, told, if_true] at stops
    rw [Run.frame_eq_follow] at stops
    obtain ⟨lost, _⟩ := (follow_stop_number_iff (.begin machine) rfl).mp stops
    cases (lostTime_of_start start).symm.trans lost

/-- A running machine meets it at once that the length cannot be told. -/
theorem stop_of_untold (running : machine.isRunning = true)
    (untold : machine.clock.stepsPerFrame = .error misuse) :
    machine.runFrame.1.stop = some (.number misuse) := by
  simp only [runFrame, running, untold, if_true]
  rfl

end Machine

namespace Window

variable {window : Window} {name : String} {scale : Nat} {log : List Incident}
  {events : List Event} {script : List (List Event)} {misuse : Number.Misuse}

/-- The length of the frame can be told, or no frame is run. -/
def Paced (window : Window) : Prop :=
  (∃ steps, window.machine.clock.stepsPerFrame = .ok steps) ∨ window.machine.isRunning = false

/-- Events do not change the length of a frame. -/
theorem paced_handleAll
    (paced : (∃ steps, window.machine.clock.stepsPerFrame = .ok steps) ∨
      (events.foldl handle window).machine.isRunning = false) :
    (events.foldl handle window).Paced := by
  rw [Paced, (window.adds_handleAll events).pace]
  exact paced

/-- A frame enters the fault that it meets, and nothing else. -/
theorem Fits.adds_frame (fits : window.Fits name scale log) (paced : window.Paced) :
    window.Adds window.frame window.fault?.toList := by
  cases going : window.halted with
  | some reason =>
    simp only [Window.frame, fault?, going, Option.isSome_some, if_true]
    exact .refl window
  | none =>
    have followed : window.Adds (window.follow window.machine.runFrame.1.machine) [] := by
      refine .follow window ?_ (Machine.rings_serveOne window.machine .runFrame)
      rw [window.machine.runFrame_keeps.1]
    simp only [Window.frame, fault?, going, Option.isSome_none, Bool.false_eq_true, if_false]
    cases stop : window.machine.runFrame.1.stop with
    | none => exact followed
    | some met =>
      cases met with
      | number misuse => exact absurd stop (Machine.stop_ne_number fits.time paced)
      | fault fault =>
        exact followed.trans (adds_halt _ fault)

/-- A frame of a running machine whose length cannot be told breaks the window. -/
theorem Fits.frame_breaks (fits : window.Fits name scale log)
    (running : window.machine.isRunning = true)
    (untold : window.machine.clock.stepsPerFrame = .error misuse) :
    window.frame.broken = some misuse := by
  cases going : window.halted with
  | some reason =>
    have paused := (fits.rests (by rw [going]; rfl)).1
    rw [Machine.isRunning, paused] at running
    cases running
  | none =>
    simp only [Window.frame, going, Option.isSome_none, Bool.false_eq_true, if_false,
      Machine.stop_of_untold running untold]

/-- A turn enters the fault that its frame meets, and nothing else. -/
theorem Fits.adds_turn (fits : window.Fits name scale log) (whole : window.broken = none)
    (paced : (events.foldl Window.handle window).Paced) :
    window.Adds (window.turn events) (events.foldl Window.handle window).fault?.toList := by
  have framed := (window.adds_handleAll events).trans ((fits.handleAll events).adds_frame paced)
  have unbroken : ((events.foldl Window.handle window).frame.broken.isSome = true) ↔ False := by
    rw [framed.broken, whole]
    decide
  have shown := framed.trans (adds_present _)
  rw [List.append_nil, List.nil_append] at shown
  rw [Window.turn]
  simpa only [unbroken, if_false] using shown

/-- A turn with a frame that cannot be told breaks the window. -/
theorem Fits.turn_breaks (fits : window.Fits name scale log)
    (running : (events.foldl Window.handle window).machine.isRunning = true)
    (untold : window.machine.clock.stepsPerFrame = .error misuse) :
    (window.turn events).broken = some misuse := by
  have handled := (window.adds_handleAll events).pace.trans untold
  have framed := (fits.handleAll events).frame_breaks running handled
  simp only [Window.turn, framed, Option.isSome_some, if_true]

/-- An event that closes the window is what closes it. -/
theorem handle_closing (window : Window) (event : Event) :
    (window.handle event).closing = (window.closing || event.leaves) := by
  cases event with
  | quit => exact (Bool.or_true _).symm
  | keyUp code | other => exact (Bool.or_false _).symm
  | keyDown code =>
    change (window.press code).closing = (window.closing || code == escapeKey)
    unfold press
    split
    next same =>
      rw [same]
      exact (Bool.or_true _).symm
    next other =>
      rw [beq_false_of_ne other, Bool.or_false]
      split
      · rfl
      · split <;> rfl

theorem handleAll_closing (window : Window) (events : List Event) :
    (events.foldl handle window).closing = (window.closing || events.any Event.leaves) := by
  induction events generalizing window with
  | nil => exact (Bool.or_false _).symm
  | cons event rest inductionHypothesis =>
    rw [List.foldl_cons, inductionHypothesis, handle_closing, Bool.or_assoc]
    rfl

/-- Neither a frame nor a picture closes it. -/
theorem turn_closing (window : Window) (events : List Event) :
    (window.turn events).closing = (window.closing || events.any Event.leaves) := by
  have framed (window : Window) : window.frame.closing = window.closing := by
    unfold Window.frame
    split
    · rfl
    · dsimp only
      split <;> rfl
  have shown (window : Window) : window.present.closing = window.closing := by
    unfold present
    split <;> rfl
  rw [← handleAll_closing, turn]
  split
  · exact framed _
  · rw [shown, framed]

/-- If all frames can be told, turns enter the faults that their frames meet, in order. -/
theorem Fits.adds_turns (fits : window.Fits name scale log) (enlarged : 0 < scale)
    (whole : window.broken = none)
    (paced : (∃ steps, window.machine.clock.stepsPerFrame = .ok steps) ∨
      ∀ frame ∈ window.atFrames script, frame.machine.isRunning = false) :
    (∃ log, (script.foldl Window.turn window).Fits name scale log) ∧
      window.Adds (script.foldl Window.turn window)
        ((window.atFrames script).filterMap fault?) := by
  induction script generalizing window log with
  | nil => exact ⟨⟨log, fits⟩, .refl window⟩
  | cons events rest inductionHypothesis =>
    have here := paced_handleAll (paced.imp_right fun idle => idle _ List.mem_cons_self)
    have turned := fits.adds_turn whole here
    have later := paced.imp (fun told => turned.pace.symm ▸ told)
      fun idle frame member => idle frame (List.mem_cons_of_mem _ member)
    obtain ⟨left, added⟩ := inductionHypothesis (fits.turn enlarged events).1
      (turned.broken.trans whole) later
    refine ⟨left, ?_⟩
    have together := turned.trans added
    rw [atFrames, List.filterMap_cons]
    cases met : (events.foldl Window.handle window).fault? with
    | none => rwa [met] at together
    | some fault => rwa [met] at together

/-- After a turn whose frame can be told a script goes on, unless an event has closed the window. -/
theorem Fits.play_cons (fits : window.Fits name scale log) (script : List (List Event))
    (whole : window.broken = none) (opened : window.closing = false)
    (paced : (events.foldl Window.handle window).Paced) :
    (window.turn events).broken = none ∧ (window.turn events).closing = events.any Event.leaves ∧
      window.play (events :: script) =
        if events.any Event.leaves then window.turn events
        else (window.turn events).play script := by
  have unbroken : (window.turn events).broken = none :=
    (fits.adds_turn whole paced).broken.trans whole
  have closing : (window.turn events).closing = events.any Event.leaves := by
    rw [turn_closing, opened, Bool.false_or]
  refine ⟨unbroken, closing, ?_⟩
  rw [play]
  simp only [closing, unbroken, Option.isSome_none, Bool.or_false]

/-- If all frames can be told, a script is played up to the batch that closes the window. -/
theorem Fits.play_lasts (fits : window.Fits name scale log) (enlarged : 0 < scale)
    (whole : window.broken = none) (opened : window.closing = false)
    (paced : (∃ steps, window.machine.clock.stepsPerFrame = .ok steps) ∨
      ∀ frame ∈ window.atFrames (lasting script), frame.machine.isRunning = false) :
    window.play script = (lasting script).foldl Window.turn window := by
  induction script generalizing window log with
  | nil => rfl
  | cons events rest inductionHypothesis =>
    have here := paced_handleAll (paced.imp_right fun idle => idle _ List.mem_cons_self)
    obtain ⟨unbroken, closing, goesOn⟩ := fits.play_cons rest whole opened here
    rw [goesOn, lasting, List.foldl_cons]
    cases last : events.any Event.leaves with
    | true => rfl
    | false =>
      have later := paced.imp (fun told => (fits.adds_turn whole here).pace.symm ▸ told)
        fun idle frame member => idle frame (by
          rw [lasting, last]
          exact List.mem_cons_of_mem _ member)
      exact inductionHypothesis (fits.turn enlarged events).1 unbroken (closing.trans last) later

/-- If the length of a frame cannot be told, the first frame that is run breaks the window. -/
theorem Fits.play_breaks (fits : window.Fits name scale log) (enlarged : 0 < scale)
    (whole : window.broken = none) (opened : window.closing = false)
    (untold : window.machine.clock.stepsPerFrame = .error misuse)
    (runs : ∃ frame ∈ window.atFrames (lasting script), frame.machine.isRunning = true) :
    (window.play script).broken = some misuse := by
  induction script generalizing window log with
  | nil =>
    obtain ⟨frame, member, running⟩ := runs
    obtain rfl := List.mem_singleton.mp member
    exact fits.turn_breaks running untold
  | cons events rest inductionHypothesis =>
    cases running : (events.foldl Window.handle window).machine.isRunning with
    | true =>
      have breaks := fits.turn_breaks running untold
      simp only [play, breaks, Option.isSome_some, Bool.or_true, if_true]
    | false =>
      -- The frame that runs is a later one, so that no event closes the window yet.
      obtain ⟨frame, member, goes⟩ := runs
      obtain ⟨unbroken, closing, goesOn⟩ := fits.play_cons rest whole opened (.inr running)
      rw [lasting] at member
      rcases List.mem_cons.mp member with rfl | later
      · cases running.symm.trans goes
      · cases last : events.any Event.leaves with
        | true =>
          rw [last] at later
          cases later
        | false =>
          rw [last] at later goesOn
          rw [goesOn]
          exact inductionHypothesis (fits.turn enlarged events).1 unbroken (closing.trans last)
            ((fits.adds_turn whole (.inr running)).pace.trans untold) ⟨frame, later, goes⟩

/-- To close a window at time zero silences its machine, stops the device, and leaves the record as
it is. -/
structure Silenced (before after : Window) : Prop where
  timer : after.machine.timers.sound = 0
  beeper : after.machine.beeper.active = false
  last : after.requests.head? = some .quit
  stopped : ∀ later earlier, after.requests = later ++ .sound .playLooped :: earlier →
    .sound .stop ∈ later
  errors : after.errors = before.errors

theorem Tuned.close (tuned : window.Tuned) (start : window.machine.clock.elapsed = 0) :
    window.Silenced window.close := by
  let cleared : Machine :=
    { window.machine with timers := { window.machine.timers with sound := 0 } }
  have cleans : window.machine.clearSound = cleared.adjustBeeper := rfl
  have silent : window.machine.clearSound.beeper.active = false := by
    have told : cleared.lostTime? = none := Machine.lostTime_of_start start
    rw [cleans, (Machine.follows_iff_active _).mp (Machine.adjustBeeper_follows told),
      Machine.adjustBeeper_eq]
    exact Bool.and_false _
  have followed : (window.follow window.machine.clearSound).Tuned := tuned.follow (.adjusted rfl)
  constructor
  case timer =>
    change window.machine.clearSound.timers.sound = 0
    rw [cleans, Machine.adjustBeeper_eq]
  case beeper => exact silent
  case last => rfl
  case errors => rfl
  case stopped =>
    intro later earlier asked
    cases later with
    | nil => cases asked
    | cons latest rest =>
      have before := (List.cons.inj asked).2
      exact List.mem_cons_of_mem _ (followed.stop_mem rfl silent before)

/-- How a script is played and the window is left: every batch up to the first that closes the
window gets its turn, and no other; the exit code tells whether a frame has met a fault, and every
such frame has its line, in order; the machine is silent at the end, every play was followed by
a stop, and the last request is to quit. -/
structure Departs (window : Window) (script : List (List Event)) : Prop where
  turns : window.play script = (lasting script).foldl turn window
  code : (Emulator.conclude (window.play script)).ending =
    .exit (if ∃ frame ∈ window.atFrames (lasting script), frame.fault?.isSome then 2 else 0)
  lines : (Emulator.conclude (window.play script)).errors =
    String.join (((window.atFrames (lasting script)).filterMap fault?).map fun fault =>
      "Execution halted: " ++ fault.message ++ "\n")
  silent : (window.play script).close.machine.timers.sound = 0 ∧
    (window.play script).close.machine.beeper.active = false
  stopped : ∀ earlier later, (Emulator.conclude (window.play script)).requests =
    earlier ++ .sound .playLooped :: later → .sound .stop ∈ later
  last : (Emulator.conclude (window.play script)).requests.getLast? = some .quit

/-- A window that is whole is closed and reported. -/
theorem conclude_of_whole (whole : window.broken = none) :
    Emulator.conclude window =
      Emulator.report window.close (.exit (if window.failed then 2 else 0)) := by
  rw [Emulator.conclude, whole]

/-- A script that is played without breaking the window is left as it should be. -/
theorem Fits.departs (fits : window.Fits name scale log) (enlarged : 0 < scale)
    (whole : window.broken = none) (opened : window.closing = false)
    (blank : window.failed = false ∧ window.errors = []) (tuned : window.Tuned)
    (paced : (∃ steps, window.machine.clock.stepsPerFrame = .ok steps) ∨
      ∀ frame ∈ window.atFrames (lasting script), frame.machine.isRunning = false) :
    window.Departs script := by
  have turns := fits.play_lasts enlarged whole opened paced
  obtain ⟨⟨_, left⟩, added⟩ := fits.adds_turns enlarged whole paced
  rw [← turns] at left added
  have silenced := (added.tuned tuned).close left.time
  have concluded := conclude_of_whole (added.broken.trans whole)
  constructor
  case turns => exact turns
  case code =>
    have failed : (window.play script).failed = true ↔
        ∃ frame ∈ window.atFrames (lasting script), frame.fault?.isSome := by
      rw [added.failed, blank.1, Bool.false_or]
      simp [Option.isSome_iff_ne_none]
    rw [concluded]
    simp only [Emulator.report, failed]
  case lines =>
    rw [concluded]
    simp only [Emulator.report, Emulator.unlines, silenced.errors, added.errors, blank.2,
      List.append_nil, List.reverse_reverse, List.map_map]
    rfl
  case silent => exact ⟨silenced.timer, silenced.beeper⟩
  case stopped =>
    rw [concluded]
    intro earlier later asked
    have reversed := List.reverse_eq_iff.mp asked
    rw [List.reverse_append, List.reverse_cons, List.append_assoc,
      List.singleton_append] at reversed
    exact List.mem_reverse.mp (silenced.stopped _ _ reversed)
  case last =>
    rw [concluded]
    exact List.getLast?_reverse.trans silenced.last

/-- A script whose frames cannot be told is not left so, if the machine runs at any of them. -/
theorem Fits.not_departs (fits : window.Fits name scale log) (enlarged : 0 < scale)
    (whole : window.broken = none) (opened : window.closing = false)
    (untold : window.machine.clock.stepsPerFrame = .error misuse)
    (runs : ∃ frame ∈ window.atFrames (lasting script), frame.machine.isRunning = true) :
    ¬window.Departs script := by
  intro departs
  have code := departs.code
  rw [Emulator.conclude, fits.play_breaks enlarged whole opened untold runs] at code
  cases code

/-- Around a program that was just loaded, in an enlarged window, a script is left as it should be
exactly if the length of a frame can be told, or the machine runs at no frame at all. -/
theorem departs_iff {start machine : Machine} (used : start.Used) {disk : Disk} {path : Disk.Path}
    {dialect : Option Dialect} {rom : Rom}
    (loaded : start.loadFile disk path dialect = .ok (rom, machine)) {scale : Nat}
    (enlarged : 0 < scale) (script : List (List Event)) :
    (create machine rom.name scale).Departs script ↔
      (∃ steps, machine.clock.stepsPerFrame = .ok steps) ∨
        ∀ frame ∈ (create machine rom.name scale).atFrames (lasting script),
          frame.machine.isRunning = false := by
  have fits := fits_create loaded scale
  have tuned : (create machine rom.name scale).Tuned := by
    have served : start.serveOne (.loadFile disk path dialect) = machine := by
      simp only [Machine.serveOne, Machine.serve, loaded]
    have kept := (used.served (.loadFile disk path dialect)).inTune
    rw [served] at kept
    exact kept
  constructor
  · intro departs
    by_contra neither
    rw [not_or] at neither
    obtain ⟨misuse, untold⟩ : ∃ misuse, machine.clock.stepsPerFrame = .error misuse := by
      cases pace : machine.clock.stepsPerFrame with
      | ok steps => exact absurd ⟨steps, pace⟩ neither.1
      | error misuse => exact ⟨misuse, rfl⟩
    refine fits.not_departs enlarged rfl rfl untold ?_ departs
    simpa using neither.2
  · exact fun paced => fits.departs enlarged rfl rfl ⟨rfl, rfl⟩ tuned paced

/-- A program that meets a fault in its first frame, and is restarted in the batch in which the host
quits, is left with the exit code 2. -/
theorem departs_iff_of_faultDisk :
    let start := Machine.ofRate (2 * 60) .chip8 0 .mute
    let script : List (List Event) := [[], [.keyDown restartKey, .quit], [.keyDown pauseKey]]
    ∃ machine, start.Used ∧ start.loadFile faultDisk faultRom.path none = .ok (faultRom, machine) ∧
      0 < 10 ∧ (create machine faultRom.name 10).Departs script ∧
      (Emulator.conclude ((create machine faultRom.name 10).play script)).ending = .exit 2 := by
  intro start script
  obtain ⟨machine, loaded, stop⟩ := loadFile_faultDisk
  have used : start.Used := .built (Machine.isBuilt_mute (by decide) .chip8 0)
  have told : machine.clock.stepsPerFrame = .ok 2 := by
    rw [(Machine.loadFile_ready loaded).2]
    exact @FrameClock.stepsPerFrame_of_multiple 2 60 0 (by decide) (by decide +kernel) (by decide)
  have departs := (departs_iff used loaded (by decide : 0 < 10) script).mpr (.inl ⟨2, told⟩)
  refine ⟨machine, used, loaded, by decide, departs, ?_⟩
  have first : (create machine faultRom.name 10).fault?.isSome = true := by
    rw [fault_of_stop rfl stop]
    rfl
  rw [departs.code, if_pos ⟨_, List.mem_cons_self, first⟩]

/-- The program of a disk. -/
def loopRom : Rom := ⟨[0x12, 0x00], "LOOP", ⟨0, ["loop.ch8"]⟩⟩

/-- A machine with so many instructions a second that the length of a frame cannot be told loads a
program and breaks the window in its first frame. -/
theorem not_departs_of_endless :
    let start := Machine.ofRate Machine.endless .chip8 0 .mute
    ∃ machine, start.Used ∧
      start.loadFile Machine.programDisk loopRom.path none = .ok (loopRom, machine) ∧
      ¬(create machine loopRom.name 10).Departs [] := by
  intro start
  have read : Rom.read Machine.programDisk loopRom.path start.memory.capacity = .ok loopRom := by
    change Rom.read _ _ (Memory.standard.capacity : Int) = _
    rw [Memory.standard_capacity]
    rfl
  obtain ⟨machine, loaded⟩ : ∃ machine,
      start.loadFile Machine.programDisk loopRom.path none = .ok (loopRom, machine) := by
    rw [Machine.loadFile, read]
    exact ⟨_, rfl⟩
  obtain ⟨running, clock⟩ := Machine.loadFile_ready loaded
  have untold : machine.clock.stepsPerFrame = .error .largeQuotient := by
    have known := Machine.swiftMachine_untold
    rw [Machine.swiftMachine_running.2] at known
    rw [clock]
    exact known
  refine ⟨machine, .built (Machine.isBuilt_mute (by decide +kernel) .chip8 0), loaded, ?_⟩
  refine (fits_create loaded 10).not_departs (by decide) rfl rfl untold ?_
  refine ⟨_, List.mem_cons_self, ?_⟩
  change machine.isRunning = true
  rw [Machine.isRunning, running]
  rfl

end Window

end Chip8
