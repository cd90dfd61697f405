import Chip8.Proofs.Restarting
import Chip8.Window

/-!
# Turns of the window

In every turn the window handles the events that have come, runs a frame and shows the
screen. What it shows besides the picture, its caption and its size, it does not ask for in
every turn, but only where something changes. That caption and size fit nevertheless
whenever the screen is shown is an invariant of all that happens between two pictures.

Whether the program is halted is told by what has happened to it: its restarts, and the
frames that met a fault. These incidents are kept apart from the window, from the keys and
from the frames themselves. A halted machine is paused and silent, and nothing of it changes
but its keypad until the restart key goes down.
-/

namespace Chip8

namespace Machine

/-- A machine has the status that it was given, and its clock as before. -/
theorem setStatus_keeps (machine : Machine) (status : RunStatus) :
    (machine.setStatus status).status = status ∧
      (machine.setStatus status).clock = machine.clock := by
  rw [setStatus, adjustBeeper_eq]
  exact ⟨rfl, rfl⟩

/-- A machine that was just loaded from a file runs, and its clock is back at zero. -/
theorem loadFile_ready {start machine : Machine} {disk : Disk} {path : Disk.Path}
    {dialect : Option Dialect} {rom : Rom}
    (loaded : start.loadFile disk path dialect = .ok (rom, machine)) :
    machine.status = .running ∧ machine.clock = start.clock.reset := by
  unfold loadFile at loaded
  cases read : Rom.read disk path start.memory.capacity with
  | error refusal =>
    rw [read] at loaded
    cases loaded
  | ok found =>
    rw [read] at loaded
    cases loaded
    obtain ⟨_, running, clock, _⟩ := start_ready start (start.memory.install rom.image) dialect
    exact ⟨running, clock⟩

/-- A frame makes moves of a running machine, and none of any other. -/
theorem runFrame_moves (machine : Machine) :
    ∃ moves, machine.runFrame.1.machine = ((Run.begin machine).follow moves).machine := by
  unfold runFrame
  split
  · split
    · next steps _ => exact ⟨_, congrArg Run.machine (Run.frame_eq_follow steps (.begin machine))⟩
    · exact ⟨[], rfl⟩
  · exact ⟨[], rfl⟩

/-- It leaves clock and status alone. -/
theorem runFrame_keeps (machine : Machine) :
    machine.runFrame.1.machine.clock = machine.clock ∧
      machine.runFrame.1.machine.status = machine.status := by
  obtain ⟨moves, ended⟩ := machine.runFrame_moves
  rw [ended]
  exact ⟨(carries_follow (.begin machine) moves).clock,
    congrArg Setting.status (follow_setting (.begin machine) moves)⟩

/-- A machine that does not run meets nothing. -/
theorem runFrame_of_paused {machine : Machine} (paused : machine.isRunning = false) :
    machine.runFrame.1.stop = none := by
  rw [runFrame, paused]
  rfl

/-- One that runs meets at once the fault of its first step. -/
theorem runFrame_of_fault {machine : Machine} {steps : Nat} {fault : Fault}
    (running : machine.isRunning = true) (told : machine.clock.stepsPerFrame = .ok (steps + 1))
    (failed : machine.step.result = .error fault) :
    machine.runFrame.1.stop = some (.fault fault) := by
  simp only [runFrame, running, told, if_true]
  rw [Run.frame_eq_follow]
  exact (Run.follow_of_outcome rfl (.of_fails (.fault failed) _)).2

end Machine

namespace Window

/-- The caption that a request sets. -/
def captionOf? : Request → Option String
  | .setCaption text => some text
  | _ => none

/-- The size that a request sets. -/
def sizeOf? : Request → Option (Int × Int)
  | .setSize width height => some (width, height)
  | _ => none

/-- The caption that was set last. -/
def lastCaption? (requests : List Request) : Option String := requests.findSome? captionOf?

/-- The size that was set last. -/
def lastSize? (requests : List Request) : Option (Int × Int) := requests.findSome? sizeOf?

/-- What happens to the program: the restart key goes down, or a frame meets a fault. -/
inductive Incident where
  | restart
  | fault (fault : Fault)

variable {window : Window} {name : String} {scale : Nat} {log : List Incident}

/-- An event is entered if it restarts the program. -/
def enter (log : List Incident) (event : Event) : List Incident :=
  if event = .keyDown restartKey then .restart :: log else log

/-- The incidents after a turn, the latest first: those of its events, and then the fault
that its frame meets, if it meets one. -/
def enterTurn (window : Window) (log : List Incident) (events : List Event) : List Incident :=
  match (events.foldl handle window).machine.runFrame.1.stop with
  | some (.fault fault) => .fault fault :: events.foldl enter log
  | _ => events.foldl enter log

/-- The window after each turn of a script, with the incidents until then. The last turn is
the one in which it closes or breaks. -/
def story (window : Window) (log : List Incident) :
    List (List Event) → List (Window × List Incident)
  | [] => [(window.turn [.quit], window.enterTurn log [.quit])]
  | events :: rest =>
    let next := window.turn events
    let incidents := window.enterTurn log events
    (next, incidents) ::
      if next.closing || next.broken.isSome then [] else next.story incidents rest

/-- The story ends with the window that has been played. -/
theorem getLast_story (window : Window) (log : List Incident) (script : List (List Event)) :
    (window.story log script).getLast?.map Prod.fst = some (window.play script) := by
  induction script generalizing window log with
  | nil => rfl
  | cons events rest inductionHypothesis =>
    simp only [story, play]
    split
    · rfl
    · rw [← inductionHypothesis (window.turn events) (window.enterTurn log events),
        List.getLast?_cons]
      cases told : ((window.turn events).story (window.enterTurn log events) rest).getLast? with
      | some last => rfl
      | none =>
        have nothing := List.getLast?_eq_none_iff.mp told
        cases rest <;> cases nothing

/-- The batches of events that are handled, turn by turn: those of a script up to the turn in which
the window closes or breaks. When no more are known the host quits. -/
def batches (window : Window) : List (List Event) → List (List Event)
  | [] => [[.quit]]
  | events :: rest =>
    let next := window.turn events
    events :: if next.closing || next.broken.isSome then [] else next.batches rest

/-- To play a script is to take a turn for each of its batches. -/
theorem play_eq_foldl (window : Window) (script : List (List Event)) :
    window.play script = (window.batches script).foldl turn window := by
  induction script generalizing window with
  | nil => rfl
  | cons events rest inductionHypothesis =>
    simp only [play, batches, List.foldl_cons]
    split
    · rfl
    · exact inductionHypothesis _

/-- Why the program is halted: the latest incident is a fault. -/
def haltOf : List Incident → Option String
  | .fault fault :: _ => some fault.name
  | _ => none

/-- The state of a window fits what has happened, whatever its caption says. -/
structure Holds (window : Window) (name : String) (scale : Nat) (log : List Incident) : Prop where
  named : window.name = name
  scaled : window.scale = scale
  time : window.machine.clock.elapsed = 0
  on : window.machine.status ≠ .stopped
  size : lastSize? window.requests = some window.size
  halted : window.halted = haltOf log
  rests : window.halted.isSome = true →
    window.machine.status = .paused ∧ window.machine.beeper.active = false

/-- The caption fits as well. -/
structure Fits (window : Window) (name : String) (scale : Nat) (log : List Incident) : Prop
    extends Holds window name scale log where
  caption : lastCaption? window.requests =
    some (caption (some name) (!window.machine.isRunning) window.halted)

/-- To follow a machine asks for sounds only. -/
theorem follow_requests (window : Window) (machine : Machine) :
    (window.follow machine).requests =
      machine.beeper.requests.map Request.sound ++ window.requests := by
  change (machine.beeper.requests.reverse.map Request.sound).reverse ++ window.requests = _
  rw [List.map_reverse, List.reverse_reverse]

/-- So caption and size stay, and the screen is not shown. -/
theorem follow_shows (window : Window) (machine : Machine) :
    lastCaption? (window.follow machine).requests = lastCaption? window.requests ∧
      lastSize? (window.follow machine).requests = lastSize? window.requests ∧
      (window.follow machine).requests.count .flip = window.requests.count .flip := by
  rw [follow_requests]
  induction machine.beeper.requests with
  | nil => exact ⟨rfl, rfl, rfl⟩
  | cons sound rest inductionHypothesis =>
    obtain ⟨caption, size, flips⟩ := inductionHypothesis
    exact ⟨caption, size, (List.count_cons_of_ne (by nofun)).trans flips⟩

/-- A window that is not halted goes on with a machine at time zero that is not switched off. -/
theorem Holds.follow (holds : window.Holds name scale log) {machine : Machine}
    (time : machine.clock.elapsed = 0) (on : machine.status ≠ .stopped)
    (rests : window.halted.isSome = true →
      machine.status = .paused ∧ machine.beeper.active = false) :
    (window.follow machine).Holds name scale log where
  named := holds.named
  scaled := holds.scaled
  time := time
  on := on
  size := (window.follow_shows machine).2.1.trans holds.size
  halted := holds.halted
  rests := rests

/-- A halt hides in the caption whether the machine runs. -/
theorem caption_told {paused running : Bool} (told : haltOf log = none → paused = !running) :
    caption (some name) paused (haltOf log) = caption (some name) (!running) (haltOf log) := by
  cases log with
  | nil => rw [told rfl]
  | cons latest earlier =>
    cases latest with
    | restart => rw [told rfl]
    | fault fault => cases fault <;> rfl

/-- To show the state makes the caption fit. -/
theorem Holds.showState (holds : window.Holds name scale log) {paused : Bool}
    (told : window.halted = none → paused = !window.machine.isRunning) :
    (window.showState paused).Fits name scale log := by
  have shown : Window.caption (some window.name) paused window.halted =
      Window.caption (some name) (!window.machine.isRunning) window.halted := by
    rw [holds.named]
    rw [holds.halted] at told ⊢
    exact caption_told told
  exact
    { named := holds.named
      scaled := holds.scaled
      time := holds.time
      on := holds.on
      size := holds.size
      halted := holds.halted
      rests := holds.rests
      caption := congrArg some shown }

/-- The restart key sets the program running again, from time zero. -/
theorem Fits.restart (fits : window.Fits name scale log) :
    window.restart.Fits name scale (.restart :: log) := by
  obtain ⟨status, clock⟩ := Machine.setStatus_keeps window.machine.reset
    window.machine.reset.status.resume
  have back : window.machine.reset = _ := Machine.reset_eq window.machine
  rw [Machine.adjustBeeper_eq] at back
  have running : window.machine.reset.resume.status = .running := by
    rw [Machine.resume, status, back]
    change window.machine.status.resume = .running
    have on := fits.on
    cases known : window.machine.status with
    | stopped => exact absurd known on
    | running | paused => rfl
  have time : window.machine.reset.resume.clock.elapsed = 0 := by
    rw [Machine.resume, clock, back]
    rfl
  let followed : Window := window.follow window.machine.reset.resume
  have holds : ({ followed with halted := none } : Window).Holds name scale (.restart :: log) :=
    { named := fits.named
      scaled := fits.scaled
      time := time
      on := by
        change window.machine.reset.resume.status ≠ .stopped
        rw [running]
        decide
      size := (window.follow_shows _).2.1.trans fits.size
      halted := rfl
      rests := fun halted => absurd halted Bool.false_ne_true }
  apply holds.showState
  intro _
  change false = !window.machine.reset.resume.isRunning
  rw [Machine.isRunning, running]
  rfl

/-- The pause key makes the machine pause, or go on. -/
theorem Fits.togglePause (fits : window.Fits name scale log) (going : window.halted = none) :
    window.togglePause.Fits name scale log := by
  let machine := if window.machine.isRunning then window.machine.pause else window.machine.resume
  have changed : ∃ status, status ≠ .stopped ∧ machine = window.machine.setStatus status := by
    have on := fits.on
    cases known : window.machine.status with
    | stopped => exact absurd known on
    | running =>
      refine ⟨.paused, by decide, ?_⟩
      simp only [machine, Machine.isRunning, Machine.pause, known]
      rfl
    | paused =>
      refine ⟨.running, by decide, ?_⟩
      simp only [machine, Machine.isRunning, Machine.resume, known]
      rfl
  obtain ⟨status, on, same⟩ := changed
  obtain ⟨isStatus, clock⟩ := Machine.setStatus_keeps window.machine status
  have holds : (window.follow machine).Holds name scale log := by
    apply fits.toHolds.follow
    · rw [same, clock]
      exact fits.time
    · rw [same, isStatus]
      exact on
    · intro halted
      rw [going] at halted
      cases halted
  exact holds.showState fun _ => rfl

/-- What changes nothing but keypad and closing leaves caption and size as they fit. -/
theorem Fits.of_same {other : Window} (fits : window.Fits name scale log)
    (machine : other.machine = { window.machine with keypad := other.machine.keypad })
    (same : other = { window with machine := other.machine, closing := other.closing }) :
    other.Fits name scale log := by
  rw [same, machine]
  exact { fits with }

/-- Every event leaves a caption that fits. -/
theorem Fits.handle (fits : window.Fits name scale log) (event : Event) :
    (window.handle event).Fits name scale (enter log event) := by
  cases event with
  | quit => exact fits.of_same rfl rfl
  | keyUp code => exact fits.of_same rfl rfl
  | other => exact fits
  | keyDown code =>
    change (window.press code).Fits name scale _
    unfold press
    by_cases escape : code = escapeKey
    · have apart : enter log (.keyDown code) = log := by
        rw [escape]
        rfl
      rw [if_pos escape, apart]
      exact fits.of_same rfl rfl
    by_cases again : code = restartKey
    · have entered : enter log (.keyDown code) = .restart :: log := by
        rw [again]
        rfl
      rw [if_neg escape, if_pos again, entered]
      exact fits.restart
    have apart : enter log (.keyDown code) = log := by
      apply if_neg
      intro same
      exact again (Event.keyDown.inj same)
    rw [if_neg escape, if_neg again, apart]
    by_cases toggles : code = pauseKey ∧ window.halted = none
    · rw [if_pos toggles]
      exact fits.togglePause toggles.2
    · rw [if_neg toggles]
      exact fits.of_same rfl rfl

/-- So do the events of a batch. -/
theorem Fits.handleAll (fits : window.Fits name scale log) (events : List Event) :
    (events.foldl Window.handle window).Fits name scale (events.foldl enter log) := by
  induction events generalizing window log with
  | nil => exact fits
  | cons event rest inductionHypothesis => exact inductionHypothesis (fits.handle event)

/-- A fault halts the program: its machine is paused and silent. -/
theorem Fits.halt (fits : window.Fits name scale log) (running : window.machine.status = .running)
    (fault : Fault) : (window.halt fault).Fits name scale (.fault fault :: log) := by
  obtain ⟨status, clock⟩ := Machine.setStatus_keeps window.machine window.machine.status.pause
  have paused : window.machine.pause.status = .paused := by
    rw [Machine.pause, status, running]
    rfl
  have silent : window.machine.pause.beeper.active = false := by
    have told : ({ window.machine with status := window.machine.status.pause } : Machine).lostTime? =
        none := Machine.lostTime_of_start fits.time
    have follows := (Machine.follows_iff_active _).mp (Machine.adjustBeeper_follows told)
    change window.machine.pause.beeper.active = window.machine.pause.wantsTone at follows
    rw [follows, Machine.wantsTone, Machine.isRunning, paused]
    rfl
  let followed : Window := window.follow window.machine.pause
  have holds : ({ followed with
      halted := some fault.name
      failed := true
      errors := ("Execution halted: " ++ fault.message) :: followed.errors } : Window).Holds name
        scale (.fault fault :: log) :=
    { named := fits.named
      scaled := fits.scaled
      time := by
        change window.machine.pause.clock.elapsed = 0
        rw [Machine.pause, clock]
        exact fits.time
      on := by
        change window.machine.pause.status ≠ .stopped
        rw [paused]
        decide
      size := (window.follow_shows _).2.1.trans fits.size
      halted := rfl
      rests := fun _ => ⟨paused, silent⟩ }
  apply holds.showState
  intro none
  cases none

/-- A frame leaves a caption that fits, and enters the fault that it meets. -/
theorem Fits.frame (fits : window.Fits name scale log) :
    window.frame.Fits name scale
      (match window.machine.runFrame.1.stop with
        | some (.fault fault) => .fault fault :: log
        | _ => log) := by
  obtain ⟨clock, status⟩ := window.machine.runFrame_keeps
  cases going : window.halted with
  | some reason =>
    have isSome : window.halted.isSome = true := by rw [going]; rfl
    have idle : window.machine.isRunning = false := by
      rw [Machine.isRunning, (fits.rests isSome).1]
      rfl
    rw [Machine.runFrame_of_paused idle, Window.frame, if_pos isSome]
    exact fits
  | none =>
    have goesOn : ¬window.halted.isSome = true := by simp [going]
    have next : (window.follow window.machine.runFrame.1.machine).Fits name scale log := by
      refine ⟨fits.toHolds.follow (clock ▸ fits.time) (status ▸ fits.on) ?_, ?_⟩
      · exact fun halted => absurd halted goesOn
      · rw [(window.follow_shows _).1]
        refine fits.caption.trans ?_
        change _ = some (Window.caption (some name) (!window.machine.runFrame.1.machine.isRunning)
          window.halted)
        rw [Machine.isRunning, Machine.isRunning, status]
    rw [Window.frame, if_neg goesOn]
    cases stop : window.machine.runFrame.1.stop with
    | none =>
      simp only [stop]
      exact next
    | some found =>
      cases found with
      | number misuse =>
        simp only [stop]
        exact { next with }
      | fault fault =>
        simp only [stop]
        apply next.halt
        change window.machine.runFrame.1.machine.status = .running
        rw [status]
        cases running : window.machine.isRunning with
        | true => exact beq_iff_eq.mp running
        | false =>
          rw [Machine.runFrame_of_paused running] at stop
          cases stop

/-- What the window shows at the end of a turn. -/
structure Shown (window : Window) (name : String) (scale : Nat) (earlier : List Request) : Prop where
  /-- The picture is shown, and then the turn waits for the next. -/
  requests : ∃ picture,
    window.requests = .pace turnRate :: .flip :: .show picture :: earlier ∧
      window.machine.screen.picture? scale true = .ok picture ∧
      (picture.width, picture.height) =
        (window.machine.screen.width * scale, window.machine.screen.height * scale)
  caption : lastCaption? earlier =
    some (Window.caption (some name) (!window.machine.isRunning) window.halted)
  size : lastSize? earlier =
    some (window.machine.screen.width * scale, window.machine.screen.height * scale)

/-- The size is set where it does not fit the screen. -/
theorem Fits.fitted (fits : window.Fits name scale log) :
    let fitted := if window.size = window.fitting then window else window.resize
    fitted.Fits name scale log ∧ fitted.size = fitted.fitting := by
  dsimp only
  split
  case isTrue same => exact ⟨fits, same⟩
  case isFalse => exact ⟨{ fits with size := rfl }, rfl⟩

/-- To show the screen leaves caption and size as they fit. -/
theorem Fits.present (fits : window.Fits name scale log) (enlarged : 0 < scale) :
    window.present.Fits name scale log ∧
      ∃ earlier, window.present.Shown name scale earlier := by
  obtain ⟨fit, size⟩ := fits.fitted
  rw [Window.present]
  generalize (if window.size = window.fitting then window else window.resize) = fitted at *
  rw [fitting, fit.scaled] at size
  refine ⟨{ fit with }, fitted.requests, ?_⟩
  constructor
  case requests =>
    refine ⟨fitted.machine.screen.picture fitted.scale, rfl, ?_, ?_⟩
    · have positive : ¬(scale : Int) ≤ 0 := by omega
      rw [Screen.picture?, if_neg positive, fit.scaled]
      rfl
    · rw [fit.scaled]
      rfl
  case caption => exact fit.caption
  case size => exact fit.size.trans (congrArg some size)

/-- To show the screen changes neither the machine nor what is known of it. -/
theorem present_keeps (window : Window) :
    window.present.machine = window.machine ∧ window.present.halted = window.halted ∧
      window.present.broken = window.broken := by
  unfold Window.present
  split
  · exact ⟨rfl, rfl, rfl⟩
  · exact ⟨rfl, rfl, rfl⟩

/-- Nothing of a window's machine has changed but the keypad, and it is halted as before. -/
structure Idles (before after : Window) : Prop where
  machine : after.machine = { before.machine with keypad := after.machine.keypad }
  halted : after.halted = before.halted

theorem Idles.refl (window : Window) : window.Idles window := ⟨rfl, rfl⟩

theorem Idles.trans {before middle after : Window} (first : before.Idles middle)
    (second : middle.Idles after) : before.Idles after where
  machine := by rw [second.machine, first.machine]
  halted := second.halted.trans first.halted

/-- A window that is halted idles through all events but the restart key. -/
theorem idles_handle (halted : window.halted.isSome = true) {event : Event}
    (other : event ≠ .keyDown restartKey) : window.Idles (window.handle event) := by
  cases event with
  | quit => exact ⟨rfl, rfl⟩
  | keyUp code => exact ⟨rfl, rfl⟩
  | other => exact .refl window
  | keyDown code =>
    change window.Idles (window.press code)
    unfold press
    split
    · exact ⟨rfl, rfl⟩
    · split
      next again => exact absurd (congrArg Event.keyDown again) other
      next =>
        split
        next toggles =>
          rw [toggles.2] at halted
          cases halted
        next => exact ⟨rfl, rfl⟩

/-- So it does through the events of a batch. -/
theorem idles_handleAll (halted : window.halted.isSome = true) {events : List Event}
    (others : .keyDown restartKey ∉ events) : window.Idles (events.foldl Window.handle window) := by
  induction events generalizing window with
  | nil => exact .refl window
  | cons event rest inductionHypothesis =>
    rw [List.mem_cons, not_or] at others
    have first := idles_handle halted (Ne.symm others.1)
    exact first.trans (inductionHypothesis (first.halted ▸ halted) others.2)

/-- So it does through a turn, for it runs no frame. -/
theorem idles_turn (halted : window.halted.isSome = true) {events : List Event}
    (others : .keyDown restartKey ∉ events) : window.Idles (window.turn events) := by
  have handled := idles_handleAll halted others
  have still : (events.foldl Window.handle window).halted.isSome = true := handled.halted ▸ halted
  rw [turn, Window.frame, if_pos still]
  split
  · exact handled
  · obtain ⟨machine, reason, _⟩ := (events.foldl Window.handle window).present_keeps
    refine ⟨?_, reason.trans handled.halted⟩
    rw [machine]
    exact handled.machine

/-- So it does through any number of turns. -/
theorem idles_turns (halted : window.halted.isSome = true) {script : List (List Event)}
    (others : ∀ events ∈ script, .keyDown restartKey ∉ events) :
    window.Idles (script.foldl turn window) := by
  induction script generalizing window with
  | nil => exact .refl window
  | cons events rest inductionHypothesis =>
    obtain ⟨here, further⟩ := List.forall_mem_cons.mp others
    have first := idles_turn halted here
    exact first.trans (inductionHypothesis (first.halted ▸ halted) further)

/-- How a halted window rests: its machine is paused and silent, the pause key does nothing,
and until the restart key goes down, nothing of the machine changes but its keypad. -/
structure Rests (window : Window) : Prop where
  paused : window.machine.status = .paused
  silent : window.machine.beeper.active = false
  pauseKey : window.handle (.keyDown pauseKey) = window
  idles : ∀ (script : List (List Event)) (events : List Event),
    (∀ earlier ∈ script, .keyDown restartKey ∉ earlier) → .keyDown restartKey ∉ events →
      window.Idles (events.foldl Window.handle (script.foldl turn window))

/-- A window that is halted rests. -/
theorem Fits.rest (fits : window.Fits name scale log) (halted : window.halted.isSome = true) :
    window.Rests := by
  obtain ⟨paused, silent⟩ := fits.rests halted
  constructor
  case paused => exact paused
  case silent => exact silent
  case pauseKey =>
    have blocked : ¬(pauseKey = pauseKey ∧ window.halted = none) := by
      rintro ⟨_, going⟩
      rw [going] at halted
      cases halted
    change window.press pauseKey = window
    rw [press, if_neg (by decide), if_neg (by decide), if_neg blocked]
    rfl
  case idles =>
    intro script events before here
    have turned := idles_turns halted before
    exact turned.trans (idles_handleAll (turned.halted ▸ halted) here)

/-- The latest incident is a fault exactly if no restart came after one. -/
theorem haltOf_isSome_iff :
    (haltOf log).isSome = true ↔
      ∃ fault earlier later, log = later ++ .fault fault :: earlier ∧ .restart ∉ later := by
  constructor
  · intro halted
    unfold haltOf at halted
    split at halted
    next fault earlier => exact ⟨fault, earlier, [], rfl, List.not_mem_nil⟩
    next => cases halted
  · rintro ⟨fault, earlier, later, rfl, others⟩
    cases later with
    | nil => rfl
    | cons latest rest =>
      cases latest with
      | restart => exact absurd List.mem_cons_self others
      | fault other => rfl

/-- A turn leaves a window that fits, and if it does not break, one that has shown its screen. -/
theorem Fits.turn (fits : window.Fits name scale log) (enlarged : 0 < scale)
    (events : List Event) :
    (window.turn events).Fits name scale (window.enterTurn log events) ∧
      ((window.turn events).broken = none →
        ∃ earlier, (window.turn events).Shown name scale earlier) := by
  have framed : (events.foldl Window.handle window).frame.Fits name scale
      (window.enterTurn log events) := (fits.handleAll events).frame
  rw [Window.turn]
  split
  next broken =>
    refine ⟨framed, ?_⟩
    intro whole
    rw [whole] at broken
    cases broken
  next =>
    obtain ⟨presented, shown⟩ := framed.present enlarged
    exact ⟨presented, fun _ => shown⟩

/-- A window around a program that was just loaded fits. -/
theorem fits_create {start machine : Machine} {disk : Disk} {path : Disk.Path}
    {dialect : Option Dialect} {rom : Rom}
    (loaded : start.loadFile disk path dialect = .ok (rom, machine)) (scale : Nat) :
    (create machine rom.name scale).Fits rom.name scale [] := by
  obtain ⟨running, clock⟩ := Machine.loadFile_ready loaded
  have time : machine.clock.elapsed = 0 := by
    rw [clock]
    rfl
  have holds : (Window.resize ⟨machine, rom.name, scale, (0, 0), none, false, none, false,
      [.start], [], []⟩).Holds rom.name scale [] :=
    { named := rfl
      scaled := rfl
      time
      on := by
        change machine.status ≠ .stopped
        rw [running]
        nofun
      size := rfl
      halted := rfl
      rests := nofun }
  apply holds.showState
  intro _
  change false = !machine.isRunning
  rw [Machine.isRunning, running]
  rfl

/-- What is true of a window whenever it shows its screen, by what has happened until then. -/
structure Faithful (window : Window) (name : String) (scale : Nat) (log : List Incident) :
    Prop where
  /-- The caption that was set last tells the state, and picture and window have the size of
  the screen. -/
  shown : ∃ earlier, window.Shown name scale earlier
  /-- The program is halted exactly if a frame has met a fault and no restart came after it. -/
  halted : window.halted.isSome = true ↔
    ∃ fault earlier later, log = later ++ .fault fault :: earlier ∧ .restart ∉ later
  /-- The latest incident is why. -/
  reason : ∀ reason ∈ window.halted,
    ∃ fault earlier, log = .fault fault :: earlier ∧ fault.name = reason
  rests : window.halted.isSome = true → window.Rests

/-- A window that fits and has shown its screen is faithful. -/
theorem Fits.faithful (fits : window.Fits name scale log)
    (shown : ∃ earlier, window.Shown name scale earlier) : window.Faithful name scale log := by
  constructor
  case shown => exact shown
  case halted =>
    rw [fits.halted]
    exact haltOf_isSome_iff
  case reason =>
    intro reason halted
    have told : haltOf log = some reason := fits.halted.symm.trans halted
    unfold haltOf at told
    split at told
    next fault earlier => exact ⟨fault, earlier, rfl, Option.some.inj told⟩
    next => cases told
  case rests => exact fits.rest

/-- Through a whole story a window is faithful whenever it shows its screen. -/
theorem Fits.story (fits : window.Fits name scale log) (enlarged : 0 < scale)
    (script : List (List Event)) :
    ∀ told ∈ window.story log script, told.1.broken = none → told.1.Faithful name scale told.2 := by
  induction script generalizing window log with
  | nil =>
    intro told member whole
    obtain rfl := List.mem_singleton.mp member
    obtain ⟨turned, shown⟩ := fits.turn enlarged [.quit]
    exact turned.faithful (shown whole)
  | cons events rest inductionHypothesis =>
    obtain ⟨turned, shown⟩ := fits.turn enlarged events
    intro told member whole
    rcases List.mem_cons.mp member with rfl | later
    · exact turned.faithful (shown whole)
    · split at later
      next => cases later
      next => exact inductionHypothesis turned told later whole

/-- The screen is not shown by what shows the state. -/
theorem showState_flips (window : Window) (paused : Bool) :
    (window.showState paused).requests.count .flip = window.requests.count .flip :=
  List.count_cons_of_ne (by nofun)

/-- Nor by an event. -/
theorem handle_flips (window : Window) (event : Event) :
    (window.handle event).requests.count .flip = window.requests.count .flip := by
  cases event with
  | quit | keyUp | other => rfl
  | keyDown code =>
    change (window.press code).requests.count .flip = _
    unfold press
    split
    · rfl
    · split
      · rw [restart, showState_flips]
        exact (window.follow_shows _).2.2
      · split
        · rw [togglePause, showState_flips]
          exact (window.follow_shows _).2.2
        · rfl

/-- Nor by the events of a batch. -/
theorem handleAll_flips (window : Window) (events : List Event) :
    (events.foldl Window.handle window).requests.count .flip = window.requests.count .flip := by
  induction events generalizing window with
  | nil => rfl
  | cons event rest inductionHypothesis =>
    exact (inductionHypothesis (window.handle event)).trans (handle_flips window event)

/-- Nor by a frame. -/
theorem frame_flips (window : Window) :
    window.frame.requests.count .flip = window.requests.count .flip := by
  unfold Window.frame
  split
  · rfl
  · dsimp only
    split
    · exact (window.follow_shows _).2.2
    · rw [halt, showState_flips]
      exact (follow_shows _ _).2.2.trans (window.follow_shows _).2.2
    · exact (window.follow_shows _).2.2

/-- A turn shows the screen once, unless it breaks. -/
theorem turn_flips (window : Window) (events : List Event) :
    (window.turn events).requests.count .flip =
      window.requests.count .flip + if (window.turn events).broken.isNone then 1 else 0 := by
  have framed : (events.foldl Window.handle window).frame.requests.count .flip =
      window.requests.count .flip := (frame_flips _).trans (handleAll_flips window events)
  rw [turn]
  generalize (events.foldl Window.handle window).frame = next at *
  have presented : next.present.requests.count .flip = next.requests.count .flip + 1 := by
    unfold Window.present
    split
    · simp [request]
    · simp [request, resize]
  obtain ⟨_, _, still⟩ := next.present_keeps
  rw [← framed]
  cases broken : next.broken with
  | some misuse => simp [broken]
  | none => simp [broken, presented, still]

/-- A story shows the screen once in every turn that does not break. -/
theorem play_flips (window : Window) (log : List Incident) (script : List (List Event)) :
    (window.play script).requests.count .flip =
      window.requests.count .flip +
        (window.story log script).countP fun told => told.1.broken.isNone := by
  induction script generalizing window log with
  | nil =>
    rw [play, turn_flips]
    simp [story]
  | cons events rest inductionHypothesis =>
    rw [play, story, List.countP_cons]
    dsimp only
    split
    · rw [turn_flips, List.countP_nil, Nat.zero_add]
    · rw [inductionHypothesis _ (window.enterTurn log events), turn_flips, Nat.add_assoc,
        Nat.add_comm (List.countP _ _)]

/-- Around a program that was just loaded, in an enlarged window, every picture of a script is
one of a faithful window. -/
theorem story_faithful {start machine : Machine} {disk : Disk} {path : Disk.Path}
    {dialect : Option Dialect} {rom : Rom}
    (loaded : start.loadFile disk path dialect = .ok (rom, machine)) {scale : Nat}
    (enlarged : 0 < scale) (script : List (List Event)) :
    let window := create machine rom.name scale
    let story := window.story [] script
    story.getLast?.map Prod.fst = some (window.play script) ∧
      (window.play script).requests.count .flip =
        (story.countP fun told => told.1.broken.isNone) ∧
      ∀ told ∈ story, told.1.broken = none → told.1.Faithful rom.name scale told.2 := by
  intro window story
  refine ⟨window.getLast_story [] script, ?_, ?_⟩
  · have flips := window.play_flips [] script
    rwa [show window.requests.count .flip = 0 from rfl, Nat.zero_add] at flips
  · exact (fits_create loaded scale).story enlarged script

/-- A frame of a program that meets a fault halts it without breaking the window. -/
theorem turn_of_fault {fault : Fault} (going : window.halted = none) (whole : window.broken = none)
    (stop : window.machine.runFrame.1.stop = some (.fault fault)) :
    (window.turn []).broken = none ∧ window.enterTurn log [] = .fault fault :: log := by
  constructor
  · have framed : window.frame.broken = none := by
      simp only [Window.frame, going, Option.isSome_none, Bool.false_eq_true, if_false, stop]
      exact whole
    have presented : (window.turn []) = window.frame.present := by
      change (if window.frame.broken.isSome then _ else _ : Window) = _
      rw [framed]
      rfl
    rw [presented, window.frame.present_keeps.2.2]
    exact framed
  · rw [enterTurn, List.foldl_nil, stop]
    rfl

/-- A disk with one file, whose first word means nothing. -/
def faultDisk : Disk :=
  ⟨["work"], [(["work"], .folder), (["work", "fault.ch8"], .file [0x80, 0x08])]⟩

/-- The program in it. -/
def faultRom : Rom := ⟨[0x80, 0x08], "FAULT", ⟨0, ["fault.ch8"]⟩⟩

/-- A machine of two steps a frame loads it, and meets a fault in its first frame. -/
theorem loadFile_faultDisk :
    ∃ machine, (Machine.ofRate (2 * 60) .chip8 0 .mute).loadFile faultDisk faultRom.path none =
        .ok (faultRom, machine) ∧
      machine.runFrame.1.stop = some (.fault (.unknownOpcode 0x8008 0x200)) := by
  have read : Rom.read faultDisk faultRom.path
      (Machine.ofRate (2 * 60) .chip8 0 .mute).memory.capacity = .ok faultRom := by
    change Rom.read _ _ (Memory.standard.capacity : Int) = _
    rw [Memory.standard_capacity]
    rfl
  obtain ⟨beeper, started⟩ := Machine.start_eq (.ofRate (2 * 60) .chip8 0 .mute)
    (Memory.standard.install faultRom.image) none
  have area : Memory.programStart ≤ Memory.standard.size := by decide +kernel
  have fits : faultRom.image.length ≤ Memory.standard.capacity := by decide +kernel
  refine ⟨{ (Machine.ofRate (2 * 60) .chip8 0 .mute).start
    (Memory.standard.install faultRom.image) none with rom := some faultRom }, ?_, ?_⟩
  · rw [Machine.loadFile, read]
    rfl
  rw [started]
  apply Machine.runFrame_of_fault rfl
  · exact @FrameClock.stepsPerFrame_of_multiple 2 60 0 (by decide) (by decide +kernel) (by decide)
  · rw [Machine.step_eq_error]
    refine .inr ⟨0x8008, ?_, .inl ⟨rfl, rfl⟩⟩
    exact Machine.fetch_installed rfl area fits 0 rfl rfl (by decide)

/-- The first frame halts the program, and the window is faithful through the script. -/
theorem story_faithful_of_faultDisk :
    let script : List (List Event) := [[], [.keyDown pauseKey], [.keyDown restartKey]]
    ∃ machine, (Machine.ofRate (2 * 60) .chip8 0 .mute).loadFile faultDisk faultRom.path none =
        .ok (faultRom, machine) ∧
      0 < 10 ∧
      let window := create machine faultRom.name 10
      let first := (window.turn [], [Incident.fault (.unknownOpcode 0x8008 0x200)])
      first ∈ window.story [] script ∧ first.1.broken = none ∧ first.1.halted.isSome = true ∧
        ∀ told ∈ window.story [] script, told.1.broken = none →
          told.1.Faithful faultRom.name 10 told.2 := by
  intro script
  obtain ⟨machine, loaded, stop⟩ := loadFile_faultDisk
  obtain ⟨_, _, faithful⟩ := story_faithful loaded (by decide : 0 < 10) script
  refine ⟨machine, loaded, by decide, ?_⟩
  intro window first
  obtain ⟨whole, entered⟩ := @turn_of_fault window [] _ rfl rfl stop
  have member : first ∈ window.story [] script := by
    simp only [first, ← entered]
    exact List.mem_cons_self
  have halted := (faithful first member whole).halted.mpr ⟨_, [], [], rfl, List.not_mem_nil⟩
  exact ⟨member, whole, halted, faithful⟩

end Window

end Chip8
