import Chip8.Machine.Run
import Chip8.Screen.Picture
import Chip8.Window.Caption
import Chip8.Window.Keys

/-!
# The window

The window shows a machine and hands it the host's keys. In every turn it
handles the events that have arrived, runs one frame, and shows the screen. A
fault halts the program: no more frames are run until the program is restarted,
and the caption says why.

Everything that the window and the beeper ask of the host is recorded in order.
-/

namespace Chip8

/-- What the host reports. -/
inductive Window.Event where
  | quit
  | keyDown (code : Int)
  | keyUp (code : Int)
  | other
deriving DecidableEq, Repr

/-- What is asked of the host. -/
inductive Window.Request where
  | start
  | setSize (width height : Int)
  | setCaption (text : String)
  /-- Put a picture into the upper left corner. -/
  | show (picture : Picture)
  | flip
  /-- Wait for the next of so many turns in a second. -/
  | pace (turns : Nat)
  | sound (request : SoundRequest)
  | quit
deriving DecidableEq, Repr

/-- The window. Requests, notices and errors have their latest entry first. -/
structure Window where
  machine : Machine
  name : String
  scale : Nat
  /-- The size that was set last. -/
  size : Int × Int
  /-- The kind of the fault that halted the program. -/
  halted : Option String
  /-- Whether any frame has failed. -/
  failed : Bool
  /-- Why the length of a frame cannot be told. -/
  broken : Option Number.Misuse
  closing : Bool
  requests : List Window.Request
  notices : List String
  errors : List String

namespace Window

/-- Turns in a second. -/
def turnRate : Nat := 60

def request (window : Window) (asked : Request) : Window :=
  { window with requests := asked :: window.requests }

/-- The size of the window that fits the screen. -/
def fitting (window : Window) : Int × Int :=
  (window.machine.screen.width * window.scale, window.machine.screen.height * window.scale)

/-- Set the size of the window to that of the screen. -/
def resize (window : Window) : Window :=
  { window with size := window.fitting }.request (.setSize window.fitting.1 window.fitting.2)

/-- Show the state in the caption. -/
def showState (window : Window) (paused : Bool) : Window :=
  window.request (.setCaption (caption (some window.name) paused window.halted))

/-- Replace the machine, and pass on what its beeper asks for and reports. -/
def follow (window : Window) (machine : Machine) : Window :=
  let ((asked, reported), beeper) := machine.beeper.collect
  { window with
    machine := { machine with beeper }
    requests := (asked.map Request.sound).reverse ++ window.requests
    notices := reported.reverse ++ window.notices }

/-- A window around a loaded machine. -/
def create (machine : Machine) (name : String) (scale : Nat) : Window :=
  let bare : Window := ⟨machine, name, scale, (0, 0), none, false, none, false, [], [], []⟩
  ((bare.request .start).resize).showState false

/-- Restart the program, also after a halt. -/
def restart (window : Window) : Window :=
  { (window.follow window.machine.reset.resume) with halted := none }.showState false

/-- Pause a running machine, or resume one that does not run. -/
def togglePause (window : Window) : Window :=
  let next :=
    window.follow
      (if window.machine.isRunning then window.machine.pause else window.machine.resume)
  next.showState (!next.machine.isRunning)

/-- Hand a key to the keypad. -/
def pass (window : Window) (code : Int) (pressed : Bool) : Window :=
  { window with
    machine :=
      { window.machine with keypad := (handleKey window.machine.keypad code pressed).2 } }

/-- A key that goes down closes, restarts or pauses, or is handed on. A halted
program cannot be paused. -/
def press (window : Window) (code : Int) : Window :=
  if code = escapeKey then { window with closing := true }
  else if code = restartKey then window.restart
  else if code = pauseKey ∧ window.halted = none then window.togglePause
  else window.pass code true

def handle (window : Window) : Event → Window
  | .quit => { window with closing := true }
  | .keyDown code => window.press code
  | .keyUp code => window.pass code false
  | .other => window

/-- Halt the program on a fault. -/
def halt (window : Window) (fault : Fault) : Window :=
  let next := window.follow window.machine.pause
  { next with
    halted := some fault.name
    failed := true
    errors := ("Execution halted: " ++ fault.message) :: next.errors }.showState false

/-- Run one frame, unless the program is halted. -/
def frame (window : Window) : Window :=
  if window.halted.isSome then window
  else
    let run := window.machine.runFrame.1
    let next := window.follow run.machine
    match run.stop with
    | none => next
    | some (.fault fault) => next.halt fault
    | some (.number misuse) => { next with broken := some misuse }

/-- Show the screen in a window of its size. -/
def present (window : Window) : Window :=
  let fitted := if window.size = window.fitting then window else window.resize
  ((fitted.request (.show (fitted.machine.screen.picture fitted.scale))).request .flip).request
    (.pace turnRate)

/-- One turn. A closing window still completes its turn, a broken one does not. -/
def turn (window : Window) (events : List Event) : Window :=
  let next := (events.foldl handle window).frame
  if next.broken.isSome then next else next.present

/-- Turn until the window closes or breaks. When no more events are known the host quits. -/
def play (window : Window) : List (List Event) → Window
  | [] => window.turn [.quit]
  | events :: rest =>
    let next := window.turn events
    if next.closing || next.broken.isSome then next else next.play rest

/-- Silence the machine and leave. -/
def close (window : Window) : Window := (window.follow window.machine.clearSound).request .quit

end Window

end Chip8
