import Chip8.Proofs.Moments
import Chip8.Proofs.Turns

/-!
# Keystrokes

Every key of the keypad has one host key that stands for it. The keypad forgets nothing and makes
nothing up: whether a key is down is told by the last event of its host key, and where there was
none, by the keypad at the beginning.

No event of another key has a part in this, and none of what else happens in a turn. Escape, the
restart key and the pause key stand for no key of the keypad, so that nothing is lost where they
are taken for themselves. A restart leaves the keypad as it is, and programs only read it.
-/

namespace Chip8

/-- To set a key leaves the others as they are. -/
theorem Keypad.isPressed_set (keypad : Keypad) (key other : Fin 16) (pressed : Bool) :
    (keypad.set key pressed).isPressed other =
      if key = other then pressed else keypad.isPressed other := by
  simp [set, isPressed, Vector.getElem_set, Fin.ext_iff]

/-- To restart a machine, to pause it or to resume it leaves its keys as they are. -/
theorem Machine.control_keypad (machine : Machine) :
    machine.reset.keypad = machine.keypad ∧ machine.pause.keypad = machine.keypad ∧
      machine.resume.keypad = machine.keypad := by
  refine ⟨?_, ?_, ?_⟩
  · rw [reset_eq, adjustBeeper_eq]
    rfl
  · rw [pause, setStatus, adjustBeeper_eq]
  · rw [resume, setStatus, adjustBeeper_eq]

/-- No session presses or releases a key, however it ends. -/
theorem Session.run_keypad (limits : Limits) (machine : Machine) :
    (run limits machine).machine.keypad = machine.keypad := by
  refine congrArg Machine.Setting.keypad
    (run_keeps (·.setting = machine.setting) ?_ ?_ ?_ rfl limits)
  · exact fun other same => (Machine.afterStep_setting other).trans same
  · exact fun other same => (Machine.tick_setting other).trans same
  · exact fun _ _ _ same _ => same

namespace Window

variable {window : Window} {code : Int} {key : Fin 16}

/-- What an event does to a host key: it goes down, goes up, or stays. -/
def strokeOf? (code : Int) : Event → Option Bool
  | .keyDown other => if other = code then some true else none
  | .keyUp other => if other = code then some false else none
  | .quit | .other => none

/-- Whether a host key went down or up in its last event. -/
def lastStroke? (code : Int) (events : List Event) : Option Bool :=
  events.reverse.findSome? (strokeOf? code)

theorem lastStroke_append (earlier later : List Event) :
    lastStroke? code (earlier ++ later) =
      (lastStroke? code later).or (lastStroke? code earlier) := by
  rw [lastStroke?, List.reverse_append, List.findSome?_append]
  rfl

/-- The latest event decides, if it is one of the host key. -/
theorem lastStroke_cons (event : Event) (later : List Event) :
    lastStroke? code (event :: later) = (lastStroke? code later).or (strokeOf? code event) := by
  simp [lastStroke?, List.findSome?_append]

/-- Every key of the keypad has a host key that stands for it, and just one. -/
theorem exists_code (key : Fin 16) :
    ∃ code : Int, ∀ other, keyOf? other = some key ↔ other = code := by
  obtain ⟨entry, _, stands, alone⟩ : ∃ entry ∈ keyMap, keyOf? entry.1.toNat = some key ∧
      ∀ other ∈ keyMap, other.2 = key → other.1 = entry.1 := by decide +revert
  refine ⟨entry.1.toNat, fun other => ⟨?_, ?_⟩⟩
  · intro found
    obtain ⟨known, present, same⟩ := Option.map_eq_some_iff.mp found
    have shown := List.find?_some present
    rw [← eq_of_beq shown, alone known (List.mem_of_find?_eq_some present) same]
  · rintro rfl
    exact stands

/-- What controls the window stands for no key. -/
theorem control_stands_for_none :
    keyOf? escapeKey = none ∧ keyOf? restartKey = none ∧ keyOf? pauseKey = none := by decide

/-- So neither a restart nor a pause presses or releases a key. -/
theorem control_keypad (window : Window) :
    window.restart.machine.keypad = window.machine.keypad ∧
      window.togglePause.machine.keypad = window.machine.keypad := by
  constructor
  · change window.machine.reset.resume.keypad = _
    rw [window.machine.reset.control_keypad.2.2, window.machine.control_keypad.1]
  · change (if _ then window.machine.pause else window.machine.resume).keypad = _
    split
    · exact window.machine.control_keypad.2.1
    · exact window.machine.control_keypad.2.2

/-- Whatever the state of the window, an event of its host key sets a key, and any other event leaves
it as it is. -/
theorem isPressed_handle (stands : ∀ other, keyOf? other = some key ↔ other = code)
    (window : Window) (event : Event) :
    (window.handle event).machine.keypad.isPressed key =
      (strokeOf? code event).getD (window.machine.keypad.isPressed key) := by
  have passed (other : Int) (pressed : Bool) :
      (window.pass other pressed).machine.keypad.isPressed key =
        if other = code then pressed else window.machine.keypad.isPressed key := by
    simp only [pass, handleKey, ← stands]
    cases known : keyOf? other with
    | none => simp
    | some found => simp [Keypad.isPressed_set]
  obtain ⟨escape, restart, pause⟩ := control_stands_for_none
  have apart {control : Int} (free : keyOf? control = none) :
      strokeOf? code (.keyDown control) = none := by
    refine if_neg fun same => ?_
    rw [(stands control).mpr same] at free
    cases free
  cases event with
  | quit | other => rfl
  | keyUp other =>
    rw [handle, passed, strokeOf?]
    split <;> rfl
  | keyDown other =>
    rw [handle, press]
    split
    next same =>
      rw [same, apart escape]
      rfl
    next =>
      split
      next same =>
        rw [same, apart restart, window.control_keypad.1]
        rfl
      next =>
        split
        next toggles =>
          rw [toggles.1, apart pause, window.control_keypad.2]
          rfl
        next =>
          rw [passed, strokeOf?]
          split <;> rfl

/-- Through the events of a batch the last one of the host key decides. -/
theorem isPressed_handleAll (stands : ∀ other, keyOf? other = some key ↔ other = code)
    (window : Window) (events : List Event) :
    (events.foldl handle window).machine.keypad.isPressed key =
      (lastStroke? code events).getD (window.machine.keypad.isPressed key) := by
  induction events generalizing window with
  | nil => rfl
  | cons event rest inductionHypothesis =>
    rw [List.foldl_cons, inductionHypothesis, isPressed_handle stands, lastStroke_cons]
    cases lastStroke? code rest <;> rfl

/-- A frame presses and releases no key, whether it is run, fails, or is left out. -/
theorem frame_keypad (window : Window) : window.frame.machine.keypad = window.machine.keypad := by
  have ran : window.machine.runFrame.1.machine.keypad = window.machine.keypad := by
    obtain ⟨moves, ended⟩ := window.machine.runFrame_moves
    rw [ended]
    exact congrArg Machine.Setting.keypad (Machine.follow_setting _ moves)
  unfold Window.frame
  split
  · rfl
  · dsimp only
    split
    · exact ran
    · change (window.follow window.machine.runFrame.1.machine).machine.pause.keypad = _
      rw [Machine.control_keypad _ |>.2.1]
      exact ran
    · exact ran

/-- At the end of a turn the keys are as its events have left them. -/
theorem turn_keypad (window : Window) (events : List Event) :
    (window.turn events).machine.keypad = (events.foldl handle window).machine.keypad := by
  rw [turn]
  split
  · exact frame_keypad _
  · rw [(present_keeps _).1]
    exact frame_keypad _

/-- Turn by turn the last event of the host key decides. -/
theorem isPressed_turns (stands : ∀ other, keyOf? other = some key ↔ other = code)
    (window : Window) (script : List (List Event)) :
    (script.foldl turn window).machine.keypad.isPressed key =
      (lastStroke? code script.flatten).getD (window.machine.keypad.isPressed key) := by
  induction script generalizing window with
  | nil => rfl
  | cons events rest inductionHypothesis =>
    rw [List.foldl_cons, inductionHypothesis, turn_keypad, isPressed_handleAll stands,
      List.flatten_cons, lastStroke_append]
    cases lastStroke? code rest.flatten <;> rfl

/-- So it does when the frame of a turn comes. -/
theorem isPressed_atFrame (stands : ∀ other, keyOf? other = some key ↔ other = code)
    (window : Window) (earlier : List (List Event)) (events : List Event) :
    (events.foldl handle (earlier.foldl turn window)).machine.keypad.isPressed key =
      (lastStroke? code (earlier.flatten ++ events)).getD
        (window.machine.keypad.isPressed key) := by
  rw [isPressed_handleAll stands, isPressed_turns stands, lastStroke_append]
  cases lastStroke? code events <;> rfl

/-- Where no key is down at the beginning, in every turn of a script a key is down as long as its
host key is: when the frame comes, the last event of the host key was that it went down. No frame
changes this, and neither does any other run of a program. -/
theorem keypad_follows_strokes {machine : Machine} (released : machine.keypad = .released)
    (name : String) (scale : Nat) (script : List (List Event)) :
    let window := create machine name scale
    window.play script = (window.batches script).foldl turn window ∧
      (∀ earlier events later, window.batches script = earlier ++ events :: later →
        let before := events.foldl handle (earlier.foldl turn window)
        let after := (earlier ++ [events]).foldl turn window
        after.machine.keypad = before.machine.keypad ∧
          ∀ key : Fin 16, ∃ code : Int, (∀ other, keyOf? other = some key ↔ other = code) ∧
            (before.machine.keypad.isPressed key = true ↔
              lastStroke? code (earlier.flatten ++ events) = some true)) ∧
      (∀ (played : Machine) (requests : List Chip8.Request),
        (∀ request ∈ requests, request.plays = true) →
          (played.serveAll requests).keypad = played.keypad) ∧
      ∀ (played : Machine) (limits : Session.Limits),
        (Session.run limits played).machine.keypad = played.keypad := by
  intro window
  refine ⟨window.play_eq_foldl script, ?_, ?_, ?_⟩
  · intro earlier events later _ before after
    refine ⟨?_, fun key => ?_⟩
    · simp only [after, List.foldl_append]
      exact turn_keypad _ events
    · obtain ⟨code, stands⟩ := exists_code key
      have start : window.machine.keypad.isPressed key = false := by
        change machine.keypad.isPressed key = false
        rw [released]
        simp [Keypad.released, Keypad.isPressed]
      refine ⟨code, stands, ?_⟩
      rw [isPressed_atFrame stands, start]
      cases lastStroke? code (earlier.flatten ++ events) <;> simp
  · intro played requests plays
    exact congrArg Machine.Setting.keypad (Machine.serveAll_setting plays)
  · exact fun played limits => Session.run_keypad limits played

/-- One key is held through a pause and a restart, and another is let go in between. -/
theorem keypad_follows_strokes_of_held :
    let machine := Machine.ofRate 700 .chip8 0 .mute
    let window := create machine "" 1
    let events := [.keyDown 113, .keyDown pauseKey, .keyDown 49, .keyUp 49, .keyDown restartKey]
    machine.keypad = .released ∧ (∃ later, window.batches [events] = events :: later) ∧
      (events.foldl handle window).machine.keypad.isPressed 4 = true ∧
      (events.foldl handle window).machine.keypad.isPressed 1 = false := by
  intro machine window events
  obtain ⟨_, frames, _⟩ := keypad_follows_strokes (rfl : machine.keypad = .released) "" 1 [events]
  obtain ⟨_, keys⟩ := frames [] events _ rfl
  obtain ⟨held, stands, down⟩ := keys 4
  obtain ⟨freed, standsToo, up⟩ := keys 1
  obtain rfl : 113 = held := (stands 113).mp (by decide)
  obtain rfl : 49 = freed := (standsToo 49).mp (by decide)
  refine ⟨rfl, ⟨_, rfl⟩, down.mpr (by decide), ?_⟩
  rw [Bool.eq_false_iff]
  exact fun pressed => absurd (up.mp pressed) (by decide)

end Window

end Chip8
