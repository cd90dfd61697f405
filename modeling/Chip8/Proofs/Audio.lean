import Chip8.Proofs.Surroundings

/-!
# The beeper and its device

A beeper is asked for one position after the other. What differs from the position asked for
last is a change, and is remembered with its time, whether audio is enabled or not and
whatever becomes of the device.

The device is opened with the first change. If this works, every change reaches it, so that
it plays while the beeper is on. If it does not, audio is disabled in the middle of this
first change, the reason is reported, and the device is left alone from then on. Either way
the first change is the only one that opens it.

The state of a beeper is told from its changes alone: first what it makes of them without
audio, with a device that works, and with one that does not, then that one more call leads
from one such state to the next.
-/

namespace Chip8

/-- The change to a position. -/
def Edge.turning (on : Bool) : Edge := if on then .on else .off

namespace Beeper

/-- Ask for one position after the other. -/
def setActiveAll (beeper : Beeper) (calls : List (Number × Bool)) : Beeper :=
  calls.foldl (fun beeper call => beeper.setActive call.1 call.2) beeper

theorem setActiveAll_append (beeper : Beeper) (first second : List (Number × Bool)) :
    beeper.setActiveAll (first ++ second) = (beeper.setActiveAll first).setActiveAll second :=
  List.foldl_append ..

/-- The calls that ask for another position than the one before, as changes with their times,
the earliest first. -/
def changesOf (on : Bool) : List (Number × Bool) → List Beep
  | [] => []
  | (time, next) :: rest =>
    if next = on then changesOf on rest else ⟨.turning next, time⟩ :: changesOf next rest

/-- The position to which changes lead, the earliest first, from a beeper that is off. -/
def position (changes : List Beep) : Bool :=
  match changes.getLast? with
  | some change => change.edge = .on
  | none => false

theorem position_concat (changes : List Beep) (on : Bool) (time : Number) :
    position (changes ++ [⟨.turning on, time⟩]) = on := by
  cases on <;> simp [position, Edge.turning]

/-- A history, the latest change first, in which on and off alternate from the first switching
on to the last change, which leads to this position. -/
def Alternates : List Beep → Bool → Prop
  | [], on => on = false
  | change :: earlier, on => change.edge = .turning on ∧ Alternates earlier !on

/-- One more change goes on alternating. -/
theorem Alternates.setActive {beeper : Beeper}
    (alternates : Alternates beeper.history beeper.active) (time : Number) (on : Bool) :
    Alternates (beeper.setActive time on).history (beeper.setActive time on).active := by
  rw [setActive_history, setActive_active, chronicle]
  split
  case isTrue same => exact same ▸ alternates
  case isFalse other =>
    have before : beeper.active = !on := Bool.eq_not.mpr (Ne.symm other)
    exact ⟨rfl, before ▸ alternates⟩

theorem Alternates.setActiveAll {beeper : Beeper}
    (alternates : Alternates beeper.history beeper.active) (calls : List (Number × Bool)) :
    Alternates (beeper.setActiveAll calls).history (beeper.setActiveAll calls).active := by
  induction calls generalizing beeper with
  | nil => exact alternates
  | cons call rest inductionHypothesis => exact inductionHypothesis (alternates.setActive ..)

/-- So does what a history was before. -/
theorem Alternates.suffix {history earlier : List Beep} {on : Bool}
    (alternates : Alternates history on) (before : earlier <:+ history) :
    ∃ position, Alternates earlier position := by
  induction history generalizing on with
  | nil => exact ⟨on, List.suffix_nil.mp before ▸ alternates⟩
  | cons change rest inductionHypothesis =>
    rcases List.suffix_cons_iff.mp before with rfl | further
    · exact ⟨on, alternates⟩
    · exact inductionHypothesis alternates.2 further

/-- A change that switches off follows one that switched on. -/
theorem Alternates.began {history earlier : List Beep} {on : Bool} {off : Beep}
    (alternates : Alternates history on) (told : off :: earlier <:+ history)
    (ended : off.edge = .off) :
    ∃ change older, earlier = change :: older ∧ change.edge = .on := by
  obtain ⟨position, edge, before⟩ := alternates.suffix told
  obtain rfl : position = false := by
    cases position with
    | false => rfl
    | true => cases ended.symm.trans edge
  cases earlier with
  | nil => cases before
  | cons change older => exact ⟨change, older, rfl, before.1⟩

/-- The beeper is on exactly if the latest change switched it on. -/
theorem Alternates.active_iff {history : List Beep} {on : Bool}
    (alternates : Alternates history on) :
    on = true ↔ ∃ time earlier, history = ⟨.on, time⟩ :: earlier := by
  cases history with
  | nil =>
    have off : on = false := alternates
    simp [off]
  | cons change earlier =>
    obtain ⟨edge, time⟩ := change
    have turned : edge = .turning on := alternates.1
    cases on <;> simp [turned, Edge.turning]

end Beeper

/-- How a device is opened: what is asked of it, and why it cannot be used, if so. -/
structure Opening where
  asked : List SoundRequest
  failure : Option String

/-- Take a channel of a device for which so much was asked already, and load the wave. -/
def Opening.load (tone : Tone) (before : List SoundRequest) : Opening :=
  match tone.wave with
  | .ok wave => ⟨before ++ [.openChannel 0, .loadWave wave], none⟩
  | .error misuse => ⟨before ++ [.openChannel 0], some misuse.message⟩

/-- A device has to be started unless it is so already. -/
def SoundDevice.opening (tone : Tone) : SoundDevice → Opening
  | .started => .load tone []
  | .idle => .load tone [.start tone.sampleRate]
  | .broken reason => ⟨[], some reason⟩

/-- Whether a device is to be started. -/
def SoundRequest.isStart : SoundRequest → Bool
  | .start _ => true
  | _ => false

/-- To open a device starts it once at most, and neither plays nor stops anything. -/
theorem SoundDevice.opening_asked (tone : Tone) (device : SoundDevice) :
    (device.opening tone).asked.countP (·.isStart) ≤ 1 ∧
      (device.opening tone).asked.count .playLooped = 0 ∧
      (device.opening tone).asked.count .stop = 0 := by
  have loaded (before : List SoundRequest) :
      (Opening.load tone before).asked.countP (·.isStart) = before.countP (·.isStart) ∧
        (Opening.load tone before).asked.count .playLooped = before.count .playLooped ∧
        (Opening.load tone before).asked.count .stop = before.count .stop := by
    unfold Opening.load
    split <;> exact ⟨List.countP_append, List.count_append, List.count_append⟩
  cases device with
  | broken reason => exact ⟨Nat.zero_le 1, rfl, rfl⟩
  | started =>
    obtain ⟨starts, plays, stops⟩ := loaded []
    exact ⟨starts.symm ▸ Nat.zero_le 1, plays, stops⟩
  | idle =>
    obtain ⟨starts, plays, stops⟩ := loaded [.start tone.sampleRate]
    exact ⟨starts.symm ▸ Nat.le_refl 1, plays, stops⟩

/-- What a change asks of a device that is open. -/
def Edge.asks (tone : Tone) : Edge → List SoundRequest
  | .on => [.setVolume tone.volume, .playLooped]
  | .off => [.stop]

/-- To switch on plays once, to switch off stops once, and neither starts the device. -/
theorem Edge.count_asks (tone : Tone) (changes : List Beep) :
    (changes.flatMap (·.edge.asks tone)).countP (·.isStart) = 0 ∧
      (changes.flatMap (·.edge.asks tone)).count .playLooped = changes.countP (·.edge = .on) ∧
      (changes.flatMap (·.edge.asks tone)).count .stop = changes.countP (·.edge = .off) := by
  induction changes with
  | nil => exact ⟨rfl, rfl, rfl⟩
  | cons change rest inductionHypothesis =>
    obtain ⟨starts, plays, stops⟩ := inductionHypothesis
    obtain ⟨edge, time⟩ := change
    simp only [List.flatMap_cons, List.countP_append, List.count_append, starts, plays, stops,
      List.countP_cons]
    cases edge with
    | on => exact ⟨rfl, Nat.add_comm .., Nat.zero_add _⟩
    | off => exact ⟨rfl, Nat.zero_add _, Nat.add_comm ..⟩

namespace Beeper

variable {beeper : Beeper} {tone : Tone} {device : SoundDevice} {changes : List Beep}

/-- The beeper after its device was opened, or could not be. -/
def openBy (beeper : Beeper) (opening : Opening) : Beeper :=
  let waiting := { beeper with requests := opening.asked.reverse ++ beeper.requests }
  match opening.failure with
  | none => { waiting with opened := true }
  | some reason => waiting.disable reason

/-- A device that is not open yet is opened as it can be. -/
theorem openDevice_eq (closed : beeper.opened = false) (enabled : beeper.enabled = true) :
    beeper.openDevice = beeper.openBy (beeper.device.opening beeper.tone) := by
  have prepared (waiting : Beeper) : waiting.prepare = waiting.openBy (.load waiting.tone []) := by
    cases wave : waiting.tone.wave <;>
      simp [prepare, request, wave, openBy, Opening.load, disable]
  have waits : (beeper.opened || !beeper.enabled) = false := by rw [closed, enabled]; rfl
  rw [openDevice, waits]
  cases known : beeper.device with
  | broken reason => rfl
  | started => exact prepared beeper
  | idle =>
    refine (prepared (beeper.request (.start beeper.tone.sampleRate))).trans ?_
    cases wave : beeper.tone.wave <;>
      simp [request, wave, openBy, SoundDevice.opening, Opening.load, disable]

/-- An open device is asked for every change. -/
theorem setActive_of_opened (opened : beeper.opened = true) (time : Number) {on : Bool}
    (change : on ≠ beeper.active) :
    beeper.setActive time on =
      { beeper with
        active := on
        history := ⟨.turning on, time⟩ :: beeper.history
        requests := ((Edge.turning on).asks beeper.tone).reverse ++ beeper.requests } := by
  rw [setActive, if_neg change]
  cases on with
  | true => simp [lineOn, record, openDevice, request, opened, Edge.turning, Edge.asks]
  | false => simp [lineOff, record, request, opened, Edge.turning, Edge.asks]

/-- The first change opens the device, and reaches it if it works. -/
theorem setActive_of_closed (closed : beeper.opened = false) (enabled : beeper.enabled = true)
    (off : beeper.active = false) (time : Number) :
    beeper.setActive time true =
      let ready :=
        { beeper with active := true, history := ⟨.on, time⟩ :: beeper.history }.openBy
          (beeper.device.opening beeper.tone)
      if ready.opened then
        { ready with requests := (Edge.on.asks ready.tone).reverse ++ ready.requests }
      else ready := by
  have change : ¬true = beeper.active := by simp [off]
  have ready := @openDevice_eq ({ beeper with active := true }.record .on time) closed enabled
  rw [setActive, if_neg change, if_pos rfl, lineOn, ready]
  rfl

/-- Without audio a change is remembered, and that is all. -/
theorem setActive_of_disabled (closed : beeper.opened = false) (disabled : beeper.enabled = false)
    (time : Number) {on : Bool} (change : on ≠ beeper.active) :
    beeper.setActive time on =
      { beeper with active := on, history := ⟨.turning on, time⟩ :: beeper.history } := by
  rw [setActive, if_neg change]
  cases on with
  | true => simp [lineOn, record, openDevice, closed, disabled, Edge.turning]
  | false => simp [lineOff, record, closed, Edge.turning]

/-- The beeper after changes, the earliest first, without audio. -/
def muteAfter (tone : Tone) (device : SoundDevice) (changes : List Beep) : Beeper :=
  { silent tone device false with active := position changes, history := changes.reverse }

/-- What is asked of a device that works: it is opened once, and then has part in all changes. -/
def asksOf (tone : Tone) (device : SoundDevice) (changes : List Beep) : List SoundRequest :=
  if changes = [] then []
  else (device.opening tone).asked ++ changes.flatMap (·.edge.asks tone)

/-- The beeper after changes with a device that works. -/
def playingAfter (tone : Tone) (device : SoundDevice) (changes : List Beep) : Beeper :=
  { silent tone device true with
    opened := changes ≠ []
    active := position changes
    history := changes.reverse
    requests := (asksOf tone device changes).reverse }

/-- The beeper after changes with a device that does not. -/
def failedAfter (tone : Tone) (device : SoundDevice) (reason : String) (changes : List Beep) :
    Beeper :=
  { silent tone device (changes = []) with
    active := position changes
    history := changes.reverse
    requests := if changes = [] then [] else (device.opening tone).asked.reverse
    notices := if changes = [] then [] else ["audio disabled: " ++ reason] }

/-- The beeper after changes. -/
def after (tone : Tone) (device : SoundDevice) (enabled : Bool) (changes : List Beep) : Beeper :=
  if enabled then
    match (device.opening tone).failure with
    | none => playingAfter tone device changes
    | some reason => failedAfter tone device reason changes
  else muteAfter tone device changes

/-- Whatever becomes of the device, position and history are those of the changes. -/
@[simp]
theorem after_active (enabled : Bool) :
    (after tone device enabled changes).active = position changes := by
  unfold after
  split
  · split <;> rfl
  · rfl

@[simp]
theorem after_history (enabled : Bool) :
    (after tone device enabled changes).history = changes.reverse := by
  unfold after
  split
  · split <;> rfl
  · rfl

variable {time : Number} {on : Bool}

/-- Without audio changes follow each other. -/
theorem setActive_muteAfter (change : on ≠ position changes) :
    (muteAfter tone device changes).setActive time on =
      muteAfter tone device (changes ++ [⟨.turning on, time⟩]) := by
  rw [setActive_of_disabled rfl rfl time change]
  simp only [muteAfter, position_concat, List.reverse_concat]

/-- So they do with a device that works. -/
theorem setActive_playingAfter (works : (device.opening tone).failure = none)
    (change : on ≠ position changes) :
    (playingAfter tone device changes).setActive time on =
      playingAfter tone device (changes ++ [⟨.turning on, time⟩]) := by
  by_cases first : changes = []
  · subst first
    obtain rfl : on = true := (Bool.not_eq_false on).mp change
    refine (setActive_of_closed rfl rfl rfl time).trans ?_
    simp [openBy, works, playingAfter, asksOf, silent, position, Edge.turning]
  · have opened : (playingAfter tone device changes).opened = true := decide_eq_true first
    rw [setActive_of_opened opened time change]
    simp [playingAfter, asksOf, position_concat, first, silent]

/-- With a device that does not work, changes follow each other as without audio. -/
theorem setActive_failedAfter {reason : String}
    (fails : (device.opening tone).failure = some reason) (change : on ≠ position changes) :
    (failedAfter tone device reason changes).setActive time on =
      failedAfter tone device reason (changes ++ [⟨.turning on, time⟩]) := by
  by_cases first : changes = []
  · subst first
    obtain rfl : on = true := (Bool.not_eq_false on).mp change
    refine (setActive_of_closed rfl rfl rfl time).trans ?_
    simp [openBy, disable, fails, failedAfter, silent, position, Edge.turning]
  · have disabled : (failedAfter tone device reason changes).enabled = false :=
      decide_eq_false first
    rw [setActive_of_disabled rfl disabled time change]
    simp [failedAfter, position_concat, first, silent]

/-- One more call leads on if it asks for a change. -/
theorem setActive_after (enabled : Bool) (time : Number) (on : Bool) :
    (after tone device enabled changes).setActive time on =
      after tone device enabled
        (if on = position changes then changes else changes ++ [⟨.turning on, time⟩]) := by
  by_cases same : on = position changes
  · rw [if_pos same, setActive, after_active, if_pos same]
  · rw [if_neg same]
    unfold after
    split
    case isFalse => exact setActive_muteAfter same
    case isTrue =>
      cases known : (device.opening tone).failure with
      | none => exact setActive_playingAfter known same
      | some reason => exact setActive_failedAfter known same

/-- Any number of calls leads on along the changes they ask for. -/
theorem setActiveAll_after (enabled : Bool) (calls : List (Number × Bool)) :
    (after tone device enabled changes).setActiveAll calls =
      after tone device enabled (changes ++ changesOf (position changes) calls) := by
  induction calls generalizing changes with
  | nil => simp [setActiveAll, changesOf]
  | cons call rest inductionHypothesis =>
    obtain ⟨time, on⟩ := call
    change ((after tone device enabled changes).setActive time on).setActiveAll rest = _
    rw [setActive_after, inductionHypothesis, changesOf]
    split
    case isTrue same => rfl
    case isFalse other => rw [position_concat, List.append_assoc, List.singleton_append]

/-- Before the first call there are no changes. -/
theorem silent_eq_after (tone : Tone) (device : SoundDevice) (enabled : Bool) :
    silent tone device enabled = after tone device enabled [] := by
  unfold after
  split
  case isFalse disabled =>
    rw [Bool.not_eq_true] at disabled
    rw [disabled]
    rfl
  case isTrue on =>
    rw [on]
    split <;> rfl

/-- Calls lead a silent beeper along the changes they ask for. -/
theorem setActiveAll_silent (enabled : Bool) (calls : List (Number × Bool)) :
    (silent tone device enabled).setActiveAll calls =
      after tone device enabled (changesOf false calls) := by
  rw [silent_eq_after]
  exact setActiveAll_after enabled calls

/-- Whether the device plays after requests, the latest first. -/
def sounding : List SoundRequest → Bool
  | [] => false
  | .playLooped :: _ => true
  | .stop :: _ => false
  | _ :: earlier => sounding earlier

/-- The device is opened once, and then has part in all changes. -/
structure PlaysAlong (beeper : Beeper) (opening : Opening) (changes : List Beep) : Prop where
  requests : beeper.requests.reverse =
    if changes = [] then []
    else opening.asked ++ changes.flatMap (·.edge.asks beeper.tone)
  starts : beeper.requests.countP (·.isStart) ≤ 1
  plays : beeper.requests.count .playLooped = changes.countP (·.edge = .on)
  stops : beeper.requests.count .stop = changes.countP (·.edge = .off)
  sounding : sounding beeper.requests = beeper.active
  notices : beeper.notices = []

/-- To open the device is tried once, with the first change, which disables audio and reports
why. The device never plays. -/
structure GivesUp (beeper : Beeper) (opening : Opening) (reason : String) (changes : List Beep) :
    Prop where
  enabled : beeper.enabled = decide (changes = [])
  requests : beeper.requests.reverse = if changes = [] then [] else opening.asked
  plays : .playLooped ∉ beeper.requests
  stops : .stop ∉ beeper.requests
  notices : beeper.notices = if changes = [] then [] else ["audio disabled: " ++ reason]

/-- A device that works plays along. -/
theorem playsAlong_playingAfter (tone : Tone) (device : SoundDevice) (changes : List Beep) :
    (playingAfter tone device changes).PlaysAlong (device.opening tone) changes := by
  obtain ⟨starts, plays, stops⟩ := device.opening_asked tone
  obtain ⟨startsLater, playsLater, stopsLater⟩ := Edge.count_asks tone changes
  by_cases none : changes = []
  · subst none
    exact ⟨rfl, Nat.zero_le 1, rfl, rfl, rfl, rfl⟩
  · have asked : (playingAfter tone device changes).requests =
        ((device.opening tone).asked ++ changes.flatMap (·.edge.asks tone)).reverse := by
      rw [playingAfter, asksOf, if_neg none]
    constructor
    · rw [asked, List.reverse_reverse, if_neg none]
      rfl
    · rw [asked, List.countP_reverse, List.countP_append, startsLater]
      exact starts
    · rw [asked, List.count_reverse, List.count_append, plays, playsLater, Nat.zero_add]
    · rw [asked, List.count_reverse, List.count_append, stops, stopsLater, Nat.zero_add]
    · obtain ⟨earlier, ⟨edge, time⟩, rfl⟩ := (List.eq_nil_or_concat changes).resolve_left none
      rw [asked]
      cases edge <;> simp [playingAfter, position, Edge.asks, sounding]
    · rfl

/-- With a device that does not work the beeper gives up. -/
theorem givesUp_failedAfter (tone : Tone) (device : SoundDevice) (reason : String)
    (changes : List Beep) :
    (failedAfter tone device reason changes).GivesUp (device.opening tone) reason changes := by
  obtain ⟨_, plays, stops⟩ := device.opening_asked tone
  by_cases none : changes = []
  · subst none
    exact ⟨rfl, rfl, nofun, nofun, rfl⟩
  · have asked : (failedAfter tone device reason changes).requests =
        (device.opening tone).asked.reverse := by
      rw [failedAfter, if_neg none]
    refine ⟨rfl, ?_, ?_, ?_, rfl⟩
    · rw [asked, List.reverse_reverse, if_neg none]
    · rw [asked, List.mem_reverse]
      exact List.count_eq_zero.mp plays
    · rw [asked, List.mem_reverse]
      exact List.count_eq_zero.mp stops

/-- Whatever a beeper is asked for, one call after the other, and whatever becomes of its
device, its history and its position are those of a beeper without audio: the history consists
of the calls that ask for another position than the one before, with their times; on and off
alternate in it, from on; and the beeper is on exactly if the last change switched it on. Of a
device that works, opening is asked once, with the first change, and to play and to stop once
for every change, so that it plays exactly while the beeper is on. With one that does not,
the first change finds this out, disables audio and reports it, and the device is never asked
to play or to stop. -/
theorem setActiveAll_accompanied (tone : Tone) (device : SoundDevice) (enabled : Bool)
    (calls : List (Number × Bool)) :
    let beeper := (silent tone device enabled).setActiveAll calls
    let mute := (silent tone device false).setActiveAll calls
    let changes := changesOf false calls
    let opening := device.opening tone
    (beeper.history = mute.history ∧ beeper.active = mute.active) ∧
      (beeper.changes = changes ∧ Alternates beeper.history beeper.active ∧
        (beeper.active = true ↔ ∃ time earlier, beeper.history = ⟨.on, time⟩ :: earlier)) ∧
      (enabled = true → opening.failure = none → beeper.PlaysAlong opening changes) ∧
      (enabled = true → ∀ reason, opening.failure = some reason →
        beeper.GivesUp opening reason changes) ∧
      (enabled = false → beeper.requests = [] ∧ beeper.notices = []) := by
  intro beeper mute changes opening
  have reached : beeper = after tone device enabled changes := setActiveAll_silent enabled calls
  have silence : mute = after tone device false changes := setActiveAll_silent false calls
  have alternates : Alternates beeper.history beeper.active :=
    @Alternates.setActiveAll (silent tone device enabled) rfl calls
  refine ⟨⟨?_, ?_⟩, ⟨?_, alternates, alternates.active_iff⟩, ?_, ?_, ?_⟩
  · rw [reached, silence, after_history, after_history]
  · rw [reached, silence, after_active, after_active]
  · rw [Beeper.changes, reached, after_history, List.reverse_reverse]
  · rintro rfl works
    rw [reached, after, if_pos rfl]
    simp only [opening] at works ⊢
    rw [works]
    exact playsAlong_playingAfter tone device changes
  · rintro rfl reason fails
    rw [reached, after, if_pos rfl]
    simp only [opening] at fails ⊢
    rw [fails]
    exact givesUp_failedAfter tone device reason changes
  · rintro rfl
    rw [reached]
    exact ⟨rfl, rfl⟩

end Beeper

end Chip8
