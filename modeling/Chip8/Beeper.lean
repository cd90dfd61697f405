import Chip8.Beeper.Wave

/-!
# The beeper

The beeper is on or off, and remembers every change with its time. Where audio
is enabled it also plays its tone on a sound device, which it opens when the
tone is needed for the first time. A device that cannot be opened disables
audio; the beeper goes on without it.

What the beeper asks of the device, and what it reports to the user, is kept
until it is collected.
-/

namespace Chip8

/-- A change of the beeper. -/
inductive Edge where
  | on
  | off
deriving DecidableEq, Repr

/-- The name of a change in the beeper's history. -/
def Edge.name : Edge → String
  | on => "set_line_on"
  | off => "set_line_off"

/-- A change and its time in seconds. -/
structure Beep where
  edge : Edge
  time : Number
deriving DecidableEq, Repr

/-- What is asked of the sound device. -/
inductive SoundRequest where
  /-- Start the device at a sampling rate, with one channel of signed 16-bit samples. -/
  | start (sampleRate : Number)
  | openChannel (number : Nat)
  | loadWave (wave : List SampleRun)
  /-- The volume is a fraction of full scale. -/
  | setVolume (volume : Number)
  /-- Play the loaded wave until it is stopped. -/
  | playLooped
  | stop
deriving DecidableEq, Repr

/-- The state of the sound device before the beeper opens it. -/
inductive SoundDevice where
  | started
  | idle
  | broken (reason : String)
deriving DecidableEq, Repr

/-- The beeper. History, requests and notices have their latest entry first. -/
structure Beeper where
  tone : Tone
  device : SoundDevice
  enabled : Bool
  opened : Bool
  active : Bool
  history : List Beep
  requests : List SoundRequest
  notices : List String
deriving DecidableEq, Repr

namespace Beeper

/-- A silent beeper. -/
def silent (tone : Tone) (device : SoundDevice) (enabled : Bool) : Beeper :=
  ⟨tone, device, enabled, false, false, [], [], []⟩

/-- The beeper of a machine without audio. -/
def mute : Beeper := silent .standard .idle false

def request (beeper : Beeper) (asked : SoundRequest) : Beeper :=
  { beeper with requests := asked :: beeper.requests }

/-- Remember a change. -/
def record (beeper : Beeper) (edge : Edge) (time : Number) : Beeper :=
  { beeper with history := ⟨edge, time⟩ :: beeper.history }

/-- Go on without audio, and say why. -/
def disable (beeper : Beeper) (reason : String) : Beeper :=
  { beeper with enabled := false, notices := ("audio disabled: " ++ reason) :: beeper.notices }

/-- Take a channel of the started device and load the wave. -/
def prepare (beeper : Beeper) : Beeper :=
  let waiting := beeper.request (.openChannel 0)
  match beeper.tone.wave with
  | .ok wave => { waiting.request (.loadWave wave) with opened := true }
  | .error misuse => waiting.disable misuse.message

/-- Open the device on first use, if audio is enabled. -/
def openDevice (beeper : Beeper) : Beeper :=
  if beeper.opened || !beeper.enabled then beeper
  else
    match beeper.device with
    | .started => beeper.prepare
    | .idle => (beeper.request (.start beeper.tone.sampleRate)).prepare
    | .broken reason => beeper.disable reason

/-- Start the tone, whether it sounds already or not. -/
def lineOn (beeper : Beeper) (time : Number) : Beeper :=
  let ready := (beeper.record .on time).openDevice
  if ready.opened then (ready.request (.setVolume ready.tone.volume)).request .playLooped
  else ready

/-- Stop the tone, whether it sounds or not. -/
def lineOff (beeper : Beeper) (time : Number) : Beeper :=
  let recorded := beeper.record .off time
  if recorded.opened then recorded.request .stop else recorded

/-- Switch the beeper. Only a change is remembered and reaches the device. -/
def setActive (beeper : Beeper) (time : Number) (on : Bool) : Beeper :=
  if on = beeper.active then beeper
  else if on then { beeper with active := true }.lineOn time
  else { beeper with active := false }.lineOff time

/-- The changes of the beeper, the earliest first. -/
def changes (beeper : Beeper) : List Beep := beeper.history.reverse

/-- Hand over what was asked and reported since the last time, the earliest first. -/
def collect (beeper : Beeper) : (List SoundRequest × List String) × Beeper :=
  ((beeper.requests.reverse, beeper.notices.reverse), { beeper with requests := [], notices := [] })

end Beeper

end Chip8
