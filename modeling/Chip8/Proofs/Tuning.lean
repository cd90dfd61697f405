import Chip8.Proofs.Loading
import Chip8.Proofs.Moments
import Chip8.Proofs.Tones
import Chip8.Proofs.Turns

/-!
# In tune with the device

A beeper keeps what it asks of its device until the window collects it and passes it on. What was
asked in all tells whether the device plays: it does if it was asked last to play, and not to stop.

Beeper and device are in tune if it plays just while the beeper is on, where the beeper has opened
it, and never where not. Every switching keeps them so, and nothing but switching changes a beeper.
The window changes nothing of it either, since what it collects it passes on in order.
-/

namespace Chip8

namespace Beeper

variable {beeper : Beeper} {asked earlier : List SoundRequest}

/-- What neither plays nor stops does not change whether the device plays. -/
theorem sounding_append (plays : .playLooped ∉ asked) (stops : .stop ∉ asked) :
    sounding (asked ++ earlier) = sounding earlier := by
  induction asked with
  | nil => rfl
  | cons latest rest inductionHypothesis =>
    have before := inductionHypothesis (fun later => plays (List.mem_cons_of_mem _ later))
      fun later => stops (List.mem_cons_of_mem _ later)
    cases latest with
    | playLooped => exact absurd List.mem_cons_self plays
    | stop => exact absurd List.mem_cons_self stops
    | start | openChannel | loadWave | setVolume => exact before

/-- A device that does not play was asked to stop after it was asked to play. -/
theorem stop_mem_of_silent {later : List SoundRequest}
    (silent : sounding (later ++ .playLooped :: earlier) = false) : .stop ∈ later := by
  induction later with
  | nil => cases silent
  | cons latest rest inductionHypothesis =>
    cases latest with
    | playLooped => cases silent
    | stop => exact List.mem_cons_self
    | start | openChannel | loadWave | setVolume =>
      exact List.mem_cons_of_mem _ (inductionHypothesis silent)

/-- After what was collected earlier and what is kept, the device plays exactly if it was opened
and the beeper is on. -/
def InTune (earlier : List SoundRequest) (beeper : Beeper) : Prop :=
  sounding (beeper.requests ++ earlier) = (beeper.opened && beeper.active)

/-- To switch the beeper keeps it in tune, whatever becomes of the device. -/
theorem InTune.setActive (tuned : InTune earlier beeper) (time : Number) (on : Bool) :
    InTune earlier (beeper.setActive time on) := by
  by_cases same : on = beeper.active
  · rwa [Beeper.setActive, if_pos same]
  by_cases opened : beeper.opened = true
  · rw [setActive_of_opened opened time same]
    cases on <;> simp [InTune, Edge.turning, Edge.asks, sounding, opened]
  rw [Bool.not_eq_true] at opened
  have still : sounding (beeper.requests ++ earlier) = false := by
    rw [tuned, opened]
    rfl
  by_cases enabled : beeper.enabled = true
  · cases on with
    | false =>
      rw [Beeper.setActive, if_neg same, if_neg Bool.false_ne_true]
      simp [InTune, lineOff, record, opened, still]
    | true =>
      have off : beeper.active = false := (Bool.not_eq_true _).mp (Ne.symm same)
      obtain ⟨_, plays, stops⟩ := beeper.device.opening_asked beeper.tone
      have opens : sounding ((beeper.device.opening beeper.tone).asked.reverse ++
          (beeper.requests ++ earlier)) = false := by
        rw [sounding_append, still]
        · rw [List.mem_reverse]
          exact List.count_eq_zero.mp plays
        · rw [List.mem_reverse]
          exact List.count_eq_zero.mp stops
      rw [setActive_of_closed opened enabled off]
      cases failure : (beeper.device.opening beeper.tone).failure with
      | none => simp [InTune, openBy, failure, Edge.asks, sounding]
      | some reason => simpa [InTune, openBy, failure, disable, opened] using opens
  · rw [setActive_of_disabled opened ((Bool.not_eq_true _).mp enabled) time same, InTune, opened]
    exact still

theorem InTune.setActiveAll (tuned : InTune earlier beeper) (calls : List (Number × Bool)) :
    InTune earlier (beeper.setActiveAll calls) := by
  induction calls generalizing beeper with
  | nil => exact tuned
  | cons call rest inductionHypothesis => exact inductionHypothesis (tuned.setActive ..)

/-- So does what only asks it for positions. -/
theorem InTune.rings {before after : Machine} (tuned : InTune earlier before.beeper)
    (rings : Machine.Rings before after) : InTune earlier after.beeper := by
  obtain ⟨calls, asked, _⟩ := rings
  rw [asked]
  exact tuned.setActiveAll calls

end Beeper

/-- Whatever its past is, the beeper of a machine is in tune with its device. -/
theorem Machine.Used.inTune {machine : Machine} (used : machine.Used) :
    machine.beeper.InTune [] := by
  induction used with
  | built built =>
    obtain ⟨tone, device, enabled, silent⟩ := built.audio
    rw [silent]
    rfl
  | served _ request inductionHypothesis =>
    exact inductionHypothesis.rings (rings_serveOne _ request)
  | played _ limits inductionHypothesis =>
    refine Session.run_keeps (·.beeper.InTune []) ?_ ?_ ?_ inductionHypothesis limits
    · exact fun machine tuned => tuned.rings (rings_afterStep machine)
    · exact fun machine tuned => tuned.rings (rings_tick machine)
    · exact fun _ _ _ tuned _ => tuned

namespace Window

variable {window : Window} {machine : Machine}

/-- What a request asks of the sound device. -/
def soundOf? : Request → Option SoundRequest
  | .sound asked => some asked
  | _ => none

/-- What was asked of the sound device, the latest first. -/
def sounds (window : Window) : List SoundRequest := window.requests.filterMap soundOf?

/-- Beeper and device are in tune after all that was passed on. -/
def Tuned (window : Window) : Prop := window.machine.beeper.InTune window.sounds

/-- To follow a machine passes on what its beeper keeps. -/
theorem sounds_follow (window : Window) (machine : Machine) :
    (window.follow machine).sounds = machine.beeper.requests ++ window.sounds := by
  have passed (asked : List SoundRequest) :
      (asked.map Request.sound).filterMap soundOf? = asked := by
    rw [List.filterMap_map]
    exact List.filterMap_some
  rw [sounds, follow_requests, List.filterMap_append, passed]
  rfl

/-- To follow a machine that has only asked the beeper for positions keeps a window in tune. -/
theorem Tuned.follow (tuned : window.Tuned) (rings : Machine.Rings window.machine machine) :
    (window.follow machine).Tuned := by
  have kept : machine.beeper.InTune window.sounds := Beeper.InTune.rings tuned rings
  rw [Tuned, sounds_follow]
  exact kept

/-- Once a machine in tune is silent, every play has been followed by a stop. -/
theorem Tuned.stop_mem (tuned : window.Tuned) (collected : window.machine.beeper.requests = [])
    (silent : window.machine.beeper.active = false) {earlier later : List Request}
    (asked : window.requests = later ++ .sound .playLooped :: earlier) : .sound .stop ∈ later := by
  have still : Beeper.sounding window.sounds = false := by
    have known : Beeper.sounding (window.machine.beeper.requests ++ window.sounds) = _ := tuned
    rwa [collected, silent, Bool.and_false] at known
  rw [sounds, asked, List.filterMap_append] at still
  obtain ⟨request, member, stops⟩ := List.mem_filterMap.mp (Beeper.stop_mem_of_silent still)
  cases request <;> cases stops
  exact member

end Window

end Chip8
