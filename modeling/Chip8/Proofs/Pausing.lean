import Chip8.Proofs.Records
import Chip8.Proofs.Tones

/-!
# Pauses

A machine that does not run makes no step when frames or time are asked for, and its clock
stands still. To pause a running machine, to ask for any number of frames and durations, and
to resume it is therefore to come back to where it was. A tone is interrupted, and of this the
history of the beeper tells, by two changes at one time.

The beeper comes back as it was if it followed the machine. At a time that cannot be told it
does so as well, since neither pausing nor resuming moves it then. What remains is a beeper
that was left behind at such a time, before a new rate took the clock back: pausing and
resuming sets it right, so that the machine is not where it was.
-/

namespace Chip8

/-- Requests that let time pass on a running machine. -/
inductive Passage where
  | frame
  | slice (duration : Number)
deriving DecidableEq, Repr

def Passage.request : Passage → Request
  | frame => .runFrame
  | slice duration => .emulate duration

/-- What a running machine is driven by. -/
inductive Drive where
  | passage (passage : Passage)
  | tick
  | key (number : Int) (pressed : Bool)
deriving DecidableEq, Repr

def Drive.request : Drive → Request
  | passage asked => asked.request
  | tick => .tick
  | key number pressed => .setKey number pressed

/-- A stretch of a run that is paused now and then. -/
inductive Stretch where
  | drive (drive : Drive)
  /-- The machine is paused, asked for frames and durations, and resumed. -/
  | pause (idle : List Passage)
deriving DecidableEq, Repr

/-- What is seen of a reply besides the machine. -/
def Reply.outcome (reply : Reply) : Array Access × Except Refusal Result :=
  (reply.accesses, reply.result)

/-- Histories, the latest change first, of which the second is the first one with extra pairs:
off and on again at one time. -/
inductive Padded : List Beep → List Beep → Prop where
  | nil : Padded [] []
  | cons (beep : Beep) {history padded : List Beep} (same : Padded history padded) :
      Padded (beep :: history) (beep :: padded)
  | pair (time : Number) {history padded : List Beep} (same : Padded history padded) :
      Padded history (⟨.on, time⟩ :: ⟨.off, time⟩ :: padded)

theorem Padded.refl (history : List Beep) : Padded history history := by
  induction history with
  | nil => exact .nil
  | cons beep earlier inductionHypothesis => exact .cons beep inductionHypothesis

/-- Common changes follow on both. -/
theorem Padded.append {history padded : List Beep} (same : Padded history padded)
    (recent : List Beep) : Padded (recent ++ history) (recent ++ padded) := by
  induction recent with
  | nil => exact same
  | cons beep others inductionHypothesis => exact .cons beep inductionHypothesis

namespace Beeper

variable {beeper other : Beeper}

/-- The beeper of a machine without audio, in some position and with some history. -/
def IsMute (beeper : Beeper) : Prop := ∃ active history, beeper = { mute with active, history }

/-- Without audio a call changes position and history, and nothing else. -/
theorem IsMute.setActive_eq (isMute : beeper.IsMute) (time : Number) (on : Bool) :
    beeper.setActive time on =
      { beeper with active := on, history := beeper.chronicle time on beeper.history } := by
  obtain ⟨active, history, rfl⟩ := isMute
  by_cases same : on = active
  · subst same
    simp [setActive, chronicle]
  · rw [setActive_of_disabled rfl rfl time same, chronicle, if_neg same]
    rfl

theorem IsMute.setActive (isMute : beeper.IsMute) (time : Number) (on : Bool) :
    (beeper.setActive time on).IsMute := by
  rw [isMute.setActive_eq]
  obtain ⟨active, history, rfl⟩ := isMute
  exact ⟨_, _, rfl⟩

theorem IsMute.setActiveAll (isMute : beeper.IsMute) (calls : List (Number × Bool)) :
    (beeper.setActiveAll calls).IsMute := by
  induction calls generalizing beeper with
  | nil => exact isMute
  | cons call rest inductionHypothesis => exact inductionHypothesis (isMute.setActive ..)

theorem IsMute.withHistory (isMute : beeper.IsMute) (history : List Beep) :
    (beeper.withHistory history).IsMute := by
  obtain ⟨active, before, rfl⟩ := isMute
  exact ⟨active, history, rfl⟩

/-- Without audio two beepers in one position differ in history alone. -/
theorem IsMute.eq_withHistory (isMute : beeper.IsMute) (isMuteOther : other.IsMute)
    (same : other.active = beeper.active) : other = beeper.withHistory other.history := by
  obtain ⟨active, history, rfl⟩ := isMute
  obtain ⟨position, changes, rfl⟩ := isMuteOther
  obtain rfl : position = active := same
  rfl

/-- To switch off and back leaves a pair of changes, if the beeper was on, and else none. -/
theorem IsMute.interrupt (isMute : beeper.IsMute) (time : Number) :
    ∃ history, (beeper.setActive time false).setActive time beeper.active =
        beeper.withHistory history ∧
      ∀ before, Padded before beeper.history → Padded before history := by
  rw [(isMute.setActive time false).setActive_eq, isMute.setActive_eq]
  obtain ⟨active, history, rfl⟩ := isMute
  refine ⟨_, rfl, fun before padded => ?_⟩
  cases active with
  | false => exact padded
  | true => exact .pair time padded

end Beeper

namespace Machine

variable {machine here there start : Machine}

/-- A machine that does not run is asked for a frame or a duration, and nothing happens. -/
theorem serve_passage_of_idle (idle : machine.isRunning = false) (asked : Passage) :
    machine.serve asked.request = ⟨machine, #[], .ok (.steps 0)⟩ := by
  cases asked with
  | frame =>
    change Reply.ofRun machine.runFrame.1 machine.runFrame.2 = _
    simp only [runFrame, idle, Bool.false_eq_true, if_false]
    rfl
  | slice duration =>
    change Reply.ofRun (machine.emulate duration).1 (machine.emulate duration).2 = _
    simp only [emulate, idle, Bool.false_eq_true, if_false]
    rfl

/-- However often it is asked. -/
theorem serveAll_passages_of_idle (idle : machine.isRunning = false) (asked : List Passage) :
    machine.serveAll (asked.map Passage.request) = machine ∧
      ∀ reply ∈ machine.replies (asked.map Passage.request),
        reply = ⟨machine, #[], .ok (.steps 0)⟩ := by
  induction asked with
  | nil => exact ⟨rfl, fun _ member => absurd member List.not_mem_nil⟩
  | cons first rest inductionHypothesis =>
    obtain ⟨stays, others⟩ := inductionHypothesis
    have served := serve_passage_of_idle idle first
    have still : machine.serveOne first.request = machine := by rw [serveOne, served]
    refine ⟨?_, fun reply member => ?_⟩
    · rw [List.map_cons, serveAll_cons, still, stays]
    · rw [List.map_cons, replies, still] at member
      rcases List.mem_cons.mp member with rfl | later
      · exact served
      · exact others reply later

/-- The second machine is the first one, but for extra pairs in the history of its beeper. -/
def SameButPairs (here there : Machine) : Prop :=
  ∃ history, there = { here with beeper := here.beeper.withHistory history } ∧
    Padded here.beeper.history history

/-- The machine after a pause. -/
def interlude (machine : Machine) (idle : List Passage) : Machine :=
  ((machine.serveOne .pause).serveAll (idle.map Passage.request)).serveOne .resume

/-- In a pause what is asked for is answered with no steps, and leaves the paused machine as it
is. Pausing and resuming are granted exactly where the time can be told. -/
structure GoesBy (machine : Machine) (idle : List Passage) : Prop where
  paused : (machine.serve .pause).result = .ok .done ↔ machine.lostTime? = none
  nothing : ∀ reply ∈ (machine.serveOne .pause).replies (idle.map Passage.request),
    reply = ⟨machine.serveOne .pause, #[], .ok (.steps 0)⟩
  resumed : (((machine.serveOne .pause).serveAll (idle.map Passage.request)).serve .resume).result =
    .ok .done ↔ machine.lostTime? = none

/-- A machine that is paused now and then keeps pace with one that is not: it gives the same
accesses and results, all pauses go by, and in the end the two are the same, but for extra
pairs in the history of its beeper. -/
def KeepsPace (here there : Machine) : List Stretch → Prop
  | [] => SameButPairs here there
  | .drive drive :: rest =>
    (there.serve drive.request).outcome = (here.serve drive.request).outcome ∧
      KeepsPace (here.serveOne drive.request) (there.serveOne drive.request) rest
  | .pause idle :: rest => there.GoesBy idle ∧ KeepsPace here (there.interlude idle) rest

/-- Machines that are the same but for pairs are alike since these were made. -/
theorem SameButPairs.alike (same : SameButPairs here there) :
    AlikeSince here.beeper.history there.beeper.history here there := by
  obtain ⟨history, rfl, _⟩ := same
  exact ⟨⟨rfl, rfl, [], rfl, rfl⟩, rfl⟩

/-- Whatever is asked of a machine without audio, it has none. -/
theorem serveOne_isMute (isMute : machine.beeper.IsMute) (request : Request) :
    (machine.serveOne request).beeper.IsMute := by
  obtain ⟨calls, asked, _⟩ := rings_serveOne machine request
  rw [asked]
  exact isMute.setActiveAll calls

/-- The same request, other than for a program file, is served by both with the same accesses
and the same result, and leaves them the same but for pairs. -/
theorem SameButPairs.serve (same : SameButPairs here there) (isMute : here.beeper.IsMute)
    {request : Request} (other : request.readsFile = false) :
    (there.serve request).outcome = (here.serve request).outcome ∧
      SameButPairs (here.serveOne request) (there.serveOne request) := by
  obtain ⟨after, accesses, result⟩ := same.alike.serve request
  obtain ⟨history, rfl, padded⟩ := same
  refine ⟨Prod.ext accesses result, ?_⟩
  obtain ⟨⟨clock, active, recent, recorded, recordedBeside⟩, parts⟩ := after
  let next := here.serveOne request
  let beside := ({ here with beeper := here.beeper.withHistory history } : Machine).serveOne request
  have romNext : next.rom = here.rom := serveOne_rom other
  have romBeside : beside.rom = here.rom := serveOne_rom other
  have beeper : beside.beeper = next.beeper.withHistory beside.beeper.history :=
    (serveOne_isMute isMute request).eq_withHistory
      (serveOne_isMute (isMute.withHistory history) request) active.symm
  refine ⟨beside.beeper.history, ?_, ?_⟩
  · change next.clock = beside.clock at clock
    calc beside = next.within ⟨beside.clock, beside.beeper, beside.rom⟩ := parts
      _ = next.within ⟨next.clock, next.beeper.withHistory beside.beeper.history, next.rom⟩ := by
        rw [← beeper, clock, romNext, romBeside]
  · change next.beeper.history = recent ++ here.beeper.history at recorded
    change beside.beeper.history = recent ++ history at recordedBeside
    change Padded next.beeper.history beside.beeper.history
    rw [recorded, recordedBeside]
    exact padded.append recent

/-- A running machine without audio, whose beeper follows it if the time can be told. -/
structure Pausable (machine : Machine) : Prop where
  running : machine.status = .running
  isMute : machine.beeper.IsMute
  follows : machine.lostTime? = none → machine.Follows

/-- Extra pairs in the history do not matter for this. -/
theorem Pausable.of_same (pausable : here.Pausable) (same : SameButPairs here there) :
    there.Pausable := by
  obtain ⟨history, rfl, _⟩ := same
  exact ⟨pausable.running, pausable.isMute.withHistory history, pausable.follows⟩

/-- A time that is lost is not found again as long as the clock is not taken back. -/
theorem told_of_serveOne {request : Request} (onward : request.restarts = false)
    (told : (machine.serveOne request).lostTime? = none) : machine.lostTime? = none := by
  have order := (elapsed_le_serveOne machine request).resolve_right fun restarts => by
    cases onward.symm.trans restarts.1
  cases seconds : (machine.serveOne request).clock.seconds with
  | error misuse =>
    cases told.symm.trans (lostTime_eq_some.mpr seconds)
  | ok time =>
    obtain ⟨earlier, toldEarlier⟩ := FrameClock.told_of_le seconds order
    simp only [lostTime?, toldEarlier]

/-- To be driven leaves a machine running, and its beeper following. -/
theorem Pausable.serveOne (pausable : machine.Pausable) (drive : Drive) :
    (machine.serveOne drive.request).Pausable := by
  have status : (machine.serveOne drive.request).status = machine.status := by
    match drive with
    | .passage .frame => exact congrArg Setting.status (serveOne_setting rfl)
    | .passage (.slice _) => exact congrArg Setting.status (serveOne_setting rfl)
    | .tick => exact congrArg Setting.status (serveOne_setting rfl)
    | .key number pressed =>
      change (machine.serveOne (.setKey number pressed)).status = _
      rw [serveOne_setKey]
      split <;> rfl
  have onward : drive.request.restarts = false := by
    rcases drive with (_ | _) | _ | _ <;> rfl
  have stays : drive.request ≠ .powerOff := by
    rcases drive with (_ | _) | _ | _ <;> exact nofun
  refine ⟨status.trans pausable.running, serveOne_isMute pausable.isMute _, fun told => ?_⟩
  have before := pausable.follows (told_of_serveOne onward told)
  exact (before.settles stays).told told

/-- A running machine is paused at the same time as before. -/
theorem paused_of_running (running : machine.status = .running) :
    (machine.serveOne .pause).status = .paused ∧
      (machine.serveOne .pause).lostTime? = machine.lostTime? := by
  rw [pause_eq running]
  constructor
  · rw [adjustBeeper_eq]
  · exact adjustBeeper_lostTime _

/-- In a pause nothing happens to the paused machine, and so it goes by. -/
theorem goesBy (running : machine.status = .running) (idle : List Passage) :
    (machine.serveOne .pause).serveAll (idle.map Passage.request) = machine.serveOne .pause ∧
      machine.GoesBy idle := by
  obtain ⟨paused, time⟩ := paused_of_running running
  have stopped : (machine.serveOne .pause).isRunning = false := by
    rw [isRunning, paused]
    rfl
  obtain ⟨stays, answers⟩ := serveAll_passages_of_idle stopped idle
  have granted (next : Machine) :
      (Reply.adjusted next.adjustBeeper).result = .ok .done ↔ next.lostTime? = none := by
    rw [Reply.adjusted, adjustBeeper_lostTime]
    cases next.lostTime? with
    | none => exact iff_of_true rfl rfl
    | some misuse =>
      refine iff_of_false (fun granted => ?_) (Option.some_ne_none misuse)
      cases granted
  refine ⟨stays, granted { machine with status := machine.status.pause }, answers, ?_⟩
  rw [stays, ← time]
  exact granted { machine.serveOne .pause with status := (machine.serveOne .pause).status.resume }

/-- A pause leads back to the machine that was paused. Its beeper has at most a pair more in
its history. -/
theorem Pausable.interlude (pausable : machine.Pausable) (idle : List Passage) :
    ∃ history, machine.interlude idle =
        { machine with beeper := machine.beeper.withHistory history } ∧
      ∀ before, Padded before machine.beeper.history → Padded before history := by
  obtain ⟨stays, _⟩ := goesBy pausable.running idle
  rw [Machine.interlude, stays, pause_eq pausable.running]
  let paused : Machine := { machine with status := .paused }
  change ∃ history, paused.adjustBeeper.serveOne .resume = _ ∧ _
  cases seconds : machine.clock.seconds with
  | error misuse =>
    -- Neither pausing nor resuming moves the beeper.
    have lost : machine.lostTime? ≠ none := by
      rw [lostTime_eq_some.mpr seconds]
      exact Option.some_ne_none misuse
    refine ⟨machine.beeper.history, ?_, fun _ padded => padded⟩
    rw [@adjustBeeper_of_lost paused lost, @resume_eq paused rfl]
    exact (@adjustBeeper_of_lost { paused with status := .running } lost).trans
      (by rw [← pausable.running]; rfl)
  | ok now =>
    -- The beeper follows, so that resuming asks for what pausing took away.
    have told : machine.lostTime? = none := by simp only [lostTime?, seconds]
    have wanted : machine.beeper.active = machine.timers.soundActive := by
      rw [(follows_iff_active machine).mp (pausable.follows told), wantsTone, isRunning,
        pausable.running]
      rfl
    obtain ⟨history, back, padded⟩ := pausable.isMute.interrupt now
    refine ⟨history, ?_, padded⟩
    let silenced : Machine := { paused with beeper := machine.beeper.setActive now false }
    have off : paused.adjustBeeper = silenced := @adjustBeeper_of_told paused now seconds
    have on : ({ silenced with status := .running } : Machine).adjustBeeper =
        { silenced with
          status := .running
          beeper := silenced.beeper.setActive now machine.timers.soundActive } :=
      @adjustBeeper_of_told { silenced with status := .running } now seconds
    rw [off, resume_eq rfl, on, ← back, wanted, ← pausable.running]

/-- A machine that can be paused keeps pace with itself, whenever it is paused. -/
theorem Pausable.keepsPace (pausable : here.Pausable) (same : SameButPairs here there)
    (stretches : List Stretch) : KeepsPace here there stretches := by
  induction stretches generalizing here there with
  | nil => exact same
  | cons stretch rest inductionHypothesis =>
    cases stretch with
    | drive drive =>
      have other : drive.request.readsFile = false := by
        rcases drive with (_ | _) | _ | _ <;> rfl
      obtain ⟨outcome, further⟩ := same.serve pausable.isMute other
      exact ⟨outcome, inductionHypothesis (pausable.serveOne drive) further⟩
    | pause idle =>
      -- Only the second machine is paused; the first one stays for what comes after.
      have pausableThere := pausable.of_same same
      refine ⟨(goesBy pausableThere.running idle).2, inductionHypothesis pausable ?_⟩
      obtain ⟨history, back, more⟩ := pausableThere.interlude idle
      obtain ⟨before, rfl, padded⟩ := same
      exact ⟨history, back, more here.beeper.history padded⟩

/-- A machine that a pause does not change has a beeper that follows it, if the time can be
told. -/
theorem follows_of_interlude (running : machine.status = .running)
    (same : SameButPairs machine (machine.interlude [])) (told : machine.lostTime? = none) :
    machine.Follows := by
  obtain ⟨history, back, _⟩ := same
  have active : (machine.interlude []).beeper.active = machine.beeper.active := by rw [back]; rfl
  have wanted : (machine.interlude []).wantsTone = machine.wantsTone := by rw [back]; rfl
  have follows : (machine.interlude []).Follows := by
    obtain ⟨paused, time⟩ := paused_of_running running
    change ((machine.serveOne .pause).serveOne .resume).Follows
    rw [resume_eq paused]
    exact adjustBeeper_follows (time.trans told)
  rw [follows_iff_active, ← active, ← wanted]
  exact (follows_iff_active _).mp follows

/-- As long as the time can be told, the beeper is left behind by a machine that is stopped
only. -/
theorem follows_or_stopped {request : Request}
    (told : (machine.serveOne request).lostTime? = none)
    (before : machine.Follows ∨ machine.status = .stopped) :
    (machine.serveOne request).Follows ∨ (machine.serveOne request).status = .stopped := by
  rcases before with follows | stopped
  · by_cases off : request = .powerOff
    · subst off
      exact .inr rfl
    · exact .inl ((follows.settles off).told told)
  have adjusted {made next : Machine} (told : made.lostTime? = none)
      (ends : made = next.adjustBeeper) : made.Follows := by
    subst ends
    exact adjustBeeper_follows ((adjustBeeper_lostTime next).symm.trans told)
  by_cases plays : request.plays = true
  · exact .inr ((congrArg Setting.status (serveOne_setting plays)).trans stopped)
  cases request
  case load image dialect =>
    rw [serveOne_load] at told ⊢
    split
    case isTrue => exact .inr stopped
    case isFalse fits =>
      rw [if_neg fits] at told
      exact .inl ((start_settles machine machine _ dialect).told told)
  case loadFile disk path dialect =>
    rw [serveOne_loadFile] at told ⊢
    cases found : Rom.read disk path machine.memory.capacity with
    | error refusal => exact .inr stopped
    | ok rom =>
      rw [found] at told
      have started := start_settles machine machine (machine.memory.install rom.image) dialect
      exact .inl (started.told told)
  case reset => exact .inl (adjusted told (serveOne_reset machine))
  case powerOn =>
    obtain ⟨_, sound, silent⟩ := reset_silent machine
    exact .inl (serveOne_powerOn machine ▸ follows_of_silent silent sound)
  case powerOff => exact .inr rfl
  case pause => exact .inl (adjusted told (serveOne_pause machine))
  case resume => exact .inl (adjusted told (serveOne_resume machine))
  case setStatus code =>
    rw [serveOne_setStatus] at told ⊢
    cases known : RunStatus.ofCode? code with
    | error misuse => exact .inr stopped
    | ok status =>
      rw [known] at told
      exact .inl (adjusted told rfl)
  case setRate rate =>
    rw [serveOne_setRate]
    split <;> exact .inr stopped
  case setKey key pressed =>
    rw [serveOne_setKey]
    split <;> exact .inr stopped
  case step | skip | tick | runFrame | emulate | clearDelay | clearSound =>
    exact absurd rfl plays

/-- From a machine as it is built on, as long as the time can be told at every moment, the
beeper is left behind by a machine that is stopped only. -/
theorem IsBuilt.follows_or_stopped (built : start.IsBuilt) {requests : List Request}
    (told : ∀ earlier later, requests = earlier ++ later →
      (start.serveAll earlier).lostTime? = none) :
    (start.serveAll requests).Follows ∨ (start.serveAll requests).status = .stopped := by
  induction requests using List.reverseRecOn with
  | nil => exact .inl built.follows
  | append_singleton requests request inductionHypothesis =>
    have before := inductionHypothesis fun earlier later split =>
      told earlier (later ++ [request]) (by rw [split, List.append_assoc])
    have now := told (requests ++ [request]) [] (List.append_nil _).symm
    rw [serveAll_append] at now ⊢
    exact Machine.follows_or_stopped now before

/-- A machine without audio remains one. -/
theorem serveAll_isMute (mute : start.beeper = .mute) (requests : List Request) :
    (start.serveAll requests).beeper.IsMute := by
  have begun : start.beeper.IsMute := ⟨false, [], mute⟩
  exact serveAll_keeps (·.beeper.IsMute)
    (fun request _ _ isMute => serveOne_isMute isMute request) begun

/-- A machine that does not run answers every request for a frame or a duration with no steps,
and stays as it is. Without audio, after whatever history, a running machine may be paused
anywhere in a run that is driven by frames, durations, ticks and keys, and asked for frames and
durations until it is resumed: it keeps pace with one that is not paused, exactly if its beeper
follows it or the time cannot be told. It always does so if the time could be told at every
moment of the history. -/
theorem IsBuilt.keepsPace_iff (built : start.IsBuilt) (mute : start.beeper = .mute)
    (requests : List Request)
    (running : (start.serveAll requests).isRunning = true) :
    let machine := start.serveAll requests
    (∀ (other : Machine) (asked : Passage), other.isRunning = false →
      other.serve asked.request = ⟨other, #[], .ok (.steps 0)⟩) ∧
    ((∀ stretches, KeepsPace machine machine stretches) ↔
      (machine.lostTime? = none → machine.Follows)) ∧
    ((∀ earlier later, requests = earlier ++ later →
        (start.serveAll earlier).lostTime? = none) →
      ∀ stretches, KeepsPace machine machine stretches) := by
  intro machine
  have status : machine.status = .running := by
    simpa [isRunning, RunStatus.isRunning] using running
  have pausable (follows : machine.lostTime? = none → machine.Follows) : machine.Pausable :=
    ⟨status, serveAll_isMute mute requests, follows⟩
  have itself : SameButPairs machine machine := ⟨machine.beeper.history, rfl, .refl _⟩
  refine ⟨fun other asked idle => serve_passage_of_idle idle asked, ⟨fun keeps => ?_, ?_⟩, ?_⟩
  · exact follows_of_interlude status (keeps [.pause []]).2
  · intro follows
    exact (pausable follows).keepsPace itself
  · intro told
    refine (pausable fun _ => ?_).keepsPace itself
    refine (built.follows_or_stopped told).resolve_right fun stopped => ?_
    cases stopped.symm.trans status

/-- A machine that plays a tone can be paused. -/
theorem keepsPace_of_toneHistory :
    let machine := (ofRate 700 .chip8 0 .mute).serveAll toneHistory
    machine.isRunning = true ∧ machine.beeper.active = true ∧
      ∀ stretches, KeepsPace machine machine stretches := by
  have built : (ofRate 700 .chip8 0 .mute).IsBuilt := isBuilt_mute (by decide) .chip8 0
  have mute : (ofRate 700 .chip8 0 .mute).beeper = .mute := rfl
  obtain ⟨follows, wants, _⟩ := serveAll_toneHistory .mute
  generalize ofRate 700 .chip8 0 .mute = start at *
  have running : (start.serveAll toneHistory).isRunning = true := (Bool.and_eq_true_iff.mp wants).1
  refine ⟨running, ((follows_iff_active _).mp follows).trans wants, ?_⟩
  exact (built.keepsPace_iff mute toneHistory running).2.1.mpr fun _ => follows

/-- A tone begins, so much time passes that it cannot be told any more, the tone is ended
without effect on the beeper, and a new rate takes the clock back. -/
def abandonedTone : List Request :=
  toneHistory ++ [.emulate (.whole endless), .clearSound, .setRate (.whole 700)]

/-- The beeper of a machine that plays a tone is left behind so. -/
theorem abandoned (follows : machine.Follows) (wants : machine.wantsTone = true)
    (clock : machine.clock = ⟨.whole 700, .whole 60, 0⟩) :
    let abandoned :=
      machine.serveAll [.emulate (.whole endless), .clearSound, .setRate (.whole 700)]
    abandoned.status = .running ∧ abandoned.clock.elapsed = 0 ∧ ¬abandoned.Follows := by
  intro abandoned
  let late : FrameClock := ⟨.whole 700, .whole 60, 0 + endless * Number.microseconds⟩
  have status : machine.status = .running := ((wantsTone_iff machine).mp wants).1
  have lost {other : Machine} (same : other.clock = late) : other.lostTime? ≠ none := by
    have told : other.clock.seconds = .error .largeQuotient := by
      rw [same]
      exact seconds_of_late
    rw [lostTime_eq_some.mpr told]
    exact Option.some_ne_none _
  have outset : machine.outset (.emulate (.whole endless)) = { machine with clock := late } := by
    have some : 0 < endless := by decide +kernel
    have running : machine.isRunning = true := by rw [isRunning, status]; rfl
    simp only [Machine.outset, running, if_true, clock, FrameClock.advance_whole 700 60 0 some]
    rfl
  -- Whatever happens in all this time, it happens at a time that cannot be told.
  let emulated := machine.serveOne (.emulate (.whole endless))
  have carried : Carries { machine with clock := late } emulated := by
    have followed := carries_follow (Run.begin (machine.outset (.emulate (.whole endless))))
      (machine.agenda (.emulate (.whole endless)))
    rw [← emulate_eq_follow] at followed
    exact outset ▸ followed
  have running : emulated.status = .running :=
    (congrArg Setting.status (serveOne_setting rfl)).trans status
  have beeper : emulated.beeper = machine.beeper := carried.lost (lost rfl)
  let cleared : Machine := { emulated with timers := { emulated.timers with sound := 0 } }
  have ended : emulated.serveOne .clearSound = cleared := by
    rw [serveOne_clearSound]
    exact @adjustBeeper_of_lost cleared (lost carried.clock)
  have back : abandoned = { cleared with clock := ⟨.whole 700, .whole 60, 0⟩ } := by
    have known : cleared.clock = late := carried.clock
    have isRate : (Number.whole 700).isRate = true := by decide +kernel
    change (emulated.serveOne .clearSound).serveOne (.setRate (.whole 700)) = _
    rw [ended, serveOne_setRate, known]
    simp only [FrameClock.setRate?, isRate, if_true]
    rfl
  rw [back]
  refine ⟨running, rfl, fun stillFollows => ?_⟩
  have on : emulated.beeper.active = true := by
    rw [beeper, (follows_iff_active machine).mp follows, wants]
  have sounds : (0 : UInt8) < 0 := (stillFollows.mp on).2
  exact absurd sounds (by decide)

/-- In the middle of a tone that goes on although it was ended, at a time that can be told, a
pause ends it. -/
theorem not_keepsPace_of_abandonedTone :
    let machine := (ofRate 700 .chip8 0 .mute).serveAll abandonedTone
    Reachable machine ∧ machine.isRunning = true ∧ ¬KeepsPace machine machine [.pause []] := by
  intro machine
  have reached : Reachable machine :=
    (Reachable.built (isBuilt_mute (by decide) .chip8 0)).serveAll _
  obtain ⟨follows, wants, clock⟩ := serveAll_toneHistory .mute
  have split : machine = ((ofRate 700 .chip8 0 .mute).serveAll toneHistory).serveAll
      [.emulate (.whole endless), .clearSound, .setRate (.whole 700)] := serveAll_append ..
  obtain ⟨status, start, behind⟩ := abandoned follows wants clock
  rw [← split] at status start behind
  refine ⟨reached, by rw [isRunning, status]; rfl, fun keeps => behind ?_⟩
  exact follows_of_interlude status keeps.2 (lostTime_of_start start)

end Machine

end Chip8
