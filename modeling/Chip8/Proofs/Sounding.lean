import Chip8.Proofs.Schedule
import Chip8.Proofs.Storage

/-!
# When the beeper follows

The beeper follows the machine when it is on exactly while the machine runs with its
sound timer above zero. A step or a tick carries this on as long as the time can be
told; at a time that cannot be told the beeper stays as it is.

Every request keeps the beeper following, with two exceptions. Switching the power off
does not adjust the beeper, so that a tone goes on. And at a time that cannot be told a
request may change what is asked for, while the beeper stays. Along a history the
beeper follows all the time exactly when no request is one of these.
-/

namespace Chip8

namespace Beeper

/-- Opening the device does not switch the beeper. -/
theorem prepare_active (beeper : Beeper) : beeper.prepare.active = beeper.active := by
  unfold prepare
  split <;> rfl

theorem openDevice_active (beeper : Beeper) : beeper.openDevice.active = beeper.active := by
  unfold openDevice
  split
  · rfl
  · split
    · exact prepare_active beeper
    · exact prepare_active _
    · rfl

/-- Starting and stopping the tone do not switch the beeper either. -/
theorem lineOn_active (beeper : Beeper) (time : Number) :
    (beeper.lineOn time).active = beeper.active := by
  simp only [lineOn]
  split
  · exact openDevice_active _
  · exact openDevice_active _

theorem lineOff_active (beeper : Beeper) (time : Number) :
    (beeper.lineOff time).active = beeper.active := by
  simp only [lineOff]
  split <;> rfl

/-- Switching a beeper leaves it in the position asked for. -/
theorem setActive_active (beeper : Beeper) (time : Number) (on : Bool) :
    (beeper.setActive time on).active = on := by
  unfold setActive
  split
  case isTrue already => exact already.symm
  case isFalse =>
    cases on with
    | true => exact lineOn_active ..
    | false => exact lineOff_active ..

end Beeper

namespace Machine

variable {before after machine : Machine}

/-- The beeper is on while the machine runs with its sound timer above zero, and only then. -/
def Follows (machine : Machine) : Prop :=
  machine.beeper.active = true ↔ machine.status = .running ∧ 0 < machine.timers.sound

/-- Whether status and sound timer ask for a tone. -/
def wantsTone (machine : Machine) : Bool := machine.isRunning && machine.timers.soundActive

theorem wantsTone_iff (machine : Machine) :
    machine.wantsTone = true ↔ machine.status = .running ∧ 0 < machine.timers.sound := by
  simp only [wantsTone, isRunning, RunStatus.isRunning, Timers.soundActive, Bool.and_eq_true,
    beq_iff_eq, decide_eq_true_eq]

theorem follows_iff_active (machine : Machine) :
    machine.Follows ↔ machine.beeper.active = machine.wantsTone := by
  rw [Follows, ← wantsTone_iff, Bool.coe_iff_coe]

/-- At a time that can be told the beeper is switched to what is wanted of it. -/
theorem adjustBeeper_of_told {now : Number} (told : machine.clock.seconds = .ok now) :
    machine.adjustBeeper =
      { machine with beeper := machine.beeper.setActive now machine.wantsTone } := by
  simp only [adjustBeeper, told]
  rfl

/-- Adjusting makes the beeper follow, if the time can be told. -/
theorem adjustBeeper_follows (told : machine.lostTime? = none) : machine.adjustBeeper.Follows := by
  cases seconds : machine.clock.seconds with
  | ok now =>
    rw [follows_iff_active, adjustBeeper_of_told seconds]
    exact Beeper.setActive_active ..
  | error misuse => simp [lostTime?, seconds] at told

/-- At a time that cannot be told adjusting does nothing. -/
theorem adjustBeeper_of_lost (lost : machine.lostTime? ≠ none) :
    machine.adjustBeeper = machine := by
  cases seconds : machine.clock.seconds with
  | ok now => simp [lostTime?, seconds] at lost
  | error misuse => simp only [adjustBeeper, seconds]

/-- Adjusting does not touch the clock. -/
theorem adjustBeeper_lostTime (machine : Machine) :
    machine.adjustBeeper.lostTime? = machine.lostTime? := by
  rw [adjustBeeper_eq]
  rfl

/-- Where beeper, status and sound timer are the same, the beeper follows as before. -/
theorem Follows.of_same (follows : before.Follows) (beeper : after.beeper = before.beeper)
    (status : after.status = before.status) (sound : after.timers.sound = before.timers.sound) :
    after.Follows := by
  unfold Follows
  rw [beeper, status, sound]
  exact follows

/-- A silent machine whose sound timer is at zero follows. -/
theorem follows_of_silent (silent : machine.beeper.active = false)
    (zero : machine.timers.sound = 0) : machine.Follows := by
  rw [follows_iff_active, silent, wantsTone, Timers.soundActive, zero]
  exact (Bool.and_false _).symm

/-- What a step or a tick does for the beeper. -/
structure Carries (before after : Machine) : Prop where
  clock : after.clock = before.clock
  /-- At a time that can be told the beeper goes on following. -/
  told : before.lostTime? = none → before.Follows → after.Follows
  /-- At any other time it stays as it is. -/
  lost : before.lostTime? ≠ none → after.beeper = before.beeper

/-- The time is lost by the clock alone. -/
theorem Carries.lostTime (carried : Carries before after) :
    after.lostTime? = before.lostTime? := by
  simp only [lostTime?, carried.clock]

theorem Carries.refl (machine : Machine) : Carries machine machine :=
  ⟨rfl, fun _ follows => follows, fun _ => rfl⟩

theorem Carries.trans {middle : Machine} (first : Carries before middle)
    (second : Carries middle after) : Carries before after where
  clock := second.clock.trans first.clock
  told := fun told follows => second.told (first.lostTime.trans told) (first.told told follows)
  lost := fun lost => (second.lost (first.lostTime ▸ lost)).trans (first.lost lost)

theorem Carries.of_same (clock : after.clock = before.clock) (beeper : after.beeper = before.beeper)
    (status : after.status = before.status) (sound : after.timers.sound = before.timers.sound) :
    Carries before after :=
  ⟨clock, fun _ follows => follows.of_same beeper status sound, fun _ => beeper⟩

/-- Whatever was changed, adjusting the beeper afterwards makes it follow. -/
theorem Carries.adjusted (clock : after.clock = before.clock)
    (beeper : after.beeper = before.beeper) : Carries before after.adjustBeeper := by
  have sameTime : after.lostTime? = before.lostTime? := by simp only [lostTime?, clock]
  constructor
  · rw [adjustBeeper_eq]
    exact clock
  · intro told _
    exact adjustBeeper_follows (sameTime.trans told)
  · intro lost
    rw [adjustBeeper_of_lost (sameTime ▸ lost)]
    exact beeper

/-- Only one operation changes the sound timer. -/
theorem Footprint.sound {word : Word} {operation : Operation}
    (left : Footprint before word operation after) (other : operation ≠ .setSound) :
    after.timers.sound = before.timers.sound := by
  have timers := left.timers
  cases operation
  case setSound => exact absurd rfl other
  all_goals rw [timers]

/-- A step carries the beeper along, be it complete or not. -/
theorem carries_afterStep (machine : Machine) : Carries machine machine.afterStep := by
  rcases afterStep_cases machine with failed |
    ⟨word, operation, after, executed, last, _, _, left, ⟨other, ended⟩ | ⟨_, ended⟩⟩
  · rw [failed]
    exact Carries.refl machine
  all_goals
    have clock : after.clock = machine.clock := by rw [left.host]
    have beeper : after.beeper = machine.beeper := by rw [left.host]
    rw [ended]
  · have status : after.status = machine.status := by rw [left.host]
    exact Carries.of_same clock beeper status (left.sound other)
  · exact Carries.adjusted clock beeper

/-- A tick carries the beeper along. -/
theorem carries_tick (machine : Machine) : Carries machine machine.tick :=
  Carries.adjusted rfl rfl

/-- A run carries the beeper along, however far it comes. -/
theorem carries_follow (run : Run) (moves : List Move) :
    Carries run.machine (run.follow moves).machine :=
  Run.follow_keeps (Carries run.machine) (fun _ carried => carried.trans (carries_afterStep _))
    (fun _ carried => carried.trans (carries_tick _)) (Carries.refl _) moves

/-- What a request does for a beeper that follows: it goes on following, or the time is
lost and the beeper stays as it is. -/
structure Settles (before after : Machine) : Prop where
  told : after.lostTime? = none → after.Follows
  lost : after.lostTime? ≠ none → after.beeper = before.beeper

theorem Carries.settles (carried : Carries before after) (follows : before.Follows) :
    Settles before after where
  told := fun told => carried.told (carried.lostTime ▸ told) follows
  lost := fun lost => carried.lost (carried.lostTime ▸ lost)

theorem Settles.of_same (follows : before.Follows) (beeper : after.beeper = before.beeper)
    (status : after.status = before.status) (sound : after.timers.sound = before.timers.sound) :
    Settles before after :=
  ⟨fun _ => follows.of_same beeper status sound, fun _ => beeper⟩

theorem Settles.of_told (told : after.lostTime? = none) (follows : after.Follows) :
    Settles before after :=
  ⟨fun _ => follows, fun lost => absurd told lost⟩

/-- At time zero the time can be told. -/
theorem lostTime_of_start (start : machine.clock.elapsed = 0) : machine.lostTime? = none := by
  simp only [lostTime?, FrameClock.seconds, start]
  decide +kernel

/-- A reset brings the time back, and silence. -/
theorem reset_silent (machine : Machine) :
    machine.reset.lostTime? = none ∧ machine.reset.timers.sound = 0 ∧
      machine.reset.beeper.active = false := by
  rw [reset_eq]
  have told : machine.restarted.lostTime? = none := lostTime_of_start rfl
  have sound : machine.restarted.adjustBeeper.timers.sound = 0 := by
    rw [adjustBeeper_eq]
    rfl
  refine ⟨(adjustBeeper_lostTime _).trans told, sound, ?_⟩
  have follows := (follows_iff_active _).mp (adjustBeeper_follows told)
  rw [follows, wantsTone, Timers.soundActive, sound]
  exact Bool.and_false _

/-- A program that is started finds the beeper following. -/
theorem start_settles (machine next : Machine) (memory : Memory) (dialect : Option Dialect) :
    Settles machine (next.start memory dialect) := by
  let back := { next with memory, dialect := dialect.getD next.dialect }.reset
  have told : ({ back with status := .running } : Machine).lostTime? = none :=
    (reset_silent _).1
  exact .of_told ((adjustBeeper_lostTime _).trans told) (adjustBeeper_follows told)

/-- A request other than switching the power off settles the beeper. -/
theorem Follows.settles (follows : machine.Follows) {request : Request}
    (stays : request ≠ .powerOff) : Settles machine (machine.serveOne request) := by
  have unchanged : Settles machine machine := .of_same follows rfl rfl rfl
  have adjusting {next : Machine} (clock : next.clock = machine.clock)
      (beeper : next.beeper = machine.beeper) : Settles machine next.adjustBeeper :=
    (Carries.adjusted clock beeper).settles follows
  cases request
  case powerOff => exact absurd rfl stays
  case load image dialect =>
    rw [serveOne_load]
    split
    · exact unchanged
    · exact start_settles ..
  case loadFile disk path dialect =>
    rw [serveOne_loadFile]
    split
    case h_1 rom _ =>
      have started := start_settles machine machine (machine.memory.install rom.image) dialect
      exact ⟨started.told, started.lost⟩
    case h_2 => exact unchanged
  case reset =>
    obtain ⟨told, sound, silent⟩ := reset_silent machine
    rw [serveOne_reset]
    exact .of_told told (follows_of_silent silent sound)
  case powerOn =>
    obtain ⟨told, sound, silent⟩ := reset_silent machine
    rw [serveOne_powerOn]
    exact .of_told told (follows_of_silent silent sound)
  case pause =>
    rw [serveOne_pause]
    exact adjusting rfl rfl
  case resume =>
    rw [serveOne_resume]
    exact adjusting rfl rfl
  case setStatus code =>
    rw [serveOne_setStatus]
    split
    · exact adjusting rfl rfl
    · exact unchanged
  case setRate rate =>
    rw [serveOne_setRate]
    split
    · exact .of_same follows rfl rfl rfl
    · exact unchanged
  case step => exact serveOne_step machine ▸ (carries_afterStep machine).settles follows
  case skip => exact .of_same follows rfl rfl rfl
  case tick => exact serveOne_tick machine ▸ (carries_tick machine).settles follows
  case runFrame =>
    rw [runFrame_eq_follow]
    exact (carries_follow (Run.begin machine) _).settles follows
  case emulate duration =>
    rw [emulate_eq_follow]
    have passed := outset_eq machine (.emulate duration)
    have beeper : (machine.outset (.emulate duration)).beeper = machine.beeper := by rw [passed]
    have atOutset : (machine.outset (.emulate duration)).Follows :=
      follows.of_same beeper (by rw [passed]) (by rw [passed])
    have settled := (carries_follow (Run.begin (machine.outset (.emulate duration)))
      (machine.agenda (.emulate duration))).settles atOutset
    exact ⟨settled.told, fun lost => (settled.lost lost).trans beeper⟩
  case setKey key pressed =>
    rw [serveOne_setKey]
    split
    · exact .of_same follows rfl rfl rfl
    · exact unchanged
  case clearDelay => exact .of_same follows rfl rfl rfl
  case clearSound =>
    rw [serveOne_clearSound]
    exact adjusting rfl rfl

/-- A request that leaves the beeper behind: the power is switched off during a tone, or
at a time that cannot be told another tone is asked for. -/
def Breaks (machine : Machine) (request : Request) : Prop :=
  (request = .powerOff ∧ machine.wantsTone = true) ∨
    ((machine.serveOne request).lostTime? ≠ none ∧
      (machine.serveOne request).wantsTone ≠ machine.wantsTone)

/-- A request keeps the beeper following, unless it leaves it behind. -/
theorem Follows.serveOne_iff (follows : machine.Follows) (request : Request) :
    (machine.serveOne request).Follows ↔ ¬machine.Breaks request := by
  have before := (follows_iff_active machine).mp follows
  by_cases off : request = .powerOff
  · subst off
    have still : (machine.serveOne .powerOff).beeper.active = machine.wantsTone := before
    have silence : (machine.serveOne .powerOff).wantsTone = false := rfl
    rw [follows_iff_active, Breaks, still, silence]
    cases machine.wantsTone <;> simp
  · have settled := follows.settles off
    cases time : (machine.serveOne request).lostTime? with
    | none => simp [Breaks, off, time, settled.told time]
    | some misuse =>
      have lost : (machine.serveOne request).lostTime? ≠ none := by simp [time]
      have breaks : machine.Breaks request ↔
          (machine.serveOne request).wantsTone ≠ machine.wantsTone := by
        simp [Breaks, off, lost]
      rw [follows_iff_active, settled.lost lost, before, breaks, Decidable.not_not]
      exact eq_comm

/-- A machine is built silent, and its beeper follows it. -/
theorem IsBuilt.follows (built : machine.IsBuilt) : machine.Follows := by
  obtain ⟨tone, device, enabled, silent⟩ := built.audio
  have zero : machine.timers.sound = 0 := by
    rw [built.parts]
    rfl
  exact follows_of_silent (by rw [silent]; rfl) zero

/-- Along a history the beeper follows all the time exactly when no request leaves it
behind. -/
theorem Follows.serveAll_iff (follows : machine.Follows) (requests : List Request) :
    (∀ earlier later, requests = earlier ++ later → (machine.serveAll earlier).Follows) ↔
      ∀ earlier request later, requests = earlier ++ request :: later →
        ¬(machine.serveAll earlier).Breaks request := by
  refine always_iff_never follows (fun earlier request here => ?_) requests
  rw [serveAll_append]
  exact here.serveOne_iff request

/-- From a machine as it is built on, the beeper follows all the time exactly when the power
is never switched off during a tone, and no tone is asked for or ended at a time that cannot
be told. -/
theorem IsBuilt.follows_iff (built : machine.IsBuilt) (requests : List Request) :
    (∀ earlier later, requests = earlier ++ later → (machine.serveAll earlier).Follows) ↔
      ∀ earlier request later, requests = earlier ++ request :: later →
        ¬(machine.serveAll earlier).Breaks request :=
  built.follows.serveAll_iff requests

/-- A program that starts a tone: the sound timer is set to five. -/
def toneProgram : List UInt8 := [0x60, 0x05, 0xF0, 0x18]

/-- Its two instructions start the tone, at whatever time. -/
theorem afterStep_toneProgram
    (installed : machine.memory = Memory.standard.install toneProgram)
    (cleared : machine.registers = .initial) (plain : machine.dialect = .chip8) :
    ∃ registers last, machine.afterStep.afterStep =
      ({ machine with
        registers
        timers := { machine.timers with sound := 5 }
        executed := machine.executed + 2
        last } : Machine).adjustBeeper := by
  have area : Memory.programStart ≤ Memory.standard.size := by decide +kernel
  have fits : toneProgram.length ≤ Memory.standard.capacity := by decide +kernel
  let second : Machine :=
    { machine with
      registers := (machine.registers.set 0 5).advance
      executed := machine.executed + 1
      last := some ⟨.loadByte, 0x6005⟩ }
  have fetchedFirst : machine.fetch.result = .ok 0x6005 :=
    fetch_installed installed area fits 0 (by rw [cleared]; rfl) rfl (by decide)
  have knownFirst : Operation.ofWord? machine.dialect.extendedDisplay 0x6005 = some .loadByte := by
    rw [plain]
    rfl
  have afterFirst : machine.afterStep = second :=
    afterStep_of_ok (step_eq_ok.mpr
      ⟨0x6005, .loadByte, fetchedFirst, knownFirst, .executed, _, rfl, rfl⟩)
  have registers : second.registers = (Registers.initial.set 0 5).advance := by
    rw [← cleared]
  have kept : second.memory = Memory.standard.install toneProgram := installed
  have fetchedSecond : second.fetch.result = .ok 0xF018 :=
    fetch_installed kept area fits 2 (by rw [registers]; rfl) rfl (by decide)
  have knownSecond : Operation.ofWord? second.dialect.extendedDisplay 0xF018 = some .setSound := by
    change Operation.ofWord? machine.dialect.extendedDisplay 0xF018 = _
    rw [plain]
    rfl
  have value : second.registers.get 0 = 5 := by
    rw [registers]
    rfl
  refine ⟨second.registers.advance, some ⟨.setSound, 0xF018⟩, ?_⟩
  rw [afterFirst, afterStep_of_ok (step_eq_ok.mpr
    ⟨0xF018, .setSound, fetchedSecond, knownSecond, .executed, _, rfl, rfl⟩), ← value]
  rfl

def toneHistory : List Request := [.load toneProgram none, .step, .step]

/-- They bring a machine to a tone, at time zero. -/
theorem serveAll_toneHistory (beeper : Beeper) :
    let machine := (ofRate 700 .chip8 0 beeper).serveAll toneHistory
    machine.Follows ∧ machine.wantsTone = true ∧ machine.clock = ⟨.whole 700, .whole 60, 0⟩ := by
  have fits : toneProgram.length ≤ Memory.standard.capacity := by decide +kernel
  obtain ⟨beeper, loaded⟩ := @serveOne_load_eq (ofRate 700 .chip8 0 beeper) _ fits none
  let first : Machine :=
    { ofRate 700 .chip8 0 beeper with
      memory := Memory.standard.install toneProgram
      beeper
      status := .running }
  obtain ⟨registers, last, stepped⟩ := @afterStep_toneProgram first rfl rfl rfl
  rw [toneHistory, serveAll_cons, serveAll_cons, serveAll_cons, serveAll_nil, loaded,
    serveOne_step, serveOne_step]
  change first.afterStep.afterStep.Follows ∧ first.afterStep.afterStep.wantsTone = true ∧
    first.afterStep.afterStep.clock = _
  rw [stepped]
  refine ⟨adjustBeeper_follows (lostTime_of_start rfl), ?_⟩
  rw [adjustBeeper_eq]
  exact ⟨rfl, rfl⟩

/-- The tone is paused. -/
def pausedTone : List Request := toneHistory ++ [.pause]

/-- No time passes in all this. -/
theorem elapsed_of_pausedTone {requests : List Request}
    (among : ∀ request ∈ requests, request ∈ pausedTone) (zero : machine.clock.elapsed = 0) :
    (machine.serveAll requests).clock.elapsed = 0 := by
  refine serveAll_keeps (·.clock.elapsed = 0) (fun request member next zero => ?_) zero
  obtain rfl | rfl | rfl :
      request = .load toneProgram none ∨ request = .step ∨ request = .pause := by
    simpa [pausedTone, toneHistory] using among request member
  · rw [serveOne_load]
    split
    · exact zero
    · obtain ⟨beeper, started⟩ := start_eq next (next.memory.install toneProgram) none
      rw [started]
      rfl
  · rw [serveOne_step, (carries_afterStep next).clock]
    exact zero
  · rw [serveOne_pause, pause, setStatus, adjustBeeper_eq]
    exact zero

/-- And nothing in it leaves the beeper behind. -/
theorem not_breaks_of_pausedTone (zero : machine.clock.elapsed = 0) {earlier later : List Request}
    {request : Request} (split : pausedTone = earlier ++ request :: later) :
    ¬(machine.serveAll earlier).Breaks request := by
  have among : ∀ other ∈ earlier ++ [request], other ∈ pausedTone := by
    intro other member
    rw [split, List.append_cons]
    exact List.mem_append_left later member
  have told : ((machine.serveAll earlier).serveOne request).lostTime? = none := by
    have still := elapsed_of_pausedTone among zero
    rw [serveAll_append] at still
    exact lostTime_of_start still
  rintro (⟨rfl, _⟩ | ⟨lost, _⟩)
  · have off := among .powerOff (List.mem_append_right earlier (List.mem_singleton_self _))
    simp [pausedTone, toneHistory] at off
  · exact lost told

/-- What is left of a machine that paused its tone. -/
theorem serveAll_pausedTone {sounding : Machine} (tone : machine.serveAll toneHistory = sounding)
    (wants : sounding.wantsTone = true) :
    (machine.serveAll pausedTone).wantsTone = false ∧
      (machine.serveAll pausedTone).timers.sound = sounding.timers.sound := by
  rw [pausedTone, serveAll_append, tone, serveAll_cons, serveAll_nil,
    pause_eq ((wantsTone_iff _).mp wants).1, adjustBeeper_eq]
  exact ⟨rfl, rfl⟩

/-- With audio, a tone sounds after its two instructions, and a pause ends it while the sound
timer stands. -/
theorem follows_of_pausedTone :
    let start := ofRate 700 .chip8 0 (.silent .standard .idle true)
    (start.serveAll toneHistory).beeper.active = true ∧
      (start.serveAll pausedTone).beeper.active = false ∧
      0 < (start.serveAll pausedTone).timers.sound := by
  intro start
  have built : start.IsBuilt := isBuilt_ofRate (by decide) .chip8 0 .standard .idle true
  have zero : start.clock.elapsed = 0 := rfl
  obtain ⟨_, wants, _⟩ := serveAll_toneHistory (.silent .standard .idle true)
  change (start.serveAll toneHistory).wantsTone = true at wants
  clear_value start
  have follows := (built.follows_iff pausedTone).mpr fun _ _ _ => not_breaks_of_pausedTone zero
  have atTone := (follows_iff_active _).mp (follows toneHistory [.pause] rfl)
  have atPause := (follows_iff_active _).mp (follows pausedTone [] (List.append_nil _).symm)
  obtain ⟨silence, sound⟩ := serveAll_pausedTone rfl wants
  rw [sound]
  exact ⟨atTone.trans wants, atPause.trans silence, ((wantsTone_iff _).mp wants).2⟩

/-- The power is switched off during the tone, and the tone goes on. -/
theorem not_follows_of_powerOff :
    let machine := (ofRate 700 .chip8 0 .mute).serveAll (toneHistory ++ [.powerOff])
    Reachable machine ∧ ¬machine.Follows := by
  intro machine
  obtain ⟨follows, wants, _⟩ := serveAll_toneHistory .mute
  refine ⟨(Reachable.built (isBuilt_mute (by decide) .chip8 0)).serveAll _, fun goesOn => ?_⟩
  change (serveAll _ _).Follows at goesOn
  rw [serveAll_append] at goesOn
  exact (follows.serveOne_iff .powerOff).mp goesOn (.inl ⟨rfl, wants⟩)

end Machine

end Chip8
