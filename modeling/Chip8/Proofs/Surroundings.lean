import Chip8.Proofs.Completion
import Chip8.Proofs.Isolation

/-!
# Surroundings

Clock, beeper and the origin of the program surround a machine: an instruction that is
carried out neither reads nor writes them. They come in only where the beeper is adjusted,
by a tick or after the sound timer was set.

Two machines that are alike but for their surroundings therefore make the same steps and
ticks, with the same accesses, faults and results, and stay alike. How their surroundings
differ is a parameter, a relation that switching both beepers has to keep. All of this is
shown for one step and one tick, and carried along the moves of a run. Where the time is
lost to one machine only, it holds as long as no move needs the time.
-/

namespace Chip8

namespace Beeper

/-- The beeper with another history. -/
def withHistory (beeper : Beeper) (history : List Beep) : Beeper := { beeper with history }

/-- The history after the beeper was switched. Only a change is remembered. -/
def chronicle (beeper : Beeper) (time : Number) (on : Bool) (history : List Beep) : List Beep :=
  if on = beeper.active then history else ⟨if on then .on else .off, time⟩ :: history

variable (beeper : Beeper) (time other : Number) (history : List Beep)

/-- Opening the device does not read the history. -/
theorem prepare_withHistory :
    (beeper.withHistory history).prepare = beeper.prepare.withHistory history := by
  unfold prepare
  cases known : beeper.tone.wave with
  | ok wave => simp only [withHistory, request, known]
  | error misuse =>
    simp only [withHistory, request, known]
    rfl

theorem openDevice_withHistory :
    (beeper.withHistory history).openDevice = beeper.openDevice.withHistory history := by
  obtain ⟨tone, device, enabled, opened, active, before, requests, notices⟩ := beeper
  unfold openDevice
  change (if opened || !enabled then _ else _) = withHistory (if opened || !enabled then _ else _) _
  split
  · rfl
  · cases device
    case started => exact prepare_withHistory _ history
    case idle => exact prepare_withHistory (request _ _) history
    case broken => rfl

/-- Nor does starting or stopping the tone, which takes the time for the history alone. -/
theorem lineOn_withHistory :
    (beeper.withHistory history).lineOn time =
      (beeper.lineOn other).withHistory (⟨.on, time⟩ :: history) := by
  have opened : ((beeper.withHistory history).record .on time).openDevice =
      (beeper.record .on other).openDevice.withHistory (⟨.on, time⟩ :: history) :=
    openDevice_withHistory (beeper.record .on other) _
  unfold lineOn
  rw [opened]
  generalize (beeper.record .on other).openDevice = ready
  change (if ready.opened then _ else _) = withHistory (if ready.opened then _ else _) _
  split <;> rfl

theorem lineOff_withHistory :
    (beeper.withHistory history).lineOff time =
      (beeper.lineOff other).withHistory (⟨.off, time⟩ :: history) := by
  unfold lineOff
  change (if beeper.opened then _ else _) = withHistory (if beeper.opened then _ else _) _
  split <;> rfl

/-- Switching reads neither history nor time: the time is remembered, and that is all. -/
theorem setActive_withHistory (on : Bool) :
    (beeper.withHistory history).setActive time on =
      (beeper.setActive other on).withHistory (beeper.chronicle time on history) := by
  unfold setActive chronicle
  change (if on = beeper.active then _ else _) = _
  split
  · rfl
  · cases on with
    | true => exact lineOn_withHistory { beeper with active := true } time other history
    | false => exact lineOff_withHistory { beeper with active := false } time other history

/-- A change is remembered in front of all that was before. -/
theorem setActive_history (on : Bool) :
    (beeper.setActive time on).history = beeper.chronicle time on beeper.history :=
  congrArg Beeper.history (setActive_withHistory beeper time time beeper.history on)

end Beeper

/-- What surrounds a machine. -/
structure Surroundings where
  clock : FrameClock
  beeper : Beeper
  rom : Option Rom

namespace Surroundings

/-- Switch the beeper, if the time can be told. -/
def switch (around : Surroundings) (on : Bool) : Surroundings :=
  match around.clock.seconds with
  | .ok now => { around with beeper := around.beeper.setActive now on }
  | .error _ => around

/-- Why the beeper cannot be switched, where the time cannot be told. -/
def lostTime? (around : Surroundings) : Option Number.Misuse :=
  match around.clock.seconds with
  | .ok _ => none
  | .error misuse => some misuse

end Surroundings

namespace Traced

variable {α β γ : Type} {agree : α → β → Prop}

/-- Two computations agree when they make the same accesses and end at the same fault or
with results that agree. -/
inductive Agree (agree : α → β → Prop) : Traced α → Traced β → Prop where
  | value (accesses : List Access) {result : α} {other : β} (agrees : agree result other) :
      Agree agree ⟨accesses, .ok result⟩ ⟨accesses, .ok other⟩
  | fault (accesses : List Access) (fault : Fault) :
      Agree agree ⟨accesses, .error fault⟩ ⟨accesses, .error fault⟩

/-- What agrees on the result of a common first part agrees after it. -/
theorem Agree.bind (first : Traced γ) {next : γ → Traced α} {other : γ → Traced β}
    (agrees : ∀ value, first.result = .ok value → Agree agree (next value) (other value)) :
    Agree agree (first >>= next) (first >>= other) := by
  obtain ⟨accesses, result⟩ := first
  cases result with
  | error fault => exact .fault accesses fault
  | ok value =>
    have further := agrees value rfl
    change Agree agree ⟨accesses ++ (next value).accesses, (next value).result⟩
      ⟨accesses ++ (other value).accesses, (other value).result⟩
    generalize next value = rest at further ⊢
    generalize other value = otherRest at further ⊢
    cases further with
    | value more agrees => exact .value _ agrees
    | fault more fault => exact .fault _ fault

end Traced

namespace Machine

variable {machine first second : Machine} {around : Surroundings} {word : Word}
  {operation : Operation} {kin : Surroundings → Surroundings → Prop}

/-- What surrounds the machine. -/
def surroundings (machine : Machine) : Surroundings :=
  ⟨machine.clock, machine.beeper, machine.rom⟩

/-- The machine within other surroundings. -/
def within (machine : Machine) (around : Surroundings) : Machine :=
  { machine with clock := around.clock, beeper := around.beeper, rom := around.rom }

/-- To adjust the beeper is to switch it in the surroundings. -/
theorem adjustBeeper_eq_within (machine : Machine) :
    machine.adjustBeeper = machine.within (machine.surroundings.switch machine.wantsTone) := by
  unfold adjustBeeper Surroundings.switch surroundings
  cases machine.clock.seconds <;> rfl

/-- An operation does not notice its surroundings. -/
theorem carryOut_within (machine : Machine) (around : Surroundings) (word : Word)
    (operation : Operation) :
    (machine.within around).carryOut word operation =
      (fun ended => (ended.1, ended.2.within around)) <$> machine.carryOut word operation := by
  cases operation
  case ret | call | draw | storeDecimal | store | load =>
    rw [carryOut, carryOut, Traced.map_bind]
    exact Traced.bind_congr _ fun _ _ => rfl
  case awaitKey =>
    cases down : machine.keypad.firstPressed? <;> simp only [carryOut, within, down] <;> rfl
  all_goals rfl

/-- An operation leaves its surroundings alone. -/
theorem Footprint.surroundings {next : Machine}
    (left : Footprint machine word operation next) : next.surroundings = machine.surroundings := by
  rw [left.host]
  rfl

/-- The machines are alike but for their surroundings, and these are kin. -/
structure Akin (kin : Surroundings → Surroundings → Prop) (first second : Machine) : Prop where
  around : kin first.surroundings second.surroundings
  parts : second = first.within second.surroundings

/-- Switching both beepers alike keeps surroundings kin, if the time can be told in both of
them or is lost to both in the same way. -/
def SwitchesAlike (kin : Surroundings → Surroundings → Prop) : Prop :=
  ∀ around other on, kin around other → around.lostTime? = other.lostTime? →
    kin (around.switch on) (other.switch on)

/-- The rest of two machines that are akin may change, if it changes alike. -/
theorem Akin.of_within (related : kin first.surroundings around) :
    Akin kin first (first.within around) :=
  ⟨related, rfl⟩

/-- A change that neither reads nor writes the surroundings keeps machines akin. -/
theorem Akin.change (akin : Akin kin first second) (change : Machine → Machine)
    (unread : ∀ machine around, change (machine.within around) = (change machine).within around)
    (unwritten : ∀ machine, (change machine).surroundings = machine.surroundings) :
    Akin kin (change first) (change second) := by
  have related := akin.around
  rw [akin.parts, unread]
  exact ⟨(unwritten first).symm ▸ related, rfl⟩

/-- Machines that are akin may be put within other surroundings. -/
theorem Akin.within {other : Surroundings → Surroundings → Prop} {beside : Surroundings}
    (akin : Akin kin first second) (related : other around beside) :
    Akin other (first.within around) (second.within beside) :=
  ⟨related, by rw [akin.parts]; rfl⟩

/-- Machines that are akin stand at the same word. -/
theorem Akin.setsSound (akin : Akin kin first second) (sets : first.SetsSound) :
    second.SetsSound := by
  rw [akin.parts]
  exact sets

variable (switches : SwitchesAlike kin)

include switches

/-- Machines that are akin adjust their beepers alike. -/
theorem Akin.adjustBeeper (akin : Akin kin first second)
    (timing : first.lostTime? = second.lostTime?) :
    Akin kin first.adjustBeeper second.adjustBeeper := by
  have parts := akin.parts
  have related := akin.around
  generalize second.surroundings = around at parts related
  subst parts
  rw [adjustBeeper_eq_within, adjustBeeper_eq_within]
  exact ⟨switches _ _ _ related timing, rfl⟩

/-- A tick keeps machines akin. -/
theorem Akin.tick (akin : Akin kin first second) (timing : first.lostTime? = second.lostTime?) :
    Akin kin first.tick second.tick := by
  have ticked := akin.change (fun machine => { machine with timers := machine.timers.tick })
    (fun _ _ => rfl) (fun _ => rfl)
  exact ticked.adjustBeeper switches timing

/-- Concluding an instruction keeps machines akin. -/
theorem Akin.conclude (akin : Akin kin first second) (instruction : Instruction)
    (progress : Progress)
    (timing : instruction.operation = .setSound → first.lostTime? = second.lostTime?) :
    (second.conclude instruction progress).1 = (first.conclude instruction progress).1 ∧
      Akin kin (first.conclude instruction progress).2
        (second.conclude instruction progress).2 := by
  have noted : Akin kin (first.note instruction progress) (second.note instruction progress) := by
    rw [akin.parts]
    cases progress <;> exact ⟨akin.around, rfl⟩
  unfold Machine.conclude
  split
  case isTrue sets =>
    have same : (first.note instruction progress).lostTime? =
        (second.note instruction progress).lostTime? := by
      have before := timing sets
      cases progress <;> exact before
    refine ⟨?_, noted.adjustBeeper switches same⟩
    simp only [settle, same]
  case isFalse => exact ⟨rfl, noted⟩

/-- Machines that are akin make the same step, unless it needs the time and the time is lost
to one of them. -/
theorem Akin.step (akin : Akin kin first second)
    (timing : first.SetsSound → first.lostTime? = second.lostTime?) :
    Traced.Agree (fun ended other => other.1 = ended.1 ∧ Akin kin ended.2 other.2)
      first.step second.step := by
  have parts := akin.parts
  have related := akin.around
  generalize second.surroundings = around at parts related
  subst parts
  unfold Machine.step
  refine .bind first.fetch fun word fetched => ?_
  refine .bind (.ofExcept (Instruction.decode first.dialect.extendedDisplay
    first.registers.pc.toNat word)) fun instruction decoded => ?_
  rw [carryOut_within, Traced.bind_map]
  refine .bind _ fun ended carried => ?_
  obtain ⟨progress, after⟩ := ended
  have around_ : after.surroundings = first.surroundings :=
    (carryOut_footprint carried).surroundings
  have clock : after.clock = first.clock := congrArg Surroundings.clock around_
  have still : Akin kin after (after.within around) := .of_within (around_ ▸ related)
  refine .value [] (still.conclude switches instruction progress fun sets => ?_)
  obtain ⟨operation, known, rfl⟩ := Instruction.decode_eq_ok.mp decoded
  have lost := timing ⟨word, fetched, sets ▸ known⟩
  rw [lostTime_of_clock clock, lost]
  rfl

/-- Machines that are akin come to a move that needs the time together. -/
theorem Akin.needsTime (akin : Akin kin first second) {moves : List Move}
    (needs : first.NeedsTime moves) : second.NeedsTime moves := by
  induction needs generalizing second with
  | tick => exact .tick
  | sound sets => exact .sound (akin.setsSound sets)
  | @step machine next progress rest stepped _ inductionHypothesis =>
    by_cases sets : machine.SetsSound
    · exact .sound (akin.setsSound sets)
    · have both := akin.step switches fun needed => absurd needed sets
      generalize machine.step = traced at stepped both
      generalize alongside : second.step = other at both
      cases both with
      | fault => cases stepped
      | value accesses agrees =>
        cases stepped
        have complete := congrArg Traced.result alongside
        exact .step complete (inductionHypothesis agrees.2)

end Machine

namespace Run

variable {kin : Surroundings → Surroundings → Prop} {run first second : Run}

/-- Runs of machines that are akin, with the same accesses and stopped by the same. -/
structure Akin (kin : Surroundings → Surroundings → Prop) (first second : Run) : Prop where
  machine : Machine.Akin kin first.machine second.machine
  accesses : second.accesses = first.accesses
  stop : second.stop = first.stop

/-- A run that goes on after a step has completed it. -/
theorem step_of_going (going : run.step.stop = none) :
    ∃ progress, run.machine.step.result = .ok (progress, run.step.machine) := by
  cases before : run.stop with
  | some reason =>
    rw [step_of_stopped (before ▸ rfl), before] at going
    cases going
  | none =>
    revert going
    simp only [step, before]
    cases result : run.machine.step.result with
    | error fault =>
      intro going
      cases going
    | ok ended =>
      obtain ⟨progress, next⟩ := ended
      cases progress <;> exact fun _ => ⟨_, rfl⟩

variable (switches : Machine.SwitchesAlike kin)

include switches

/-- A tick keeps runs akin. -/
theorem Akin.tick (akin : Run.Akin kin first second)
    (timing : first.machine.lostTime? = second.machine.lostTime?) :
    Run.Akin kin first.tick second.tick := by
  have stop := akin.stop
  cases stopped : first.stop with
  | some reason =>
    rw [stopped] at stop
    simpa only [Run.tick, stopped, stop] using akin
  | none =>
    rw [stopped] at stop
    simp only [Run.tick, stopped, stop]
    exact ⟨akin.machine.tick switches timing, akin.accesses, by simp only [timing]⟩

/-- A step keeps runs akin, unless it needs the time and the time is lost to one of them. -/
theorem Akin.step (akin : Run.Akin kin first second)
    (timing : first.machine.SetsSound →
      first.machine.lostTime? = second.machine.lostTime?) :
    Run.Akin kin first.step second.step := by
  have stop := akin.stop
  cases stopped : first.stop with
  | some reason =>
    rw [stopped] at stop
    simpa only [Run.step, stopped, stop] using akin
  | none =>
    rw [stopped] at stop
    have stepped := akin.machine.step switches timing
    simp only [Run.step, stopped, stop]
    generalize first.machine.step = traced at stepped ⊢
    generalize second.machine.step = other at stepped ⊢
    cases stepped with
    | fault accesses fault =>
      exact ⟨akin.machine, by simp only [akin.accesses], rfl⟩
    | @value accesses ended other agrees =>
      obtain ⟨progress, next⟩ := ended
      obtain ⟨progress', next'⟩ := other
      obtain ⟨rfl, nexts⟩ := agrees
      cases progress' <;> exact ⟨nexts, by simp only [akin.accesses], rfl⟩

/-- Runs that are akin stay so along a list of moves, if none of these needs the time or the
time is lost to neither or to both. -/
theorem Akin.follow (akin : Run.Akin kin first second) (moves : List Move)
    (timing : ¬first.machine.NeedsTime moves ∨
      first.machine.lostTime? = second.machine.lostTime?) :
    Run.Akin kin (first.follow moves) (second.follow moves) := by
  induction moves generalizing first second with
  | nil => exact akin
  | cons move rest inductionHypothesis =>
    have moved : first.machine.lostTime? = second.machine.lostTime? →
        (first.move move).machine.lostTime? = (second.move move).machine.lostTime? := by
      intro same
      exact (Machine.carries_follow first [move]).lostTime.trans
        (same.trans (Machine.carries_follow second [move]).lostTime.symm)
    cases move with
    | tick =>
      have same := timing.resolve_left fun spared => spared .tick
      exact inductionHypothesis (akin.tick switches same) (.inr (moved same))
    | step =>
      have stepped := akin.step switches fun sets =>
        timing.resolve_left fun spared => spared (.sound sets)
      change Run.Akin kin (first.step.follow rest) (second.step.follow rest)
      -- A run that the step has stopped need not be followed, wherever it stands.
      cases stops : first.step.stop with
      | some reason =>
        rw [follow_of_stopped (stops ▸ rfl), follow_of_stopped ((stepped.stop.trans stops) ▸ rfl)]
        exact stepped
      | none =>
        refine inductionHypothesis stepped (timing.imp (fun spared needs => spared ?_) moved)
        obtain ⟨progress, complete⟩ := step_of_going stops
        exact .step complete needs

end Run

end Chip8
