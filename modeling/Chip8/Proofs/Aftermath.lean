import Chip8.Proofs.Restarting
import Chip8.Proofs.Trials

/-!
# After the last trial

What a session records is written at many points: a step counts and tells whether it waits, a
fault ends the session, a limit or a breakpoint ends it before the next step, the end of a frame
may end it as well. Of all this only the step that was tried last decides. What is written after
it is an ending other than a fault, and a session that waits stands where it waited: ticks do
not move it on.

A session breaks off only where its machine cannot tell the time. Nothing that a session does
lets time pass, so one that begins at a time that can be told always can be told.
-/

namespace Chip8

namespace Session

variable {limits : Limits} {start session trial : Session} {before : List Session}
  {misuse : Number.Misuse}

/-- The machine stands as it stood before, except for what a step that waits and ticks may
change. -/
structure Stays (before after : Machine) : Prop where
  registers : after.registers = before.registers
  memory : after.memory = before.memory
  dialect : after.dialect = before.dialect
  keypad : after.keypad = before.keypad

theorem Stays.trans {first middle last : Machine} (here : Stays first middle)
    (there : Stays middle last) : Stays first last where
  registers := there.registers.trans here.registers
  memory := there.memory.trans here.memory
  dialect := there.dialect.trans here.dialect
  keypad := there.keypad.trans here.keypad

theorem stays_tick (machine : Machine) : Stays machine machine.tick := by
  rw [Machine.tick, Machine.adjustBeeper_eq]
  exact ⟨rfl, rfl, rfl, rfl⟩

/-- How a session stands after the last of the steps that were tried. -/
inductive Aftermath (limits : Limits) (before : List Session) (session : Session) : Prop where
  | untried (empty : before = []) (waiting : session.waiting = false)
      (sound : session.fault? = none)
  | executed {trial : Session} {next : Machine} (last : before.getLast? = some trial)
      (stepped : trial.machine.step.result = .ok (.executed, next))
      (waiting : session.waiting = false) (sound : session.fault? = none)
  | waits {trial : Session} {next : Machine} (last : before.getLast? = some trial)
      (stepped : trial.machine.step.result = .ok (.waiting, next))
      (waiting : session.waiting = true) (sound : session.fault? = none)
      (stays : Stays trial.machine session.machine)
  | skipped {trial : Session} {word : Word} {address : Int} (last : before.getLast? = some trial)
      (failed : trial.machine.step.result = .error (.unknownOpcode word address))
      (skips : limits.skipsUnknown = true) (waiting : session.waiting = false)
      (sound : session.fault? = none)
  | halted {trial : Session} {fault : Fault} (last : before.getLast? = some trial)
      (failed : trial.machine.step.result = .error fault)
      (kept : ∀ word address, fault = .unknownOpcode word address → limits.skipsUnknown = false)
      (ends : session.ending = some (.fault fault)) (machine : session.machine = trial.machine)
  | lost {misuse : Number.Misuse} (ends : session.ending = some (.number misuse))

/-- A session goes on from an announcement as it stood. -/
theorem ready_rests (limits : Limits) (session : Session) :
    session.Rests (session.ready limits) ∧ (session.ready limits).ending = session.ending := by
  unfold ready
  split
  · exact session.announce_rests
  · exact ⟨⟨rfl, rfl, rfl, rfl⟩, rfl⟩

/-- A session without an ending has not met with a fault. -/
theorem fault_of_going (going : session.ending = none) : session.fault? = none := by
  rw [fault?, going]

/-- A step decides how the session stands after it. -/
theorem aftermath_step (before : List Session) (going : session.ending = none) :
    Aftermath limits (before ++ [session])
      ((session.ready limits).step limits.skipsUnknown) := by
  have last : (before ++ [session]).getLast? = some session := List.getLast?_concat
  obtain ⟨rests, same⟩ := session.ready_rests limits
  have goes := same.trans going
  have machine := rests.machine
  generalize session.ready limits = ready at machine goes
  cases result : session.machine.step.result with
  | ok ended =>
    obtain ⟨progress, next⟩ := ended
    simp only [step, machine, result]
    cases progress with
    | executed => exact .executed last result rfl (fault_of_going goes)
    | waiting =>
      obtain ⟨word, _, _, _, rfl⟩ := Machine.step_waits_iff.mp result
      exact .waits last result rfl (fault_of_going goes) ⟨rfl, rfl, rfl, rfl⟩
    | untimed misuse => exact .lost rfl
  | error fault =>
    simp only [step, machine, result, fail]
    split
    case h_1 skips => exact .skipped last result skips rfl (fault_of_going goes)
    case h_2 other =>
      refine .halted last result ?_ rfl rfl
      rintro word address rfl
      exact Bool.eq_false_iff.mpr fun skips => other word address rfl skips

/-- An ending other than a fault leaves it so. -/
theorem Aftermath.finish {ending : Ending} (left : Aftermath limits before session)
    (going : session.ending = none) (harmless : ∀ fault, ending ≠ .fault fault) :
    Aftermath limits before (session.finish ending) := by
  have sound : (session.finish ending).fault? = none := by
    rw [fault?, Session.finish]
    cases ending
    case fault fault => exact absurd rfl (harmless fault)
    all_goals rfl
  cases left with
  | untried empty waiting _ => exact .untried empty waiting sound
  | executed last stepped waiting _ => exact .executed last stepped waiting sound
  | waits last stepped waiting _ stays => exact .waits last stepped waiting sound stays
  | skipped last failed skips waiting _ => exact .skipped last failed skips waiting sound
  | halted _ _ _ ends => cases going.symm.trans ends
  | lost ends => cases going.symm.trans ends

/-- So does a tick that is counted. -/
theorem Aftermath.tick (left : Aftermath limits before session) (going : session.ending = none)
    (frames : Nat) :
    Aftermath limits before { session with machine := session.machine.tick, frames } := by
  have sound := fault_of_going going
  cases left with
  | untried empty waiting _ => exact .untried empty waiting sound
  | executed last stepped waiting _ => exact .executed last stepped waiting sound
  | waits last stepped waiting _ stays =>
    exact .waits last stepped waiting sound (stays.trans (stays_tick session.machine))
  | skipped last failed skips waiting _ => exact .skipped last failed skips waiting sound
  | halted _ _ _ ends => cases going.symm.trans ends
  | lost ends => cases going.symm.trans ends

/-- So does the end of a frame. -/
theorem Aftermath.closeFrame (left : Aftermath limits before session)
    (going : session.ending = none) : Aftermath limits before (session.closeFrame limits) := by
  have notEnded : ¬session.ending.isSome = true := by simp [going]
  rw [Session.closeFrame, if_neg notEnded]
  cases session.machine.lostTime? with
  | some misuse => exact .lost rfl
  | none =>
    have ticked := left.tick going (session.frames + 1)
    dsimp only
    split
    · exact ticked.finish going (by simp)
    · exact ticked

/-- Whatever follows, the step that was tried last decides. -/
theorem Course.aftermath (course : Course limits start before session)
    (waiting : start.waiting = false) (going : start.ending = none) :
    Aftermath limits before session := by
  induction course with
  | begun => exact .untried rfl waiting (fault_of_going going)
  | @tried before _ _ goes _ => exact aftermath_step before goes
  | @limited _ _ ending _ goes limit inductionHypothesis =>
    apply inductionHypothesis.finish goes
    rintro fault rfl
    simp at limit
  | closed _ goes inductionHypothesis => exact inductionHypothesis.closeFrame goes

/-- Where the time can be told, no step breaks off. -/
theorem step_timely (going : session.ending = none) (told : session.machine.lostTime? = none)
    (skipsUnknown : Bool) (misuse : Number.Misuse) :
    (session.step skipsUnknown).ending ≠ some (.number misuse) := by
  cases result : session.machine.step.result with
  | ok ended =>
    obtain ⟨progress, next⟩ := ended
    simp only [step, result]
    cases progress with
    | untimed other =>
      have lost := (Machine.step_untimed_iff.mp ⟨next, result⟩).2
      cases told.symm.trans (Machine.lostTime_eq_some.mpr lost)
    | executed | waiting =>
      intro lost
      cases going.symm.trans lost
  | error fault =>
    simp only [step, result, fail]
    split
    · intro lost
      cases going.symm.trans lost
    · intro lost
      cases lost

/-- Nor does the end of a frame. -/
theorem closeFrame_timely (going : session.ending = none)
    (told : session.machine.lostTime? = none) (misuse : Number.Misuse) :
    (session.closeFrame limits).ending ≠ some (.number misuse) := by
  have notEnded : ¬session.ending.isSome = true := by simp [going]
  rw [closeFrame, if_neg notEnded, told]
  dsimp only
  split
  · intro lost
    cases lost
  · intro lost
    cases going.symm.trans lost

/-- Steps, ticks and words that are moved over take no time. -/
theorem Course.clock (course : Course limits start before session) :
    session.machine.clock = start.machine.clock := by
  have ofStep (machine : Machine) (same : machine.clock = start.machine.clock) :
      machine.afterStep.clock = start.machine.clock :=
    (Machine.carries_afterStep machine).clock.trans same
  have ofTick (machine : Machine) (same : machine.clock = start.machine.clock) :
      machine.tick.clock = start.machine.clock := (Machine.carries_tick machine).clock.trans same
  induction course with
  | begun => rfl
  | @tried _ session _ _ inductionHypothesis =>
    have ready := (session.ready_rests limits).1.machine
    exact step_keeps (·.clock = start.machine.clock) ofStep (fun _ _ _ same _ => same)
      (ready ▸ inductionHypothesis) limits.skipsUnknown
  | limited _ _ _ inductionHypothesis => exact inductionHypothesis
  | closed _ _ inductionHypothesis =>
    exact closeFrame_keeps (·.clock = start.machine.clock) ofTick inductionHypothesis

/-- A session that begins where the time can be told never breaks off. -/
theorem Course.timely (course : Course limits start before session)
    (told : start.machine.lostTime? = none) (going : start.ending = none)
    (misuse : Number.Misuse) : session.ending ≠ some (.number misuse) := by
  cases course with
  | begun => exact going ▸ nofun
  | @tried before earlier earlierCourse goes =>
    obtain ⟨rests, same⟩ := earlier.ready_rests limits
    apply step_timely (same.trans goes)
    rw [rests.machine, Machine.lostTime_of_clock earlierCourse.clock]
    exact told
  | limited _ _ limit =>
    rintro ends
    cases ends
    simp at limit
  | closed earlierCourse goes =>
    exact closeFrame_timely goes ((Machine.lostTime_of_clock earlierCourse.clock).trans told) misuse

end Session

end Chip8
