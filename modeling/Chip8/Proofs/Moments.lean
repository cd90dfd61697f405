import Chip8.Proofs.Accounts
import Chip8.Proofs.Forgetting

/-!
# Moments

A machine is met at more moments than those between two requests: a frame or a slice of time
is under way, or a session stands between two attempts. A moment is a machine that some use
has come to, at any of these points. The one request that is left out is to move over the
next instruction, whatever it is. A session may do so, but only where the word there means
nothing.

Steps, ticks and words that are moved over are all that a session does to its machine,
whatever its limits are and however it ends. What these three keep, it keeps at every moment.
-/

namespace Chip8

namespace Session

variable {limits : Limits} {session : Session} (holds : Machine → Prop)
  (ofStep : ∀ machine, holds machine → holds machine.afterStep)
  (ofTick : ∀ machine, holds machine → holds machine.tick)
  (ofSkip : ∀ machine word address, holds machine →
    machine.step.result = .error (.unknownOpcode word address) → holds machine.skip)

include ofStep ofSkip in
/-- An attempted step keeps what steps keep, if moving over a word without meaning does. -/
theorem step_keeps (start : holds session.machine) (skipsUnknown : Bool) :
    holds (session.step skipsUnknown).machine := by
  cases result : session.machine.step.result with
  | ok ended =>
    obtain ⟨progress, next⟩ := ended
    have stepped : holds next := Machine.afterStep_of_ok result ▸ ofStep _ start
    simp only [Session.step, result]
    cases progress <;> exact stepped
  | error fault =>
    simp only [Session.step, result]
    unfold fail
    split
    · exact ofSkip _ _ _ start result
    · exact start

include ofStep ofSkip in
/-- So does an attempt, with its checks and its report. -/
theorem attempt_keeps (start : holds session.machine) :
    holds (session.attempt limits).machine := by
  have announced := session.announce_rests.1.machine
  unfold attempt
  split
  · exact start
  · split
    · exact start
    · apply step_keeps holds ofStep ofSkip
      split
      · exact announced ▸ start
      · exact start

include ofTick in
/-- To close a frame keeps what ticks keep. -/
theorem closeFrame_keeps (start : holds session.machine) :
    holds (session.closeFrame limits).machine := by
  have ticked := ofTick _ start
  unfold closeFrame
  split
  · exact start
  · split
    · exact ticked
    · dsimp only
      split <;> exact ticked

include ofStep ofTick ofSkip

/-- A session that follows moves keeps what all three keep. -/
theorem follow_keeps (start : holds session.machine) (moves : List Move) :
    holds (session.follow limits moves).machine := by
  induction moves generalizing session with
  | nil => exact start
  | cons move rest inductionHypothesis =>
    have moved : holds (session.move limits move).machine := by
      cases move with
      | tick => exact closeFrame_keeps holds ofTick start
      | step =>
        change holds (if session.ending.isSome then session else session.attempt limits).machine
        split
        · exact start
        · exact attempt_keeps holds ofStep ofSkip start
    exact inductionHypothesis moved

/-- Frame by frame it goes on to be kept. -/
theorem play_keeps (start : holds session.machine) (perFrame rounds : Nat) :
    holds (session.play limits perFrame rounds).machine := by
  induction rounds generalizing session with
  | zero => exact start
  | succ rounds inductionHypothesis =>
    rw [play]
    split
    · exact start
    · split
      · exact start
      · apply inductionHypothesis
        rw [frame_eq_follow]
        exact follow_keeps holds ofStep ofTick ofSkip start _

/-- It is kept to the end of the session, which may be reached at once. -/
theorem run_keeps {machine : Machine} (start : holds machine) (limits : Limits) :
    holds (run limits machine).machine := by
  unfold run
  cases machine.clock.stepsPerFrame with
  | error misuse => exact start
  | ok perFrame =>
    have began : holds (begin machine).machine := start
    exact play_keeps holds ofStep ofTick ofSkip began perFrame limits.fuel

end Session

namespace Machine

variable {machine : Machine}

/-- The machines that are met in the course of any use, from the construction on. -/
inductive Moment : Machine → Prop where
  | built {machine : Machine} (built : machine.IsBuilt) : Moment machine
  /-- A request has been served, be it granted or refused. -/
  | served {machine : Machine} (moment : Moment machine) (request : Request)
      (direct : request ≠ .skip) : Moment (machine.serveOne request)
  /-- A request is under way, and some of its moves are made. -/
  | underWay {machine : Machine} (moment : Moment machine) (request : Request)
      {before : List Move} (leading : before <+: machine.agenda request) :
      Moment ((Run.begin (machine.outset request)).follow before).machine
  /-- A session is under way, with some of its frames complete and some attempts in the next. -/
  | session {machine : Machine} (moment : Moment machine) (limits : Session.Limits)
      {perFrame : Nat} (told : machine.clock.stepsPerFrame = .ok perFrame) (rounds : Nat)
      {count : Nat} (part : count ≤ perFrame) :
      Moment (((Session.begin machine).play limits perFrame rounds).attempts limits count).machine

/-- A history of requests comes from one moment to another. -/
theorem Moment.serveAll (moment : machine.Moment) {requests : List Request}
    (direct : .skip ∉ requests) : (machine.serveAll requests).Moment := by
  refine serveAll_keeps Moment (fun request member next here => ?_) moment
  have apart : request ≠ .skip := fun same => direct (same ▸ member)
  exact here.served request apart

/-- A request that is not to move over an instruction leaves the registers alone, or clears
them, or makes its moves. -/
theorem serveOne_registers (machine : Machine) {request : Request} (direct : request ≠ .skip) :
    (machine.serveOne request).registers = machine.registers ∨
      (machine.serveOne request).registers = machine.registers.reset ∨
      machine.serveOne request =
        ((Run.begin (machine.outset request)).follow (machine.agenda request)).machine := by
  have adjusted (other : Machine) : other.adjustBeeper.registers = other.registers := by
    rw [adjustBeeper_eq]
  have started (memory : Memory) (dialect : Option Dialect) :
      (machine.start memory dialect).registers = machine.registers.reset := by
    obtain ⟨beeper, known⟩ := start_eq machine memory dialect
    rw [known]
    rfl
  cases request
  case skip => exact absurd rfl direct
  case runFrame => exact .inr (.inr (runFrame_eq_follow machine))
  case emulate duration => exact .inr (.inr (emulate_eq_follow machine duration))
  case step =>
    right; right
    rw [serveOne_step]
    exact (Run.machine_step (.begin machine)).symm
  case tick =>
    right; right
    rw [serveOne_tick]
    exact (Run.machine_tick (.begin machine)).symm
  case load image dialect =>
    rw [serveOne_load]
    split
    · exact .inl rfl
    · exact .inr (.inl (started ..))
  case loadFile disk path dialect =>
    rw [serveOne_loadFile]
    split
    · exact .inr (.inl (started ..))
    · exact .inl rfl
  case reset =>
    rw [serveOne_reset, reset_eq, adjusted]
    exact .inr (.inl rfl)
  case powerOn =>
    right; left
    rw [serveOne_powerOn]
    exact adjusted machine.restarted
  case powerOff | clearDelay => exact .inl rfl
  case pause =>
    rw [serveOne_pause]
    exact .inl (adjusted _)
  case resume =>
    rw [serveOne_resume]
    exact .inl (adjusted _)
  case clearSound =>
    rw [serveOne_clearSound]
    exact .inl (adjusted _)
  case setStatus code =>
    rw [serveOne_setStatus]
    split
    · exact .inl (adjusted _)
    · exact .inl rfl
  case setRate rate =>
    rw [serveOne_setRate]
    split <;> exact .inl rfl
  case setKey key pressed =>
    rw [serveOne_setKey]
    split <;> exact .inl rfl

end Machine

end Chip8
