import Chip8.Proofs.Atomicity
import Chip8.Proofs.Sounding

/-!
# Complete moves

A move is complete when its step or tick has come to its end. A step does not on a
fault, and neither of the two does where it needs the time and the time cannot be told:
a tick needs it always, a step only if it sets the sound timer.

A machine performs a list of moves when it completes one after the other. A run that
follows the list has then gone all the way; any other run has performed the moves before
the first that is not complete, and was stopped by that one. This says about a run, move
by move, all that its final state does not tell.
-/

namespace Chip8

namespace Machine

variable {machine next reached left last : Machine} {move : Move}
  {before after moves performed : List Move} {stop : Run.Stop} {stopped : Option Run.Stop}

/-- A move that comes to its end. -/
inductive Completes (machine : Machine) : Move → Machine → Prop where
  | step {progress : Progress} {next : Machine}
      (stepped : machine.step.result = .ok (progress, next))
      (timed : ∀ misuse, progress ≠ .untimed misuse) : Completes machine .step next
  | tick (told : machine.lostTime? = none) : Completes machine .tick machine.tick

/-- A move that does not: what stops it, and which machine it leaves. -/
inductive Fails (machine : Machine) : Move → Run.Stop → Machine → Prop where
  | fault {fault : Fault} (failed : machine.step.result = .error fault) :
      Fails machine .step (.fault fault) machine
  | untimed {misuse : Number.Misuse} {next : Machine}
      (stepped : machine.step.result = .ok (.untimed misuse, next)) :
      Fails machine .step (.number misuse) next
  | lost {misuse : Number.Misuse} (lost : machine.lostTime? = some misuse) :
      Fails machine .tick (.number misuse) machine.tick

/-- Moves that are completed one after the other. -/
inductive Performs : Machine → List Move → Machine → Prop where
  | nil (machine : Machine) : Performs machine [] machine
  | cons {machine next last : Machine} {move : Move} {rest : List Move}
      (first : machine.Completes move next) (further : Performs next rest last) :
      Performs machine (move :: rest) last

/-- How a list of moves ends: which of them are performed, what stops the next one, and
which machine is left. -/
inductive Outcome (machine : Machine) :
    List Move → List Move → Option Run.Stop → Machine → Prop where
  | complete {moves : List Move} {last : Machine} (performs : machine.Performs moves last) :
      Outcome machine moves moves none last
  | broken {before after : List Move} {move : Move} {reached left : Machine} {stop : Run.Stop}
      (performs : machine.Performs before reached) (fails : reached.Fails move stop left) :
      Outcome machine (before ++ move :: after) before (some stop) left

/-- Every move comes to its end or does not. -/
theorem completes_or_fails (machine : Machine) (move : Move) :
    (∃ next, machine.Completes move next) ∨ ∃ stop left, machine.Fails move stop left := by
  cases move with
  | step =>
    cases result : machine.step.result with
    | error fault => exact .inr ⟨_, _, .fault result⟩
    | ok ended =>
      obtain ⟨progress, next⟩ := ended
      cases progress with
      | executed => exact .inl ⟨next, .step result (by simp)⟩
      | waiting => exact .inl ⟨next, .step result (by simp)⟩
      | untimed misuse => exact .inr ⟨_, _, .untimed result⟩
  | tick =>
    cases time : machine.lostTime? with
    | none => exact .inl ⟨_, .tick time⟩
    | some misuse => exact .inr ⟨_, _, .lost time⟩

/-- A move that is complete touches neither clock nor status. -/
theorem Completes.host (completes : machine.Completes move next) :
    next.clock = machine.clock ∧ next.status = machine.status := by
  cases completes with
  | tick =>
    rw [Machine.tick, adjustBeeper_eq]
    exact ⟨rfl, rfl⟩
  | step stepped =>
    obtain ⟨word, operation, _, _, found, after, carried, ended⟩ := step_eq_ok.mp stepped
    have left := carryOut_footprint carried
    obtain rfl : (after.conclude ⟨operation, word⟩ found).2 = next := congrArg Prod.snd ended
    have noted : (after.note ⟨operation, word⟩ found).clock = machine.clock ∧
        (after.note ⟨operation, word⟩ found).status = machine.status := by
      rw [left.host]
      cases found <;> exact ⟨rfl, rfl⟩
    unfold conclude
    split
    · rw [settle, adjustBeeper_eq]
      exact noted
    · exact noted

/-- A list of moves that is performed touches neither clock nor status. -/
theorem Performs.host (performs : machine.Performs moves last) :
    last.clock = machine.clock ∧ last.status = machine.status := by
  induction performs with
  | nil => exact ⟨rfl, rfl⟩
  | cons first _ inductionHypothesis =>
    exact ⟨inductionHypothesis.1.trans first.host.1, inductionHypothesis.2.trans first.host.2⟩

/-- Nor does a move that fails. -/
theorem Fails.clock (fails : machine.Fails move stop left) : left.clock = machine.clock := by
  cases fails with
  | fault => rfl
  | untimed stepped => exact afterStep_of_ok stepped ▸ (carries_afterStep machine).clock
  | lost => exact (carries_tick machine).clock

/-- Moves performed after moves. -/
theorem Performs.append (first : machine.Performs before reached)
    (second : reached.Performs after last) : machine.Performs (before ++ after) last := by
  induction first with
  | nil => exact second
  | cons completes _ inductionHypothesis => exact .cons completes (inductionHypothesis second)

/-- A list of moves that is performed can be cut anywhere. -/
theorem performs_append_iff :
    machine.Performs (before ++ after) last ↔
      ∃ reached, machine.Performs before reached ∧ reached.Performs after last := by
  constructor
  · intro performs
    induction before generalizing machine with
    | nil => exact ⟨machine, .nil machine, performs⟩
    | cons move rest inductionHypothesis =>
      cases performs with
      | cons first further =>
        obtain ⟨reached, earlier, later⟩ := inductionHypothesis further
        exact ⟨reached, .cons first earlier, later⟩
  · rintro ⟨reached, first, second⟩
    exact first.append second

/-- Moves of which the first one fails. -/
theorem Outcome.of_fails (fails : machine.Fails move stop left) (rest : List Move) :
    machine.Outcome (move :: rest) [] (some stop) left :=
  @Outcome.broken machine [] rest move machine left stop (.nil machine) fails

/-- A complete move, and what becomes of the others. -/
theorem Outcome.cons (first : machine.Completes move next)
    (further : next.Outcome moves performed stopped last) :
    machine.Outcome (move :: moves) (move :: performed) stopped last := by
  cases further with
  | complete performs => exact .complete (.cons first performs)
  | @broken _ after other reached _ stop performs fails =>
    exact @Outcome.broken machine (move :: performed) after other reached last stop
      (.cons first performs) fails

/-- Whatever stops the moves, the clock stays. -/
theorem Outcome.clock (outcome : machine.Outcome moves performed stopped last) :
    last.clock = machine.clock := by
  cases outcome with
  | complete performs => exact performs.host.1
  | broken performs fails => exact fails.clock.trans performs.host.1

/-- Moves that are stopped by a fault are performed up to the step that fails. -/
theorem Outcome.at_fault {fault : Fault}
    (outcome : machine.Outcome moves performed (some (.fault fault)) last) :
    machine.Performs performed last ∧ last.step.result = .error fault := by
  cases outcome with
  | broken performs fails =>
    cases fails with
    | fault failed => exact ⟨performs, failed⟩

/-- Moves that are not stopped by a number are all performed, or all before a step that
fails at a fault. -/
theorem Outcome.not_number_iff (outcome : machine.Outcome moves performed stopped last) :
    (¬∃ misuse, stopped = some (.number misuse)) ↔
      (machine.Performs moves last ∧ stopped = none) ∨
        ∃ before after fault, moves = before ++ .step :: after ∧ machine.Performs before last ∧
          last.step.result = .error fault ∧ stopped = some (.fault fault) := by
  constructor
  · intro timely
    cases outcome with
    | complete performs => exact .inl ⟨performs, rfl⟩
    | broken performs fails =>
      cases fails with
      | fault failed => exact .inr ⟨_, _, _, rfl, performs, failed, rfl⟩
      | untimed stepped => exact absurd ⟨_, rfl⟩ timely
      | lost lost => exact absurd ⟨_, rfl⟩ timely
  · rintro (⟨_, rfl⟩ | ⟨_, _, _, _, _, _, rfl⟩) ⟨misuse, stops⟩
    · cases stops
    · cases stops

end Machine

namespace Run

open Machine

variable {run : Run} {machine next left last : Machine} {move : Move}
  {moves performed : List Move} {stop : Run.Stop} {stopped : Option Run.Stop}

/-- A run that goes on makes a move that is complete, and still goes on. -/
theorem move_of_completes (going : run.stop = none)
    (completes : run.machine.Completes move next) :
    (run.move move).machine = next ∧ (run.move move).stop = none := by
  cases completes with
  | tick told => simp only [Run.move, tick, going, told, Option.map_none, and_self]
  | @step progress next stepped timed =>
    cases progress with
    | untimed misuse => exact absurd rfl (timed misuse)
    | executed => simp only [Run.move, step, going, stepped, and_self]
    | waiting => simp only [Run.move, step, going, stepped, and_self]

/-- A run that goes on is stopped by a move that fails. -/
theorem move_of_fails (going : run.stop = none) (fails : run.machine.Fails move stop left) :
    (run.move move).machine = left ∧ (run.move move).stop = some stop := by
  cases fails with
  | fault failed => simp only [Run.move, step, going, failed, and_self]
  | untimed stepped => simp only [Run.move, step, going, stepped, and_self]
  | lost lost => simp only [Run.move, tick, going, lost, Option.map_some, and_self]

/-- A run performs the moves it follows, or those before the first that fails. -/
theorem follow_outcome (run : Run) (going : run.stop = none) (moves : List Move) :
    ∃ performed, run.machine.Outcome moves performed (run.follow moves).stop
      (run.follow moves).machine := by
  induction moves generalizing run with
  | nil => exact ⟨[], going ▸ .complete (.nil run.machine)⟩
  | cons move rest inductionHypothesis =>
    change ∃ performed, run.machine.Outcome _ performed ((run.move move).follow rest).stop
      ((run.move move).follow rest).machine
    rcases completes_or_fails run.machine move with ⟨next, completes⟩ | ⟨stop, left, fails⟩
    · obtain ⟨moved, goes⟩ := move_of_completes going completes
      obtain ⟨performed, outcome⟩ := inductionHypothesis (run.move move) goes
      exact ⟨_, .cons completes (moved ▸ outcome)⟩
    · obtain ⟨moved, stopped⟩ := move_of_fails going fails
      rw [follow_of_stopped (stopped ▸ rfl), moved, stopped]
      exact ⟨[], .of_fails fails rest⟩

/-- Moves that can be performed are followed to their end. -/
theorem follow_of_performs (going : run.stop = none)
    (performs : run.machine.Performs moves last) :
    (run.follow moves).machine = last ∧ (run.follow moves).stop = none := by
  induction moves generalizing run with
  | nil =>
    cases performs
    exact ⟨rfl, going⟩
  | cons move rest inductionHypothesis =>
    cases performs with
    | cons first further =>
      obtain ⟨moved, goes⟩ := move_of_completes going first
      exact inductionHypothesis goes (moved ▸ further)

/-- A run that has not been stopped has performed all its moves. -/
theorem performs_of_going (run : Run) (moves : List Move)
    (going : (run.follow moves).stop = none) :
    run.machine.Performs moves (run.follow moves).machine := by
  have start : run.stop = none := by
    cases stopped : run.stop with
    | none => rfl
    | some reason =>
      rw [follow_of_stopped (stopped ▸ rfl), stopped] at going
      cases going
  obtain ⟨performed, outcome⟩ := follow_outcome run start moves
  rw [going] at outcome
  generalize (run.follow moves).machine = last at outcome ⊢
  cases outcome with
  | complete performs => exact performs

/-- A run ends in the one way in which its moves can end. -/
theorem follow_of_outcome (going : run.stop = none)
    (outcome : run.machine.Outcome moves performed stopped last) :
    (run.follow moves).machine = last ∧ (run.follow moves).stop = stopped := by
  cases outcome with
  | complete performs => exact follow_of_performs going performs
  | broken performs fails =>
    obtain ⟨arrived, goes⟩ := follow_of_performs going performs
    obtain ⟨moved, stops⟩ := move_of_fails goes (arrived ▸ fails)
    rw [follow_append]
    change (((run.follow _).move _).follow _).machine = _ ∧
      (((run.follow _).move _).follow _).stop = _
    rw [follow_of_stopped (stops ▸ rfl)]
    exact ⟨moved, stops⟩

end Run

namespace Machine

variable {machine next : Machine} {moves earlier later : List Move} {misuse : Number.Misuse}

/-- Following the moves, the machine comes to one that needs the time. -/
inductive NeedsTime : Machine → List Move → Prop where
  | tick {machine : Machine} {rest : List Move} : NeedsTime machine (.tick :: rest)
  | sound {machine : Machine} {rest : List Move} (sets : machine.SetsSound) :
      NeedsTime machine (.step :: rest)
  | step {machine next : Machine} {progress : Progress} {rest : List Move}
      (stepped : machine.step.result = .ok (progress, next)) (further : NeedsTime next rest) :
      NeedsTime machine (.step :: rest)

/-- More moves need the time all the more. -/
theorem NeedsTime.append (needs : machine.NeedsTime earlier) (later : List Move) :
    machine.NeedsTime (earlier ++ later) := by
  induction needs with
  | tick => exact .tick
  | sound sets => exact .sound sets
  | step stepped _ inductionHypothesis => exact .step stepped inductionHypothesis

/-- A move that fails for want of the time is one that needs it. -/
theorem Fails.needsTime {move : Move} {left : Machine}
    (fails : machine.Fails move (.number misuse) left) (rest : List Move) :
    machine.lostTime? = some misuse ∧ machine.NeedsTime (move :: rest) := by
  cases fails with
  | untimed stepped =>
    obtain ⟨sets, lost⟩ := step_untimed_iff.mp ⟨_, stepped⟩
    exact ⟨lostTime_eq_some.mpr lost, .sound sets⟩
  | lost lost => exact ⟨lost, .tick⟩

/-- What is needed after moves that are performed is needed by them together. -/
theorem Performs.needsTime {reached : Machine} (performs : machine.Performs earlier reached)
    (needs : reached.NeedsTime later) : machine.NeedsTime (earlier ++ later) := by
  induction performs with
  | nil => exact needs
  | cons first _ inductionHypothesis =>
    cases first with
    | tick => exact .tick
    | step stepped => exact .step stepped (inductionHypothesis needs)

/-- The clock alone tells the time. -/
theorem lostTime_of_clock (same : next.clock = machine.clock) :
    next.lostTime? = machine.lostTime? := by
  simp only [lostTime?, same]

/-- A run is stopped for want of the time exactly if the time is lost and one of the moves
needs it. -/
theorem follow_stop_number_iff (run : Run) (going : run.stop = none) :
    (run.follow moves).stop = some (.number misuse) ↔
      run.machine.lostTime? = some misuse ∧ run.machine.NeedsTime moves := by
  constructor
  · intro stops
    obtain ⟨performed, outcome⟩ := Run.follow_outcome run going moves
    rw [stops] at outcome
    generalize (run.follow moves).machine = left at outcome
    cases outcome with
    | broken performs fails =>
      obtain ⟨lost, needs⟩ := fails.needsTime _
      exact ⟨lostTime_of_clock performs.host.1 ▸ lost, performs.needsTime needs⟩
  · -- A move that fails with a number fails with the misuse that loses the time.
    rintro ⟨lost, needs⟩
    have failing {run : Run} {move : Move} {left : Machine} (rest : List Move)
        (going : run.stop = none) (fails : run.machine.Fails move (.number misuse) left) :
        (run.follow (move :: rest)).stop = some (.number misuse) :=
      (Run.follow_of_outcome going (.of_fails fails rest)).2
    generalize here : run.machine = machine at lost needs
    induction needs generalizing run with
    | tick =>
      subst here
      exact failing _ going (.lost lost)
    | sound sets =>
      subst here
      obtain ⟨next, stepped⟩ := step_untimed_iff.mpr ⟨sets, lostTime_eq_some.mp lost⟩
      exact failing _ going (.untimed stepped)
    | @step machine next progress rest stepped further inductionHypothesis =>
      subst here
      have same : next.lostTime? = run.machine.lostTime? :=
        lostTime_of_clock (afterStep_of_ok stepped ▸ (carries_afterStep run.machine).clock)
      by_cases untimed : ∃ other, progress = .untimed other
      · obtain ⟨other, rfl⟩ := untimed
        obtain ⟨told, _⟩ := (Fails.untimed stepped).needsTime rest
        obtain rfl : other = misuse := Option.some.inj (told.symm.trans lost)
        exact failing rest going (.untimed stepped)
      · have completes : run.machine.Completes .step next :=
          .step stepped fun other ends => untimed ⟨other, ends⟩
        obtain ⟨moved, goes⟩ := Run.move_of_completes going completes
        exact inductionHypothesis (run.move .step) goes moved (same.trans lost)

end Machine

end Chip8
