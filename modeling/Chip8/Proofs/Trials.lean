import Chip8.Proofs.Accounts

/-!
# Trials

Not every attempt of a session comes to its step: a limit may be reached before, or a
breakpoint. Those that do are its trials. They are kept as a list of sessions, each as it
was before the step, so that whatever a step depends on can be read off.

How the list grows is told once, as the course of a session. A trial is followed by what its
step makes of the session; a limit and the end of a frame add none. What is said of sessions
together with their trials follows by induction on the course.
-/

namespace Chip8

namespace Session

variable {limits : Limits} {start session : Session} {before : List Session}

/-- The next attempt comes to its step. -/
def triesStep (limits : Limits) (session : Session) : Bool :=
  !session.ending.isSome && !reached limits.steps session.steps &&
    !(session.steps != 0 && limits.breaksAt session.machine.registers.pc.toNat)

/-- The session before the step that a move tries, if it tries one. -/
def trialOf (limits : Limits) (session : Session) : Move → List Session
  | .step => if session.triesStep limits then [session] else []
  | .tick => []

/-- The sessions before the steps that moves try, the earliest first. -/
def trialsOf (limits : Limits) (session : Session) : List Move → List Session
  | [] => []
  | move :: rest =>
    session.trialOf limits move ++ (session.move limits move).trialsOf limits rest

/-- The sessions before the steps that are tried in a number of frames. -/
def trials (limits : Limits) (perFrame : Nat) (session : Session) : Nat → List Session
  | 0 => []
  | rounds + 1 =>
    if session.ending.isSome || reached limits.frames session.frames then []
    else
      session.trialsOf limits (Run.frameMoves perFrame) ++
        (session.frame limits perFrame).trials limits perFrame rounds

/-- A session before its step. -/
def ready (limits : Limits) (session : Session) : Session :=
  if limits.reports then session.announce else session

/-- How a session goes on from its start, with the sessions before the steps that were tried. -/
inductive Course (limits : Limits) (start : Session) : List Session → Session → Prop where
  | begun : Course limits start [] start
  | tried {before : List Session} {session : Session} (course : Course limits start before session)
      (going : session.ending = none) :
      Course limits start (before ++ [session])
        ((session.ready limits).step limits.skipsUnknown)
  | limited {before : List Session} {session : Session} {ending : Ending}
      (course : Course limits start before session) (going : session.ending = none)
      (limit : ending = .frameLimit ∨ ending = .stepLimit ∨ ending = .breakpoint) :
      Course limits start before (session.finish ending)
  | closed {before : List Session} {session : Session}
      (course : Course limits start before session) (going : session.ending = none) :
      Course limits start before (session.closeFrame limits)

/-- A move carries the course on. -/
theorem Course.move (course : Course limits start before session) (move : Move) :
    Course limits start (before ++ session.trialOf limits move) (session.move limits move) := by
  cases ended : session.ending with
  | some ending =>
    have isSome : session.ending.isSome = true := by rw [ended]; rfl
    have none : session.trialOf limits move = [] := by
      cases move with
      | step => simp only [trialOf, triesStep, isSome, Bool.not_true, Bool.false_and]; rfl
      | tick => rfl
    have still : session.move limits move = session := follow_of_ended isSome [move]
    rw [none, still, List.append_nil]
    exact course
  | none =>
    cases move with
    | tick =>
      rw [trialOf, List.append_nil]
      exact course.closed ended
    | step =>
      simp only [trialOf, triesStep, Session.move, attempt, ended, Option.isSome_none,
        Bool.not_false, Bool.true_and, Bool.false_eq_true, if_false]
      cases full : reached limits.steps session.steps with
      | true =>
        simp only [Bool.not_true, Bool.false_and, Bool.false_eq_true, if_false, if_true,
          List.append_nil]
        exact course.limited ended (.inr (.inl rfl))
      | false =>
        cases here : session.steps != 0 && limits.breaksAt session.machine.registers.pc.toNat with
        | true =>
          simp only [Bool.not_true, Bool.and_false, Bool.false_eq_true, if_false, if_true,
            List.append_nil]
          exact course.limited ended (.inr (.inr rfl))
        | false => exact course.tried ended

/-- So do moves, one after the other. -/
theorem Course.follow (course : Course limits start before session) (moves : List Move) :
    Course limits start (before ++ session.trialsOf limits moves)
      (session.follow limits moves) := by
  induction moves generalizing before session with
  | nil =>
    rw [trialsOf, List.append_nil]
    exact course
  | cons move rest inductionHypothesis =>
    rw [trialsOf, ← List.append_assoc]
    exact inductionHypothesis (course.move move)

/-- So do frames. -/
theorem Course.play (course : Course limits start before session) (perFrame rounds : Nat) :
    Course limits start (before ++ session.trials limits perFrame rounds)
      (session.play limits perFrame rounds) := by
  induction rounds generalizing before session with
  | zero =>
    rw [trials, List.append_nil]
    exact course
  | succ rounds inductionHypothesis =>
    rw [trials, Session.play]
    cases ended : session.ending with
    | some ending =>
      simp only [Option.isSome_some, Bool.true_or, if_true, List.append_nil]
      exact course
    | none =>
      cases full : reached limits.frames session.frames with
      | true =>
        simp only [Option.isSome_none, Bool.or_true, if_true, Bool.false_eq_true, if_false,
          List.append_nil]
        exact course.limited ended (.inl rfl)
      | false =>
        simp only [Option.isSome_none, Bool.or_false, Bool.false_eq_true, if_false]
        rw [frame_eq_follow, ← List.append_assoc]
        exact inductionHypothesis (course.follow (Run.frameMoves perFrame))

/-- The course of a session from its beginning, through a number of frames. -/
theorem course_play (limits : Limits) (machine : Machine) (perFrame rounds : Nat) :
    Course limits (begin machine) ((begin machine).trials limits perFrame rounds)
      ((begin machine).play limits perFrame rounds) :=
  Course.begun.play perFrame rounds

/-- Below its limits a session tries its first step at once. -/
theorem begin_mem_trials (machine : Machine) (frames : reached limits.frames 0 = false)
    (steps : reached limits.steps 0 = false) (perFrame rounds : Nat) :
    begin machine ∈ (begin machine).trials limits (perFrame + 1) (rounds + 1) := by
  have first : (begin machine).triesStep limits = true := by
    simp only [triesStep, begin, steps]
    rfl
  have going : ((begin machine).ending.isSome ||
      reached limits.frames (begin machine).frames) = false := frames
  rw [trials, if_neg (Bool.eq_false_iff.mp going)]
  apply List.mem_append_left
  rw [Run.frameMoves, List.replicate_succ, List.cons_append, trialsOf]
  apply List.mem_append_left
  rw [trialOf, if_pos first]
  exact List.mem_singleton_self _

end Session

end Chip8
