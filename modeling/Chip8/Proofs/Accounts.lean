import Chip8.Proofs.Deeds
import Chip8.Proofs.Sessions

/-!
# Accounts of sessions

What a session reports when it returns is an account of what was done to its machine. Its
counts are those of the deeds: so many complete frames, each with its steps and a tick, and
a part of the next one. The steps are the instructions that the machine has counted, the
words that were moved over, and the waits.

An attempt goes one of five ways, and a frame is closed in one of three. Everything said
about whole sessions is derived from these two inversions, by induction on the attempts of
a frame and on the frames. A session with a limit returns, since the limit bounds its frames.

All this holds for every machine, whatever the limits are and whatever tells that time
is up.
-/

namespace Chip8

/-- There is always a step in a frame. -/
theorem FrameClock.stepsPerFrame_pos {clock : FrameClock} {steps : Nat}
    (told : clock.stepsPerFrame = .ok steps) : 0 < steps := by
  unfold stepsPerFrame at told
  cases divided : clock.rate.div clock.timerRate with
  | error misuse =>
    rw [divided] at told
    cases told
  | ok quotient =>
    rw [divided] at told
    change (quotient.round >>= fun nearest => pure (max 1 nearest.toNat)) = _ at told
    cases rounded : quotient.round with
    | error misuse =>
      rw [rounded] at told
      cases told
    | ok nearest =>
      rw [rounded] at told
      cases told
      exact Nat.lt_of_lt_of_le Nat.zero_lt_one (Nat.le_max_left 1 _)

namespace Session

variable {limits : Limits} {perFrame made count : Nat} {start : Machine}
  {session middle after : Session} {deeds : List Deed} {deed : Deed} {ending : Ending}

/-- A breakpoint is set where the machine stands; only its lower twelve bits count. -/
def Limits.Breaks (limits : Limits) (machine : Machine) : Prop :=
  ∃ breakpoint ∈ limits.breakpoints, breakpoint % 0x1000 = machine.registers.pc.toNat

theorem Limits.breaksAt_iff (limits : Limits) (machine : Machine) :
    limits.breaksAt machine.registers.pc.toNat = true ↔ limits.Breaks machine := by
  simp only [breaksAt, Breaks, addressSpace, List.any_eq_true, beq_iff_eq]
  rfl

/-- The session stands at a breakpoint, and has made a step. -/
def AtBreakpoint (limits : Limits) (session : Session) : Prop :=
  0 < session.steps ∧ limits.Breaks session.machine

/-- The session stands before an attempt: no limit has been reached, and time is not up. -/
structure AtAttempt (limits : Limits) (session : Session) : Prop where
  frames : reached limits.frames session.frames = false
  time : session.frames = 0 ∨ limits.timeUp session.frames = false
  steps : reached limits.steps session.steps = false

/-- A session makes a deed, and counts it. -/
structure Makes (before : Session) (deed : Deed) (after : Session) : Prop where
  does : before.machine.Does deed after.machine
  steps : after.steps = before.steps + [deed.move].count .step
  frames : after.frames = before.frames + [deed].count .tick
  skipped : after.skipped = before.skipped + [deed].count .skip

/-- Nothing is done to the machine, and nothing counted. -/
structure Rests (before after : Session) : Prop where
  machine : after.machine = before.machine
  steps : after.steps = before.steps
  frames : after.frames = before.frames
  skipped : after.skipped = before.skipped

/-- What becomes of an attempt. -/
inductive Attempted (limits : Limits) (session : Session) : Session → Prop where
  | stepLimit (full : reached limits.steps session.steps = true) :
      Attempted limits session (session.finish .stepLimit)
  | breakpoint (room : reached limits.steps session.steps = false)
      (stands : session.AtBreakpoint limits) :
      Attempted limits session (session.finish .breakpoint)
  | made {after : Session} {deed : Deed} (room : reached limits.steps session.steps = false)
      (clear : ¬session.AtBreakpoint limits) (isStep : deed.move = .step)
      (makes : session.Makes deed after) (goesOn : after.ending = none) :
      Attempted limits session after
  | failed {after : Session} {fault : Fault}
      (room : reached limits.steps session.steps = false)
      (clear : ¬session.AtBreakpoint limits) (rests : session.Rests after)
      (failed : session.machine.step.result = .error fault)
      (ends : after.ending = some (.fault fault)) : Attempted limits session after
  /-- The time cannot be told. -/
  | lost {after : Session} {misuse : Number.Misuse} (ends : after.ending = some (.number misuse)) :
      Attempted limits session after

/-- To announce an attempt is to rest. -/
theorem announce_rests (session : Session) :
    session.Rests session.announce ∧ session.announce.ending = session.ending := by
  simp only [announce]
  cases (shownWord session.machine).result <;> exact ⟨⟨rfl, rfl, rfl, rfl⟩, rfl⟩

/-- Past the checks, an attempt is a step, announced or not. -/
theorem step_cases (room : reached limits.steps session.steps = false)
    (clear : ¬session.AtBreakpoint limits) (rests : session.Rests middle)
    (going : middle.ending = none) : Attempted limits session (middle.step limits.skipsUnknown) := by
  obtain ⟨machine, steps, frames, skipped⟩ := rests
  cases result : session.machine.step.result with
  | ok ended =>
    obtain ⟨progress, next⟩ := ended
    simp only [step, machine, result]
    cases progress with
    | untimed misuse => exact .lost rfl
    | executed =>
      exact .made room clear rfl ⟨.execute result, congrArg (· + 1) steps, frames, skipped⟩ going
    | waiting =>
      exact .made room clear rfl ⟨.wait result, congrArg (· + 1) steps, frames, skipped⟩ going
  | error fault =>
    simp only [step, machine, result]
    unfold fail
    split
    · -- The word without meaning is moved over.
      have isStep : Deed.skip.move = .step := rfl
      exact .made room clear isStep
        ⟨.skip result, congrArg (· + 1) steps, frames, congrArg (· + 1) skipped⟩ going
    · exact .failed room clear ⟨rfl, steps, frames, skipped⟩ result rfl

/-- An attempt goes one of five ways. -/
theorem attempt_cases (going : session.ending = none) :
    Attempted limits session (session.attempt limits) := by
  have stands : (session.steps != 0 && limits.breaksAt session.machine.registers.pc.toNat) = true ↔
      session.AtBreakpoint limits := by
    rw [Bool.and_eq_true, limits.breaksAt_iff, AtBreakpoint, bne_iff_ne, Nat.pos_iff_ne_zero]
  unfold attempt
  split
  case isTrue full => exact .stepLimit full
  case isFalse room =>
    have room := Bool.eq_false_iff.mpr room
    split
    case isTrue here => exact .breakpoint room (stands.mp here)
    case isFalse away =>
      have clear : ¬session.AtBreakpoint limits := fun here => away (stands.mpr here)
      split
      · obtain ⟨rests, same⟩ := session.announce_rests
        exact step_cases room clear rests (same.trans going)
      · exact step_cases room clear ⟨rfl, rfl, rfl, rfl⟩ going

/-- A frame that goes on is closed by a tick, after which time may be up, or breaks off. -/
theorem closeFrame_cases (limits : Limits) (going : session.ending = none) :
    (∃ misuse, (session.closeFrame limits).ending = some (.number misuse)) ∨
      (session.Makes .tick (session.closeFrame limits) ∧
        (session.closeFrame limits).ending =
          if limits.timeUp (session.closeFrame limits).frames then some .timeUp else none) := by
  cases told : session.machine.lostTime? with
  | some misuse =>
    simp only [closeFrame, going, told]
    exact .inl ⟨misuse, rfl⟩
  | none =>
    refine .inr ?_
    simp only [closeFrame, going, told]
    by_cases up : limits.timeUp (session.frames + 1) = true
    · simp only [up, if_true]
      exact ⟨⟨.tick told, rfl, rfl, rfl⟩, by simp [finish, up]⟩
    · simp only [up]
      exact ⟨⟨.tick told, rfl, rfl, rfl⟩, by simp [up]⟩

/-- Below a limit there is room for one more. -/
theorem room_iff {limit : Option Int} {count : Nat} :
    reached limit count = false ↔ ∀ bound ∈ limit, count < bound := by
  cases limit with
  | none => simp [reached]
  | some bound => simp [reached]

/-- What a session counts is what was done, and no step but the first was attempted at a
breakpoint. -/
structure Ledger (limits : Limits) (start : Machine) (session : Session) (deeds : List Deed) :
    Prop where
  does : start.DoesAll deeds session.machine
  steps : session.steps = (deeds.map Deed.move).count .step
  skipped : session.skipped = deeds.count .skip
  unbroken : ∀ earlier deed, earlier ++ [deed] <+: deeds → deed.move = .step →
    Move.step ∈ earlier.map Deed.move →
      ∃ reached, start.DoesAll earlier reached ∧ ¬limits.Breaks reached

/-- A session enters a deed that it makes; a step is not made at a breakpoint. -/
theorem Ledger.enter (ledger : Ledger limits start session deeds)
    (makes : session.Makes deed after)
    (clear : deed.move = .step → ¬session.AtBreakpoint limits) :
    Ledger limits start after (deeds ++ [deed]) where
  does := ledger.does.concat makes.does
  steps := by
    rw [makes.steps, ledger.steps, List.map_append, List.count_append]
    rfl
  skipped := by rw [makes.skipped, ledger.skipped, List.count_append]
  unbroken := by
    intro earlier last leading isStep stepped
    -- There is something to show of the newest deed only.
    rcases List.prefix_concat_iff.mp leading with whole | before
    · obtain ⟨rfl, newest⟩ := List.append_inj' whole rfl
      obtain rfl := List.singleton_inj.mp newest
      have some : 0 < session.steps := by
        rw [ledger.steps]
        exact List.count_pos_iff.mpr stepped
      exact ⟨session.machine, ledger.does, fun breaks => clear isStep ⟨some, breaks⟩⟩
    · exact ledger.unbroken earlier last before isStep stepped

/-- The deeds of a session make up complete frames and a part of the next, within the limits. -/
structure Tally (limits : Limits) (perFrame : Nat) (start : Machine) (session : Session)
    (deeds : List Deed) (made : Nat) : Prop where
  ledger : Ledger limits start session deeds
  layout : deeds.map Deed.move =
    Run.framesMoves perFrame session.frames ++ List.replicate made .step
  stepLimit : ∀ limit ∈ limits.steps, session.steps ≤ limit.toNat
  frameLimit : ∀ limit ∈ limits.frames, session.frames ≤ limit.toNat

/-- Nothing is done before a session begins. -/
theorem tally_begin (limits : Limits) (perFrame : Nat) (machine : Machine) :
    Tally limits perFrame machine (begin machine) [] 0 where
  ledger :=
    { does := .nil machine
      steps := rfl
      skipped := rfl
      unbroken := by
        intro earlier deed leading
        cases List.append_eq_nil_iff.mp (List.prefix_nil.mp leading) |>.2 }
  layout := rfl
  stepLimit := fun _ _ => Nat.zero_le _
  frameLimit := fun _ _ => Nat.zero_le _

/-- A session that rests keeps its tally. -/
theorem Tally.rest (tally : Tally limits perFrame start session deeds made)
    (rests : session.Rests after) : Tally limits perFrame start after deeds made := by
  obtain ⟨⟨does, steps, skipped, unbroken⟩, layout, stepLimit, frameLimit⟩ := tally
  rw [← rests.machine] at does
  rw [← rests.steps] at steps stepLimit
  rw [← rests.skipped] at skipped
  rw [← rests.frames] at layout frameLimit
  exact ⟨⟨does, steps, skipped, unbroken⟩, layout, stepLimit, frameLimit⟩

/-- A step within the limit belongs to the frame that is being made. -/
theorem Tally.step (tally : Tally limits perFrame start session deeds made)
    (makes : session.Makes deed after) (isStep : deed.move = .step)
    (clear : ¬session.AtBreakpoint limits) (room : reached limits.steps session.steps = false) :
    after.frames = session.frames ∧
      Tally limits perFrame start after (deeds ++ [deed]) (made + 1) := by
  have frames : after.frames = session.frames := by
    rw [makes.frames]
    cases deed
    case tick => cases isStep
    all_goals rfl
  refine ⟨frames, tally.ledger.enter makes fun _ => clear, ?_, ?_, ?_⟩
  · rw [List.map_append, tally.layout, frames, List.replicate_succ', ← List.append_assoc,
      List.map_singleton, isStep]
  · intro limit isLimit
    have below := room_iff.mp room limit isLimit
    rw [makes.steps, isStep, List.count_singleton_self]
    omega
  · rw [frames]
    exact tally.frameLimit

/-- A tick within the limit makes a frame complete. -/
theorem Tally.tick (tally : Tally limits perFrame start session deeds perFrame)
    (makes : session.Makes .tick after) (room : reached limits.frames session.frames = false) :
    after.frames = session.frames + 1 ∧
      Tally limits perFrame start after (deeds ++ [.tick]) 0 := by
  have frames : after.frames = session.frames + 1 := makes.frames
  have steps : after.steps = session.steps := makes.steps
  refine ⟨frames, tally.ledger.enter makes nofun, ?_, ?_, ?_⟩
  · rw [List.map_append, tally.layout, frames, Run.framesMoves_concat, List.append_assoc,
      List.replicate_zero, List.append_nil]
    rfl
  · rw [steps]
    exact tally.stepLimit
  · intro limit isLimit
    have below := room_iff.mp room limit isLimit
    omega

/-- The counts of steps and ticks say how many frames are complete. -/
theorem Tally.counts (tally : Tally limits perFrame start session deeds made) :
    session.steps = session.frames * perFrame + made ∧ deeds.count .tick = session.frames := by
  obtain ⟨steps, ticks⟩ := Run.count_framesMoves_append perFrame session.frames made
  rw [← tally.layout] at steps ticks
  exact ⟨tally.ledger.steps.trans steps, (Deed.count_ticks deeds).symm.trans ticks⟩

/-- Why a session ends, other than by a number that cannot be told. -/
inductive EndsFor (limits : Limits) (session : Session) : Ending → Prop where
  | frameLimit (full : reached limits.frames session.frames = true) :
      EndsFor limits session .frameLimit
  | stepLimit (full : reached limits.steps session.steps = true) :
      EndsFor limits session .stepLimit
  | breakpoint (attempts : session.AtAttempt limits) (stands : session.AtBreakpoint limits) :
      EndsFor limits session .breakpoint
  | timeUp (some : session.frames ≠ 0) (up : limits.timeUp session.frames = true) :
      EndsFor limits session .timeUp
  | fault {fault : Fault} (clear : ¬session.AtBreakpoint limits)
      (failed : session.machine.step.result = .error fault) :
      EndsFor limits session (.fault fault)

/-- A session that goes on in a frame, or between two of them. -/
structure Playing (limits : Limits) (perFrame : Nat) (start : Machine) (session : Session)
    (made : Nat) : Prop where
  going : session.ending = none
  time : session.frames = 0 ∨ limits.timeUp session.frames = false
  tally : ∃ deeds, Tally limits perFrame start session deeds made

/-- A session that has ended, with its tally unless it broke off. -/
inductive Closed (limits : Limits) (perFrame : Nat) (start : Machine) (session : Session) :
    Prop where
  | lost (misuse : Number.Misuse) (ends : session.ending = some (.number misuse))
  | settled {deeds : List Deed} {made : Nat} {ending : Ending}
      (ends : session.ending = some ending) (part : made < perFrame)
      (tally : Tally limits perFrame start session deeds made)
      (reason : EndsFor limits session ending)

theorem Closed.ended (closed : Closed limits perFrame start session) :
    session.ending.isSome = true := by
  cases closed with
  | lost _ ends => rw [ends]; rfl
  | settled ends => rw [ends]; rfl

/-- A session that has ended attempts nothing. -/
theorem attempts_of_ended (ended : session.ending.isSome = true) (limits : Limits) (count : Nat) :
    session.attempts limits count = session := by
  rw [attempts_eq_follow]
  exact follow_of_ended ended _

/-- An attempt within a frame leads on in the frame, or ends the session. -/
theorem Playing.attempt (playing : Playing limits perFrame start session made)
    (room : reached limits.frames session.frames = false) (part : made < perFrame) :
    (Playing limits perFrame start (session.attempt limits) (made + 1) ∧
        (session.attempt limits).frames = session.frames) ∨
      Closed limits perFrame start (session.attempt limits) := by
  obtain ⟨going, time, deeds, tally⟩ := playing
  have resting (ending : Ending) : session.Rests (session.finish ending) := ⟨rfl, rfl, rfl, rfl⟩
  generalize attempted : session.attempt limits = after
  have found := attempted ▸ attempt_cases going
  cases found with
  | stepLimit full => exact .inr (.settled rfl part (tally.rest (resting _)) (.stepLimit full))
  | breakpoint free stands =>
    exact .inr (.settled rfl part (tally.rest (resting _)) (.breakpoint ⟨room, time, free⟩ stands))
  | failed free clear rests failed ends =>
    have clearAfter : ¬after.AtBreakpoint limits := by
      rw [AtBreakpoint, rests.machine, rests.steps]
      exact clear
    rw [← rests.machine] at failed
    exact .inr (.settled ends part (tally.rest rests) (.fault clearAfter failed))
  | lost ends => exact .inr (.lost _ ends)
  | made free clear isStep makes goesOn =>
    obtain ⟨frames, entered⟩ := tally.step makes isStep clear free
    refine .inl ⟨⟨goesOn, ?_, _, entered⟩, frames⟩
    rw [frames]
    exact time

/-- The attempts of a frame, one after the other. -/
theorem Playing.attempts (playing : Playing limits perFrame start session made)
    (room : reached limits.frames session.frames = false) (fits : made + count ≤ perFrame) :
    (Playing limits perFrame start (session.attempts limits count) (made + count) ∧
        (session.attempts limits count).frames = session.frames) ∨
      Closed limits perFrame start (session.attempts limits count) := by
  induction count generalizing session made with
  | zero => exact .inl ⟨playing, rfl⟩
  | succ count inductionHypothesis =>
    have going : ¬session.ending.isSome = true := by simp [playing.going]
    rw [Session.attempts, if_neg going]
    rcases playing.attempt room (by omega) with ⟨further, frames⟩ | closed
    · rw [← frames] at room ⊢
      have rest := inductionHypothesis further room (by omega)
      rwa [Nat.add_right_comm] at rest
    · rw [attempts_of_ended closed.ended]
      exact .inr closed

/-- A frame is complete, or ends the session. -/
theorem Playing.frame (playing : Playing limits perFrame start session 0) (some : 0 < perFrame)
    (room : reached limits.frames session.frames = false) :
    (Playing limits perFrame start (session.frame limits perFrame) 0 ∧
        (session.frame limits perFrame).frames = session.frames + 1) ∨
      Closed limits perFrame start (session.frame limits perFrame) := by
  have full : 0 + perFrame ≤ perFrame := by omega
  rw [Session.frame]
  rcases playing.attempts room full with ⟨⟨going, time, deeds, tally⟩, frames⟩ | closed
  case inr =>
    rw [closeFrame, if_pos closed.ended]
    exact .inr closed
  generalize session.attempts limits perFrame = middle at *
  rw [Nat.zero_add] at tally
  rw [← frames] at room ⊢
  rcases closeFrame_cases limits going with ⟨misuse, ends⟩ | ⟨makes, ends⟩
  · exact .inr (.lost misuse ends)
  obtain ⟨counted, complete⟩ := tally.tick makes room
  by_cases up : limits.timeUp (middle.closeFrame limits).frames = true
  · rw [if_pos up] at ends
    have timeUp : EndsFor limits (middle.closeFrame limits) .timeUp := by
      apply EndsFor.timeUp _ up
      omega
    exact .inr (.settled ends some complete timeUp)
  · rw [if_neg up] at ends
    exact .inl ⟨⟨ends, .inr (Bool.eq_false_iff.mpr up), _, complete⟩, counted⟩

/-- Frame by frame a session goes on, until it ends. -/
theorem Playing.play (playing : Playing limits perFrame start session 0) (some : 0 < perFrame)
    (rounds : Nat) :
    (Playing limits perFrame start (session.play limits perFrame rounds) 0 ∧
        (session.play limits perFrame rounds).frames = session.frames + rounds) ∨
      Closed limits perFrame start (session.play limits perFrame rounds) := by
  induction rounds generalizing session with
  | zero => exact .inl ⟨playing, rfl⟩
  | succ rounds inductionHypothesis =>
    have going : ¬session.ending.isSome = true := by simp [playing.going]
    rw [Session.play, if_neg going]
    by_cases full : reached limits.frames session.frames = true
    · obtain ⟨_, _, deeds, tally⟩ := playing
      rw [if_pos full]
      have resting : session.Rests (session.finish .frameLimit) := ⟨rfl, rfl, rfl, rfl⟩
      exact .inr (.settled rfl some (tally.rest resting) (.frameLimit full))
    rw [if_neg full]
    rcases playing.frame some (Bool.eq_false_iff.mpr full) with ⟨further, frames⟩ | closed
    · have rest := inductionHypothesis further
      rwa [frames, Nat.add_right_comm, Nat.add_assoc] at rest
    · rw [play_of_ended closed.ended]
      exact .inr closed

/-- A session returns when it ends, other than by a number that cannot be told. -/
def Returns (session : Session) : Prop :=
  ∃ ending, session.ending = some ending ∧ ∀ misuse, ending ≠ .number misuse

theorem Returns.not_lost (returns : session.Returns) {misuse : Number.Misuse} :
    session.ending ≠ some (.number misuse) := by
  obtain ⟨ending, ended, settled⟩ := returns
  intro lost
  cases ended.symm.trans lost
  exact settled misuse rfl

/-- The account of a session that began with a machine, over the deeds that were done to it
and the steps made in the frame that was not complete. -/
structure Balances (limits : Limits) (perFrame : Nat) (start : Machine) (session : Session)
    (deeds : List Deed) (made : Nat) : Prop where
  does : start.DoesAll deeds session.machine
  /-- Every complete frame has its steps and, behind them, its tick. -/
  layout : deeds.map Deed.move =
    Run.framesMoves perFrame session.frames ++ List.replicate made .step
  part : made < perFrame
  steps : session.steps = session.frames * perFrame + made
  ticks : deeds.count .tick = session.frames
  executed : session.machine.executed = start.executed + deeds.count .execute
  skipped : session.skipped = deeds.count .skip
  kinds : session.steps = deeds.count .execute + session.skipped + deeds.count .wait
  /-- A limit below zero counts as zero. -/
  frameLimit : ∀ limit ∈ limits.frames, session.frames ≤ limit.toNat
  stepLimit : ∀ limit ∈ limits.steps, session.steps ≤ limit.toNat
  /-- A breakpoint is the reason to end exactly if the session stands at one before an attempt. -/
  breaks : session.ending = some .breakpoint ↔
    session.AtAttempt limits ∧ session.AtBreakpoint limits
  /-- At no step after the first was there a breakpoint before. -/
  unbroken : ∀ earlier deed, earlier ++ [deed] <+: deeds → deed.move = .step →
    Move.step ∈ earlier.map Deed.move →
      ∃ reached, start.DoesAll earlier reached ∧ ¬limits.Breaks reached
  /-- The fault is that of the step to come, and that step was attempted at no breakpoint. -/
  failed : ∀ fault, session.fault? = some fault →
    session.machine.step.result = .error fault ∧ ¬session.AtBreakpoint limits
  /-- A fault, a breakpoint and the end of time are never reported together. -/
  exclusive : [session.fault?.isSome, session.ending == some .breakpoint,
    session.ending == some .timeUp].count true ≤ 1
  /-- After a wait all steps are waits. -/
  idle : ∀ earlier later, deeds = earlier ++ .wait :: later →
    ∀ deed ∈ later, deed = .wait ∨ deed = .tick
  /-- No session ends before there is a reason for it. -/
  due : ∀ ending, session.ending = some ending → EndsFor limits session ending

/-- A session reports the fault that it has ended for. -/
theorem fault_eq_some {fault : Fault} :
    session.fault? = some fault ↔ session.ending = some (.fault fault) := by
  unfold fault?
  split
  case h_1 found ends => simp [ends]
  case h_2 other =>
    constructor
    · nofun
    · intro ends
      exact absurd ends (other fault)

/-- A session before an attempt at a breakpoint has ended for nothing else. -/
theorem EndsFor.breakpoint_iff (reason : EndsFor limits session ending) :
    ending = .breakpoint ↔ session.AtAttempt limits ∧ session.AtBreakpoint limits := by
  constructor
  · rintro rfl
    cases reason with
    | breakpoint attempts stands => exact ⟨attempts, stands⟩
  · rintro ⟨attempts, stands⟩
    cases reason with
    | breakpoint => rfl
    | frameLimit full => cases full.symm.trans attempts.frames
    | stepLimit full => cases full.symm.trans attempts.steps
    | timeUp some up =>
      rcases attempts.time with none | early
      · exact absurd none some
      · cases up.symm.trans early
    | fault clear => exact absurd stands clear

/-- A settled session balances. -/
theorem Closed.balances (closed : Closed limits perFrame start session)
    (returns : session.Returns) :
    ∃ deeds made, Balances limits perFrame start session deeds made := by
  obtain ⟨ending, ended, told⟩ := returns
  cases closed with
  | lost misuse ends => exact absurd (Option.some.inj (ended.symm.trans ends)) (told misuse)
  | @settled deeds made reason ends part tally endsFor =>
    obtain ⟨steps, ticks⟩ := tally.counts
    refine ⟨deeds, made,
      { does := tally.ledger.does
        layout := tally.layout
        part
        steps
        ticks
        executed := tally.ledger.does.executed
        skipped := tally.ledger.skipped
        kinds := ?_
        frameLimit := tally.frameLimit
        stepLimit := tally.stepLimit
        breaks := ?_
        unbroken := tally.ledger.unbroken
        failed := ?_
        exclusive := ?_
        idle := ?_
        due := ?_ }⟩
    · rw [tally.ledger.steps, tally.ledger.skipped, Deed.count_steps]
    · rw [ends, Option.some.injEq]
      exact endsFor.breakpoint_iff
    · intro fault reported
      obtain rfl := Option.some.inj (ends.symm.trans (fault_eq_some.mp reported))
      cases endsFor with
      | fault clear failed => exact ⟨failed, clear⟩
    · simp only [fault?, ends]
      cases reason <;> simp
    · rintro earlier later rfl
      exact tally.ledger.does.idle_after_wait
    · intro other stopped
      obtain rfl := Option.some.inj (ends.symm.trans stopped)
      exact endsFor

/-- Within its limits a session makes fewer frames than it may be played for. -/
theorem Tally.frames_lt_fuel (tally : Tally limits perFrame start session deeds made)
    (some : 0 < perFrame) (limited : limits.frames.isSome ∨ limits.steps.isSome) :
    session.frames < limits.fuel := by
  rw [Limits.fuel]
  cases frames : limits.frames with
  | some limit =>
    have bounded := tally.frameLimit limit frames
    exact Nat.lt_succ_of_le bounded
  | none =>
    cases steps : limits.steps with
    | some limit =>
      have bounded := tally.stepLimit limit steps
      rw [tally.counts.1] at bounded
      have enough : session.frames ≤ session.frames * perFrame := Nat.le_mul_of_pos_right _ some
      change session.frames < limit.toNat + 2
      omega
    | none => simp [frames, steps] at limited

/-- A session begins between two frames. -/
theorem playing_begin (limits : Limits) (perFrame : Nat) (machine : Machine) :
    Playing limits perFrame machine (begin machine) 0 :=
  ⟨rfl, .inl rfl, [], tally_begin limits perFrame machine⟩

/-- However many frames are played for, a session that has returned balances. -/
theorem balances_of_returns {machine : Machine} {rounds : Nat}
    (told : machine.clock.stepsPerFrame = .ok perFrame)
    (returns : ((begin machine).play limits perFrame rounds).Returns) :
    ∃ deeds made,
      Balances limits perFrame machine ((begin machine).play limits perFrame rounds) deeds
        made := by
  have some := FrameClock.stepsPerFrame_pos told
  rcases (playing_begin limits perFrame machine).play some rounds with ⟨playing, _⟩ | closed
  · obtain ⟨ending, ended, _⟩ := returns
    cases playing.going.symm.trans ended
  · exact closed.balances returns

/-- To run a machine is to play for as many frames as its limits may ask for. -/
theorem run_eq_play {machine : Machine} (told : machine.clock.stepsPerFrame = .ok perFrame)
    (limits : Limits) : run limits machine = (begin machine).play limits perFrame limits.fuel := by
  simp only [run, told]

/-- With a limit of frames or of steps, a run ends. -/
theorem ended_of_limited (machine : Machine)
    (limited : limits.frames.isSome ∨ limits.steps.isSome) :
    (run limits machine).ending.isSome = true := by
  cases told : machine.clock.stepsPerFrame with
  | error misuse => simp [run, told, finish]
  | ok perFrame =>
    have some := FrameClock.stepsPerFrame_pos told
    rw [run_eq_play told]
    rcases (playing_begin limits perFrame machine).play some limits.fuel with
      ⟨⟨_, _, deeds, tally⟩, frames⟩ | closed
    · -- A session that went on would have made more frames than its limits allow.
      have fewer := tally.frames_lt_fuel some limited
      rw [frames] at fewer
      change 0 + limits.fuel < limits.fuel at fewer
      omega
    · exact closed.ended

/-- However many frames are played for, a session that has returned balances. So does a run that
has returned, whose length of a frame could be told then; and with a limit of frames or of steps
a run does end. -/
theorem play_balances (limits : Limits) (machine : Machine) :
    (∀ perFrame rounds, machine.clock.stepsPerFrame = .ok perFrame →
      let session := (begin machine).play limits perFrame rounds
      session.Returns → ∃ deeds made, Balances limits perFrame machine session deeds made) ∧
    ((run limits machine).Returns →
      ∃ perFrame deeds made, machine.clock.stepsPerFrame = .ok perFrame ∧
        Balances limits perFrame machine (run limits machine) deeds made) ∧
    (limits.frames.isSome ∨ limits.steps.isSome → (run limits machine).ending.isSome) := by
  refine ⟨fun _ _ => balances_of_returns, fun returns => ?_, ended_of_limited machine⟩
  cases told : machine.clock.stepsPerFrame with
  | error misuse =>
    have lost : (run limits machine).ending = some (.number misuse) := by
      simp [run, told, finish]
    exact absurd lost returns.not_lost
  | ok perFrame =>
    rw [run_eq_play told] at returns ⊢
    obtain ⟨deeds, made, balances⟩ := balances_of_returns told returns
    exact ⟨perFrame, deeds, made, rfl, balances⟩

/-- A fresh machine of two steps a frame. The second word of its program means nothing, and
the third asks for a key. -/
def patientMachine : Machine :=
  { Machine.ofRate (2 * 60) .chip8 0 .mute with
    memory := { Memory.standard with
      bytes := (((Memory.standard.bytes.setIfInBounds 0x202 0x80).setIfInBounds 0x203 0x08
        ).setIfInBounds 0x204 0xF0).setIfInBounds 0x205 0x0A } }

/-- Both counts are limited, words without meaning are skipped, and there is a breakpoint
where the machine starts. -/
def patientLimits : Limits := ⟨some 3, some 7, [0x1200], true, false, fun _ => false⟩

/-- The breakpoint does not stop the first step. One instruction is carried out, one word is
skipped, and the machine waits for the rest of its three frames. -/
theorem play_balances_of_patient :
    let session := (begin patientMachine).play patientLimits 2 4
    (session.ending = some .frameLimit ∧ session.frames = 3 ∧ session.steps = 6 ∧
      session.skipped = 1 ∧ session.machine.executed = 1) ∧
    run patientLimits patientMachine = session ∧
    (∃ deeds made, Balances patientLimits 2 patientMachine session deeds made) ∧
    ∃ perFrame deeds made,
      Balances patientLimits perFrame patientMachine (run patientLimits patientMachine) deeds
        made := by
  intro session
  have played : session.ending = some .frameLimit ∧ session.frames = 3 ∧ session.steps = 6 ∧
      session.skipped = 1 ∧ session.machine.executed = 1 := by decide +kernel
  have told : patientMachine.clock.stepsPerFrame = .ok 2 :=
    @FrameClock.stepsPerFrame_of_multiple 2 60 0 (by decide) (by decide +kernel) (by decide)
  have returns : session.Returns := ⟨.frameLimit, played.1, nofun⟩
  have same : run patientLimits patientMachine = session := run_eq_play told patientLimits
  obtain ⟨plays, runs, _⟩ := play_balances patientLimits patientMachine
  obtain ⟨perFrame, deeds, made, _, balances⟩ := runs (same ▸ returns)
  exact ⟨played, same, plays 2 4 told returns, perFrame, deeds, made, balances⟩

end Session

end Chip8
