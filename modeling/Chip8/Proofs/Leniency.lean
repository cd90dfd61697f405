import Chip8.Proofs.Aftermath
import Chip8.Proofs.Faults
import Chip8.Proofs.Surroundings

/-!
# Words without meaning

A session may be told to move over words without meaning. It then does what it would do with a
lenient machine, to whose decoder every word means something: where there is no operation, it
takes the one that does nothing but move to the next instruction. The session recovers from a
fault in the middle of a step, and the lenient machine never meets one there; but the step that
fails has changed nothing, and counts for the session as if it had been made.

All that tells the two apart is the record that a machine keeps of its instructions. No
operation reads it. Whether the lenient machine records the words without meaning is a
parameter: if it does not, its sessions leave the very same machine.
-/

namespace Chip8

/-- After a result that is known, a computation is what follows from it. -/
theorem Traced.bind_ok {α β : Type} (accesses : List Access) (value : α) (next : α → Traced β) :
    (⟨accesses, .ok value⟩ : Traced α) >>= next =
      ⟨accesses ++ (next value).accesses, (next value).result⟩ := rfl

namespace Machine

variable {machine reference after : Machine} {counts : Bool} {skipped : Nat} {word : Word}

/-- The machine with another record of its instructions. -/
def withRecord (machine : Machine) (executed : Nat) (last : Option Instruction) : Machine :=
  { machine with executed, last }

/-- The word at the program counter can be fetched, and means nothing. -/
def meetsUnassigned (machine : Machine) : Bool :=
  match machine.fetch.result with
  | .ok word => (Operation.ofWord? machine.dialect.extendedDisplay word).isNone
  | .error _ => false

/-- A step of the lenient machine, which takes words without meaning for an operation that only
moves on. They are recorded if they count. -/
def lenientStep (counts : Bool) (machine : Machine) : Traced (Progress × Machine) := do
  let word ← machine.fetch
  let found := Operation.ofWord? machine.dialect.extendedDisplay word
  let operation := found.getD .sys
  let ended ← machine.carryOut word operation
  pure (if found.isSome || counts then ended.2.conclude ⟨operation, word⟩ ended.1 else ended)

/-- The reference is the machine itself, but for its record. If words without meaning count, it
counts so many instructions more and may have another last one. -/
structure Mirrors (counts : Bool) (skipped : Nat) (machine reference : Machine) : Prop where
  parts : reference =
    machine.withRecord (machine.executed + if counts then skipped else 0) reference.last
  last : counts = false → reference.last = machine.last

/-- An operation neither reads nor writes the record. -/
theorem carryOut_withRecord (machine : Machine) (executed : Nat) (last : Option Instruction)
    (word : Word) (operation : Operation) :
    (machine.withRecord executed last).carryOut word operation =
      (fun ended => (ended.1, ended.2.withRecord executed last)) <$>
        machine.carryOut word operation := by
  cases operation
  case ret | call | draw | storeDecimal | store | load =>
    rw [carryOut, carryOut, Traced.map_bind]
    exact Traced.bind_congr _ fun _ _ => rfl
  case awaitKey =>
    cases down : machine.keypad.firstPressed? <;> simp only [carryOut, withRecord, down] <;> rfl
  all_goals rfl

/-- Nor does adjusting the beeper. -/
theorem adjustBeeper_withRecord (machine : Machine) (executed : Nat)
    (last : Option Instruction) :
    (machine.withRecord executed last).adjustBeeper =
      machine.adjustBeeper.withRecord executed last := by
  cases seconds : machine.clock.seconds with
  | ok now =>
    simp only [adjustBeeper, withRecord, seconds]
    rfl
  | error misuse => simp only [adjustBeeper, withRecord, seconds]

theorem tick_withRecord (machine : Machine) (executed : Nat) (last : Option Instruction) :
    (machine.withRecord executed last).tick = machine.tick.withRecord executed last :=
  adjustBeeper_withRecord { machine with timers := machine.timers.tick } executed last

/-- A machine that mirrors another without counting more is that machine. -/
theorem Mirrors.eq (mirrors : machine.Mirrors false skipped reference) : reference = machine := by
  rw [mirrors.parts, mirrors.last rfl]
  rfl

/-- Whatever does not depend on the record is the same for both. -/
theorem Mirrors.same {α : Type} (mirrors : machine.Mirrors counts skipped reference)
    (look : Machine → α)
    (unread : ∀ machine executed last, look (machine.withRecord executed last) = look machine) :
    look reference = look machine := by
  rw [mirrors.parts]
  exact unread ..

/-- What neither reads nor writes the record keeps machines mirrors of each other. -/
theorem Mirrors.change (mirrors : machine.Mirrors counts skipped reference)
    {change : Machine → Machine}
    (unread : ∀ machine executed last,
      change (machine.withRecord executed last) = (change machine).withRecord executed last)
    (unwritten : ∀ machine, (change machine).executed = machine.executed ∧
      (change machine).last = machine.last) :
    (change machine).Mirrors counts skipped (change reference) := by
  have last : (change reference).last = reference.last := (unwritten reference).2
  constructor
  case parts =>
    rw [last, (unwritten machine).1, ← unread, ← mirrors.parts]
  case last =>
    intro ignored
    rw [last, (unwritten machine).2]
    exact mirrors.last ignored

/-- So does adjusting the beeper, and a tick. -/
theorem Mirrors.adjustBeeper (mirrors : machine.Mirrors counts skipped reference) :
    machine.adjustBeeper.Mirrors counts skipped reference.adjustBeeper :=
  mirrors.change adjustBeeper_withRecord fun machine => by
    rw [adjustBeeper_eq]
    exact ⟨rfl, rfl⟩

theorem Mirrors.tick (mirrors : machine.Mirrors counts skipped reference) :
    machine.tick.Mirrors counts skipped reference.tick :=
  mirrors.change tick_withRecord fun machine => by
    rw [Machine.tick, adjustBeeper_eq]
    exact ⟨rfl, rfl⟩

/-- An instruction that both record is the last of both. -/
theorem Mirrors.note (mirrors : machine.Mirrors counts skipped reference)
    (instruction : Instruction) (progress : Progress) :
    (machine.note instruction progress).Mirrors counts skipped
      (reference.note instruction progress) := by
  have parts := mirrors.parts
  generalize reference.last = last at parts
  subst parts
  constructor
  case parts =>
    cases progress
    case waiting => rfl
    all_goals
      simp only [Machine.note, withRecord]
      rw [Nat.add_right_comm]
  case last =>
    intro _
    cases progress <;> rfl

/-- To conclude an instruction keeps machines mirrors of each other. -/
theorem Mirrors.conclude (mirrors : machine.Mirrors counts skipped reference)
    (instruction : Instruction) (progress : Progress) :
    (reference.conclude instruction progress).1 = (machine.conclude instruction progress).1 ∧
      (machine.conclude instruction progress).2.Mirrors counts skipped
        (reference.conclude instruction progress).2 := by
  have noted := mirrors.note instruction progress
  unfold Machine.conclude
  split
  case isTrue =>
    have lost := noted.same Machine.lostTime? fun _ _ _ => rfl
    refine ⟨?_, noted.adjustBeeper⟩
    simp only [settle, lost]
  case isFalse => exact ⟨rfl, noted⟩

/-- Where the word means something, machine and reference make the same step. -/
theorem Mirrors.step (mirrors : machine.Mirrors counts skipped reference)
    (meaningful : machine.meetsUnassigned = false) :
    Traced.Agree
      (fun ended other => other.1 = ended.1 ∧ ended.2.Mirrors counts skipped other.2)
      machine.step (reference.lenientStep counts) := by
  have parts := mirrors.parts
  have ignored := mirrors.last
  generalize reference.last = last at parts ignored
  subst parts
  unfold Machine.step lenientStep
  refine .bind machine.fetch fun word fetched => ?_
  cases known : Operation.ofWord? machine.dialect.extendedDisplay word with
  | none =>
    rw [meetsUnassigned, fetched] at meaningful
    simp [known] at meaningful
  | some operation =>
    have decoded : Instruction.decode machine.dialect.extendedDisplay machine.registers.pc.toNat
        word = .ok ⟨operation, word⟩ := Instruction.decode_eq_ok.mpr ⟨operation, known, rfl⟩
    have same (executed : Nat) (last : Option Instruction) :
        Operation.ofWord? (machine.withRecord executed last).dialect.extendedDisplay word =
          some operation := known
    simp only [decoded, same, Option.getD_some, Option.isSome_some, Bool.true_or, if_true]
    rw [carryOut_withRecord, Traced.bind_map]
    refine .bind (machine.carryOut word operation) fun ended carried => ?_
    obtain ⟨progress, after⟩ := ended
    -- An operation leaves the record as it was.
    have host := (carryOut_footprint carried).host
    have executed : after.executed = machine.executed := by rw [host]
    have recorded : after.last = machine.last := by rw [host]
    have still : after.Mirrors counts skipped
        (after.withRecord (machine.executed + if counts then skipped else 0) last) :=
      ⟨by rw [executed]; rfl, fun silent => (ignored silent).trans recorded.symm⟩
    exact .value [] (still.conclude ⟨operation, word⟩ progress)

theorem meetsUnassigned_iff :
    machine.meetsUnassigned = true ↔
      ∃ word, machine.fetch.result = .ok word ∧
        Operation.ofWord? machine.dialect.extendedDisplay word = none := by
  unfold meetsUnassigned
  cases machine.fetch.result with
  | error fault => simp
  | ok word => simp

/-- A word that can be fetched has been read, whatever follows. -/
theorem fetch_eq (fetched : machine.fetch.result = .ok word) :
    machine.fetch = ⟨machine.fetch.accesses, .ok word⟩ := by
  rw [← fetched]

/-- At a word without meaning a step fails for it, after the word was read. -/
theorem step_of_meaningless (fetched : machine.fetch.result = .ok word)
    (meaningless : Operation.ofWord? machine.dialect.extendedDisplay word = none) :
    machine.step =
      ⟨machine.fetch.accesses, .error (.unknownOpcode word machine.registers.pc.toNat)⟩ := by
  rw [step, fetch_eq fetched, Traced.bind_ok]
  simp only [Instruction.decode, meaningless, Traced.ofExcept, Traced.bind_error, List.append_nil]

/-- The lenient machine reads the word as well, and moves on. -/
theorem lenientStep_of_meaningless (fetched : machine.fetch.result = .ok word)
    (meaningless : Operation.ofWord? machine.dialect.extendedDisplay word = none) :
    machine.lenientStep counts =
      ⟨machine.fetch.accesses, .ok (.executed,
        if counts then machine.skip.note ⟨.sys, word⟩ .executed else machine.skip)⟩ := by
  rw [lenientStep, fetch_eq fetched, Traced.bind_ok]
  simp only [meaningless]
  cases counts
  all_goals exact congrArg (Traced.mk · _) (List.append_nil _)

/-- No operation fails for a word without meaning. -/
theorem carryOut_ne_unknown {operation : Operation} {other : Word} {address : Int} :
    (machine.carryOut word operation).result ≠ .error (.unknownOpcode other address) := by
  intro failed
  have cause := carryOut_eq_error.mp failed
  cases operation
  case ret => cases (CallStack.pop_eq_error.mp cause).2
  case call => cases (CallStack.push_eq_error.mp cause).2
  case draw | load => cases (Memory.readBlock_eq_error.mp cause).2
  case storeDecimal => cases ((Memory.writeBlock_eq_error rfl).mp cause).2
  case store =>
    have filled : (machine.registers.upTo word.x).isEmpty = false := by
      rw [List.isEmpty_eq_false_iff, ← List.length_pos_iff, Registers.length_upTo]
      exact Nat.succ_pos _
    cases ((Memory.writeBlock_eq_error filled).mp cause).2
  all_goals exact cause

/-- A step fails for a word without meaning only where it meets one. -/
theorem unassigned_of_step {address : Int}
    (failed : machine.step.result = .error (.unknownOpcode word address)) :
    machine.meetsUnassigned = true := by
  rcases step_eq_error.mp failed with unfetched | ⟨other, fetched, ⟨meaningless, _⟩ | carried⟩
  · rw [fetch_result] at unfetched
    split at unfetched
    · cases unfetched
    · cases unfetched
  · exact meetsUnassigned_iff.mpr ⟨other, fetched, meaningless⟩
  · obtain ⟨operation, _, carried⟩ := carried
    exact absurd carried carryOut_ne_unknown

/-- Where the word means something, a step fails for another reason. -/
theorem fault_known {fault : Fault} (meaningful : machine.meetsUnassigned = false)
    (failed : machine.step.result = .error fault) (word : Word) (address : Int) :
    fault ≠ .unknownOpcode word address := by
  rintro rfl
  cases meaningful.symm.trans (unassigned_of_step failed)

/-- Write by write, a step that fails for a word without meaning has changed nothing. -/
theorem run_step_of_unassigned (unassigned : machine.meetsUnassigned = true) :
    ∃ word address,
      InPlace.step.run machine = .error (.fault (.unknownOpcode word address)) machine := by
  obtain ⟨word, fetched, meaningless⟩ := meetsUnassigned_iff.mp unassigned
  refine ⟨word, machine.registers.pc.toNat, ?_⟩
  have unknown : Instruction.decode machine.dialect.extendedDisplay machine.registers.pc.toNat
      word = .error (.unknownOpcode word machine.registers.pc.toNat) := by
    rw [Instruction.decode, meaningless]
  have broke : (InPlace.taking (Instruction.decode machine.dialect.extendedDisplay
      machine.registers.pc.toNat word)).run machine =
        .error (.fault (.unknownOpcode word machine.registers.pc.toNat)) machine := by
    rw [unknown]
    rfl
  rw [InPlace.step, InPlace.run_get_bind, fetched]
  exact (InPlace.run_bind_of_ok rfl).trans (InPlace.run_bind_of_error broke)

/-- The machine that moves over a word without meaning is mirrored by the reference that takes
it for an operation. -/
theorem Mirrors.skip (mirrors : machine.Mirrors counts skipped reference) (word : Word) :
    machine.skip.Mirrors counts (skipped + 1)
      (if counts then reference.skip.note ⟨.sys, word⟩ .executed else reference.skip) := by
  cases counts
  case false =>
    rw [mirrors.eq]
    exact ⟨rfl, fun _ => rfl⟩
  case true =>
    have parts := mirrors.parts
    generalize reference.last = last at parts
    subst parts
    exact ⟨rfl, nofun⟩

end Machine

namespace Session

variable {counts : Bool} {limits : Limits} {session reference : Session}

/-- Go on with what became of an attempt. -/
def take (session : Session) (skipsUnknown : Bool) (traced : Traced (Progress × Machine)) :
    Session :=
  let seen := { session with accesses := session.accesses ++ traced.accesses }
  match traced.result with
  | .ok (.untimed misuse, machine) => { seen with machine }.finish (.number misuse)
  | .ok (progress, machine) =>
    { seen with machine, steps := session.steps + 1, waiting := progress == .waiting }
  | .error fault => seen.fail skipsUnknown fault

/-- Check limit and breakpoints, and attempt the next instruction by a step of the given kind. -/
def attemptBy (act : Machine → Traced (Progress × Machine)) (limits : Limits)
    (session : Session) : Session :=
  if reached limits.steps session.steps then session.finish .stepLimit
  else if session.steps != 0 && limits.breaksAt session.machine.registers.pc.toNat then
    session.finish .breakpoint
  else (session.ready limits).take limits.skipsUnknown (act (session.ready limits).machine)

/-- A number of such attempts, or fewer if the session ends. -/
def attemptsBy (act : Machine → Traced (Progress × Machine)) (limits : Limits) :
    Nat → Session → Session
  | 0, session => session
  | count + 1, session =>
    if session.ending.isSome then session
    else attemptsBy act limits count (session.attemptBy act limits)

/-- At most so many frames with steps of the given kind. -/
def playBy (act : Machine → Traced (Progress × Machine)) (limits : Limits)
    (stepsPerFrame : Nat) : Nat → Session → Session
  | 0, session => session
  | fuel + 1, session =>
    if session.ending.isSome then session
    else if reached limits.frames session.frames then session.finish .frameLimit
    else
      playBy act limits stepsPerFrame fuel
        ((session.attemptsBy act limits stepsPerFrame).closeFrame limits)

/-- Run a machine with steps of the given kind until its session ends. -/
def runBy (act : Machine → Traced (Progress × Machine)) (limits : Limits) (machine : Machine) :
    Session :=
  match machine.clock.stepsPerFrame with
  | .ok steps => (begin machine).playBy act limits steps limits.fuel
  | .error misuse => (begin machine).finish (.number misuse)

theorem step_eq_take (session : Session) (skipsUnknown : Bool) :
    session.step skipsUnknown = session.take skipsUnknown session.machine.step := rfl

/-- With the steps of the machine itself these are the attempts of a session. -/
theorem attemptBy_step (limits : Limits) (session : Session) :
    session.attemptBy Machine.step limits = session.attempt limits := rfl

theorem attemptsBy_step (limits : Limits) (count : Nat) (session : Session) :
    session.attemptsBy Machine.step limits count = session.attempts limits count := by
  induction count generalizing session with
  | zero => rfl
  | succ count inductionHypothesis =>
    rw [attemptsBy, attempts, attemptBy_step, inductionHypothesis]

/-- So are its frames, and the whole run. -/
theorem playBy_step (limits : Limits) (perFrame rounds : Nat) (session : Session) :
    session.playBy Machine.step limits perFrame rounds = session.play limits perFrame rounds := by
  induction rounds generalizing session with
  | zero => rfl
  | succ rounds inductionHypothesis =>
    rw [playBy, play, attemptsBy_step, inductionHypothesis]
    rfl

theorem runBy_step (limits : Limits) (machine : Machine) :
    runBy Machine.step limits machine = run limits machine := by
  unfold runBy run
  cases machine.clock.stepsPerFrame with
  | ok steps => exact playBy_step ..
  | error misuse => rfl

/-- The reference has come as far as the session, in the same way. -/
structure Mirrors (counts : Bool) (session reference : Session) : Prop where
  machine : session.machine.Mirrors counts session.skipped reference.machine
  accesses : reference.accesses = session.accesses
  steps : reference.steps = session.steps
  frames : reference.frames = session.frames
  waiting : reference.waiting = session.waiting
  ending : reference.ending = session.ending

/-- Any other fault ends the session. -/
theorem fail_eq_finish {fault : Fault} (known : ∀ word address, fault ≠ .unknownOpcode word address)
    (skipsUnknown : Bool) : session.fail skipsUnknown fault = session.finish (.fault fault) := by
  cases fault
  case unknownOpcode word address => exact absurd rfl (known word address)
  all_goals rfl

/-- Where a word without meaning is moved over, the lenient machine makes a step. -/
theorem Mirrors.step_skips (mirrors : session.Mirrors counts reference)
    (unassigned : session.machine.meetsUnassigned = true) :
    (session.step true).Mirrors counts
      (reference.take true (reference.machine.lenientStep counts)) := by
  obtain ⟨machine, accesses, steps, frames, waiting, ending⟩ := mirrors
  obtain ⟨word, fetched, meaningless⟩ := Machine.meetsUnassigned_iff.mp unassigned
  have reads := machine.same Machine.fetch fun _ _ _ => rfl
  have dialect := machine.same Machine.dialect fun _ _ _ => rfl
  have failed := Machine.step_of_meaningless fetched meaningless
  have moved := @Machine.lenientStep_of_meaningless reference.machine counts word
    (reads ▸ fetched) (dialect ▸ meaningless)
  simp only [step, take, fail, failed, moved, reads]
  exact ⟨machine.skip word, congrArg (· ++ _) accesses, congrArg (· + 1) steps, frames, rfl, ending⟩

/-- Elsewhere both make the same step. -/
theorem Mirrors.step_agrees (mirrors : session.Mirrors counts reference)
    (meaningful : session.machine.meetsUnassigned = false) :
    (session.step true).Mirrors counts
      (reference.take true (reference.machine.lenientStep counts)) := by
  obtain ⟨machine, accesses, steps, frames, waiting, ending⟩ := mirrors
  have agrees := machine.step meaningful
  rw [step_eq_take]
  generalize made : session.machine.step = traced at agrees ⊢
  generalize reference.machine.lenientStep counts = other at agrees ⊢
  cases agrees with
  | value more agrees =>
    rename_i ended other
    obtain ⟨progress, next⟩ := ended
    obtain ⟨otherProgress, otherNext⟩ := other
    obtain ⟨rfl, mirrored⟩ := agrees
    have sameAccesses := congrArg (fun seen : Array Access => seen ++ more) accesses
    have sameSteps := congrArg (· + 1) steps
    cases otherProgress with
    | untimed misuse => exact ⟨mirrored, sameAccesses, steps, frames, waiting, rfl⟩
    | executed | waiting => exact ⟨mirrored, sameAccesses, sameSteps, frames, rfl, ending⟩
  | fault more fault =>
    have known := Machine.fault_known meaningful (congrArg Traced.result made)
    have sameAccesses := congrArg (fun seen : Array Access => seen ++ more) accesses
    simp only [take, fail_eq_finish known, finish]
    exact ⟨machine, sameAccesses, steps, frames, waiting, rfl⟩

/-- A session that skips words without meaning and one with the lenient machine make the same
step. -/
theorem Mirrors.step (mirrors : session.Mirrors counts reference) :
    (session.step true).Mirrors counts
      (reference.take true (reference.machine.lenientStep counts)) := by
  cases unassigned : session.machine.meetsUnassigned with
  | true => exact mirrors.step_skips unassigned
  | false => exact mirrors.step_agrees unassigned

/-- Both announce the same word. -/
theorem Mirrors.ready (mirrors : session.Mirrors counts reference) (limits : Limits) :
    (session.ready limits).Mirrors counts (reference.ready limits) := by
  obtain ⟨machine, accesses, steps, frames, waiting, ending⟩ := mirrors
  have shown := machine.same shownWord fun _ _ _ => rfl
  have sameAccesses := congrArg
    (fun seen : Array Access => seen ++ (shownWord session.machine).accesses) accesses
  unfold Session.ready
  split
  case isFalse => exact ⟨machine, accesses, steps, frames, waiting, ending⟩
  case isTrue =>
    simp only [announce, shown]
    cases (shownWord session.machine).result
    all_goals exact ⟨machine, sameAccesses, steps, frames, waiting, ending⟩

/-- Both end at the same limit, or at the same breakpoint. -/
theorem Mirrors.finish (mirrors : session.Mirrors counts reference) (ending : Ending) :
    (session.finish ending).Mirrors counts (reference.finish ending) :=
  { mirrors with ending := rfl }

variable (skips : limits.skipsUnknown = true)

include skips

/-- Both make the same attempt. -/
theorem Mirrors.attempt (mirrors : session.Mirrors counts reference) :
    (session.attempt limits).Mirrors counts
      (reference.attemptBy (Machine.lenientStep counts) limits) := by
  have registers := mirrors.machine.same Machine.registers fun _ _ _ => rfl
  unfold Session.attempt attemptBy
  rw [mirrors.steps, registers]
  split
  case isTrue => exact mirrors.finish .stepLimit
  case isFalse =>
    split
    case isTrue => exact mirrors.finish .breakpoint
    case isFalse =>
      rw [skips]
      exact (mirrors.ready limits).step

/-- Both make the same attempts, as long as they go on. -/
theorem Mirrors.attempts (mirrors : session.Mirrors counts reference) (count : Nat) :
    (session.attempts limits count).Mirrors counts
      (reference.attemptsBy (Machine.lenientStep counts) limits count) := by
  induction count generalizing session reference with
  | zero => exact mirrors
  | succ count inductionHypothesis =>
    rw [Session.attempts, attemptsBy, mirrors.ending]
    split
    case isTrue => exact mirrors
    case isFalse => exact inductionHypothesis (mirrors.attempt skips)

omit skips in
/-- Both make the tick after the steps of a frame. -/
theorem Mirrors.closeFrame (mirrors : session.Mirrors counts reference) :
    (session.closeFrame limits).Mirrors counts (reference.closeFrame limits) := by
  have lost := mirrors.machine.same Machine.lostTime? fun _ _ _ => rfl
  have ticked := mirrors.machine.tick
  have ending := mirrors.ending
  unfold Session.closeFrame
  rw [ending, lost, mirrors.frames]
  split
  case isTrue => exact mirrors
  case isFalse =>
    split
    · exact { mirrors with machine := ticked, frames := rfl, ending := rfl }
    · dsimp only
      split
      all_goals exact { mirrors with machine := ticked, frames := rfl, ending := rfl }

/-- Both play the same frames. -/
theorem Mirrors.play (mirrors : session.Mirrors counts reference) (perFrame rounds : Nat) :
    (session.play limits perFrame rounds).Mirrors counts
      (reference.playBy (Machine.lenientStep counts) limits perFrame rounds) := by
  induction rounds generalizing session reference with
  | zero => exact mirrors
  | succ rounds inductionHypothesis =>
    rw [Session.play, playBy, mirrors.ending, mirrors.frames]
    split
    case isTrue => exact mirrors
    case isFalse =>
      split
      case isTrue => exact mirrors.finish .frameLimit
      case isFalse => exact inductionHypothesis ((mirrors.attempts skips perFrame).closeFrame)

omit skips

/-- At its beginning a session is its own reference. -/
theorem mirrors_begin (counts : Bool) (machine : Machine) :
    (begin machine).Mirrors counts (begin machine) := by
  refine ⟨⟨?_, fun _ => rfl⟩, rfl, rfl, rfl, rfl, rfl⟩
  cases counts <;> rfl

/-- A step moves over a word without meaning, or over none. -/
theorem step_skipped (session : Session) (skipsUnknown : Bool) :
    (session.step skipsUnknown).skipped =
      session.skipped + if skipsUnknown && session.machine.meetsUnassigned then 1 else 0 := by
  cases unassigned : session.machine.meetsUnassigned with
  | true =>
    obtain ⟨word, fetched, meaningless⟩ := Machine.meetsUnassigned_iff.mp unassigned
    have failed := Machine.step_of_meaningless fetched meaningless
    simp only [step, failed, Bool.and_true]
    cases skipsUnknown <;> rfl
  | false =>
    simp only [Bool.and_false, Bool.false_eq_true, if_false, Nat.add_zero]
    cases result : session.machine.step.result with
    | ok ended =>
      obtain ⟨progress, next⟩ := ended
      simp only [step, result]
      cases progress <;> rfl
    | error fault =>
      simp only [step, result, fail_eq_finish (Machine.fault_known unassigned result)]
      rfl

theorem closeFrame_skipped (session : Session) (limits : Limits) :
    (session.closeFrame limits).skipped = session.skipped := by
  unfold closeFrame
  split
  · rfl
  · split
    · rfl
    · dsimp only
      split <;> rfl

/-- What is skipped are the words without meaning that were met. -/
theorem Course.skipped {start : Session} {before : List Session}
    (course : Course limits start before session) (skips : limits.skipsUnknown = true) :
    session.skipped = start.skipped + before.countP (·.machine.meetsUnassigned) := by
  induction course with
  | begun => rfl
  | @tried before session _ _ inductionHypothesis =>
    have rests := (session.ready_rests limits).1
    rw [step_skipped, rests.machine, rests.skipped, inductionHypothesis, skips, List.countP_append,
      List.countP_singleton, Bool.true_and, Nat.add_assoc]
  | limited _ _ _ inductionHypothesis => exact inductionHypothesis
  | closed _ _ inductionHypothesis => exact (closeFrame_skipped ..).trans inductionHypothesis

/-- The same limits, with words without meaning skipped or not. -/
def Limits.withSkips (limits : Limits) (skipsUnknown : Bool) : Limits :=
  { limits with skipsUnknown }

/-- No move takes anything back that was skipped. -/
theorem skipped_le_move (limits : Limits) (session : Session) (move : Move) :
    session.skipped ≤ (session.move limits move).skipped := by
  cases move with
  | tick => exact Nat.le_of_eq (closeFrame_skipped ..).symm
  | step =>
    have rests := (session.ready_rests limits).1
    rw [Session.move]
    split
    · exact Nat.le_refl _
    · unfold attempt
      split
      · exact Nat.le_refl _
      · split
        · exact Nat.le_refl _
        · change _ ≤ ((session.ready limits).step _).skipped
          rw [step_skipped, rests.skipped]
          exact Nat.le_add_right ..

theorem skipped_le_follow (limits : Limits) (session : Session) (moves : List Move) :
    session.skipped ≤ (session.follow limits moves).skipped := by
  induction moves generalizing session with
  | nil => exact Nat.le_refl _
  | cons move rest inductionHypothesis =>
    exact Nat.le_trans (skipped_le_move limits session move) (inductionHypothesis _)

theorem skipped_le_play (limits : Limits) (session : Session) (perFrame rounds : Nat) :
    session.skipped ≤ (session.play limits perFrame rounds).skipped := by
  induction rounds generalizing session with
  | zero => exact Nat.le_refl _
  | succ rounds inductionHypothesis =>
    rw [play, frame_eq_follow]
    split
    · exact Nat.le_refl _
    · split
      · exact Nat.le_refl _
      · exact Nat.le_trans (skipped_le_follow ..) (inductionHypothesis _)

/-- A step that skips nothing does not depend on whether it would. -/
theorem step_halts (unskipped : (session.step true).skipped = session.skipped) :
    session.step false = session.step true := by
  have meaningful : session.machine.meetsUnassigned = false := by
    rw [step_skipped] at unskipped
    simpa using unskipped
  cases result : session.machine.step.result with
  | ok ended =>
    obtain ⟨progress, next⟩ := ended
    simp only [step, result]
    cases progress <;> rfl
  | error fault =>
    simp only [step, result, fail_eq_finish (Machine.fault_known meaningful result)]

/-- Nor do moves, and frames. -/
theorem move_halts {move : Move}
    (unskipped : (session.move (limits.withSkips true) move).skipped = session.skipped) :
    session.move (limits.withSkips false) move = session.move (limits.withSkips true) move := by
  cases move with
  | tick => rfl
  | step =>
    have rests := (session.ready_rests limits).1
    have attempted (skipsUnknown : Bool) :
        session.move (limits.withSkips skipsUnknown) .step =
          if session.ending.isSome then session
          else if reached limits.steps session.steps then session.finish .stepLimit
          else if session.steps != 0 && limits.breaksAt session.machine.registers.pc.toNat then
            session.finish .breakpoint
          else (session.ready limits).step skipsUnknown := rfl
    rw [attempted] at unskipped
    rw [attempted, attempted]
    split
    case isTrue => rfl
    case isFalse going =>
      split
      case isTrue => rfl
      case isFalse room =>
        split
        case isTrue => rfl
        case isFalse away =>
          rw [if_neg going, if_neg room, if_neg away, ← rests.skipped] at unskipped
          exact step_halts unskipped

theorem follow_halts {moves : List Move}
    (unskipped : (session.follow (limits.withSkips true) moves).skipped = session.skipped) :
    session.follow (limits.withSkips false) moves =
      session.follow (limits.withSkips true) moves := by
  induction moves generalizing session with
  | nil => rfl
  | cons move rest inductionHypothesis =>
    let moved := session.move (limits.withSkips true) move
    change (moved.follow _ rest).skipped = _ at unskipped
    have first := skipped_le_move (limits.withSkips true) session move
    have further := skipped_le_follow (limits.withSkips true) moved rest
    have same : moved.skipped = session.skipped :=
      Nat.le_antisymm (Nat.le_trans further (Nat.le_of_eq unskipped)) first
    change (session.move (limits.withSkips false) move).follow _ rest = moved.follow _ rest
    rw [move_halts same]
    exact inductionHypothesis (unskipped.trans same.symm)

theorem play_halts {perFrame rounds : Nat}
    (unskipped : (session.play (limits.withSkips true) perFrame rounds).skipped =
      session.skipped) :
    session.play (limits.withSkips false) perFrame rounds =
      session.play (limits.withSkips true) perFrame rounds := by
  induction rounds generalizing session with
  | zero => rfl
  | succ rounds inductionHypothesis =>
    rw [play, frame_eq_follow] at unskipped
    rw [play, play, frame_eq_follow, frame_eq_follow]
    split
    case isTrue => rfl
    case isFalse going =>
      have sameLimit : (limits.withSkips true).frames = (limits.withSkips false).frames := rfl
      rw [sameLimit] at unskipped ⊢
      split
      case isTrue => rfl
      case isFalse room =>
        rw [if_neg going, if_neg room] at unskipped
        have first := skipped_le_follow (limits.withSkips true) session (Run.frameMoves perFrame)
        have further := skipped_le_play (limits.withSkips true)
          (session.follow (limits.withSkips true) (Run.frameMoves perFrame)) perFrame rounds
        have same := Nat.le_antisymm (Nat.le_trans further (Nat.le_of_eq unskipped)) first
        rw [follow_halts same]
        exact inductionHypothesis (unskipped.trans same.symm)

/-- No session that skips words without meaning ends at one. -/
theorem Course.ends_known {start : Session} {before : List Session}
    (course : Course limits start before session) (skips : limits.skipsUnknown = true)
    (waiting : start.waiting = false) (going : start.ending = none) (word : Word) (address : Int) :
    session.ending ≠ some (.fault (.unknownOpcode word address)) := by
  intro ended
  have reported : session.fault? = some (.unknownOpcode word address) := by rw [fault?, ended]
  cases course.aftermath waiting going with
  | halted _ _ kept ends =>
    cases ends.symm.trans ended
    cases skips.symm.trans (kept word address rfl)
  | lost ends => cases ends.symm.trans ended
  | untried _ _ sound | executed _ _ _ sound | waits _ _ _ sound | skipped _ _ _ _ sound =>
    cases sound.symm.trans reported

/-- What it comes to that a session skips words without meaning, over the steps that were tried
in it. -/
structure Lenient (counts : Bool) (session reference halting : Session)
    (before : List Session) : Prop where
  /-- It goes as with the lenient machine, and leaves the same machine but for the record. -/
  mirrors : session.Mirrors counts reference
  known : ∀ word address, session.ending ≠ some (.fault (.unknownOpcode word address))
  /-- It tells how many such words it has met. -/
  skipped : session.skipped = before.countP (·.machine.meetsUnassigned)
  /-- A step that failed at one had changed nothing, write by write. -/
  unchanged : ∀ trial ∈ before, trial.machine.meetsUnassigned = true → ∃ word address,
    InPlace.step.run trial.machine = .error (.fault (.unknownOpcode word address)) trial.machine
  /-- Where it has met none, it might as well have stopped at them. -/
  halts : session.skipped = 0 → session = halting

/-- However many frames are played. -/
theorem lenient_play (limits : Limits) (counts : Bool) (machine : Machine)
    (perFrame rounds : Nat) :
    Lenient counts ((begin machine).play (limits.withSkips true) perFrame rounds)
      ((begin machine).playBy (Machine.lenientStep counts) (limits.withSkips true) perFrame rounds)
      ((begin machine).play (limits.withSkips false) perFrame rounds)
      ((begin machine).trials (limits.withSkips true) perFrame rounds) := by
  have course := course_play (limits.withSkips true) machine perFrame rounds
  constructor
  case mirrors => exact (mirrors_begin counts machine).play rfl perFrame rounds
  case known => exact course.ends_known rfl rfl rfl
  case skipped => exact (course.skipped rfl).trans (Nat.zero_add _)
  case unchanged => exact fun _ _ unassigned => Machine.run_step_of_unassigned unassigned
  case halts => exact fun unskipped => (play_halts unskipped).symm

/-- The sessions before the steps that are tried in a run. -/
def runTrials (limits : Limits) (machine : Machine) : List Session :=
  match machine.clock.stepsPerFrame with
  | .ok steps => (begin machine).trials limits steps limits.fuel
  | .error _ => []

/-- Words without meaning are instructions of two bytes that do nothing: a session that skips
them goes as with a machine to which they mean just that, whether that machine records them or
not. It makes the same attempts and ticks, ends in the same way, and leaves the same machine but
for the record. So it is for any number of frames, and for the whole run. -/
theorem skipping_is_lenient (limits : Limits) (counts : Bool) (machine : Machine) :
    (∀ perFrame rounds,
      Lenient counts ((begin machine).play (limits.withSkips true) perFrame rounds)
        ((begin machine).playBy (Machine.lenientStep counts) (limits.withSkips true)
          perFrame rounds)
        ((begin machine).play (limits.withSkips false) perFrame rounds)
        ((begin machine).trials (limits.withSkips true) perFrame rounds)) ∧
      Lenient counts (run (limits.withSkips true) machine)
        (runBy (Machine.lenientStep counts) (limits.withSkips true) machine)
        (run (limits.withSkips false) machine) (runTrials (limits.withSkips true) machine) := by
  refine ⟨lenient_play limits counts machine, ?_⟩
  unfold run runBy runTrials
  cases machine.clock.stepsPerFrame with
  | ok steps => exact lenient_play limits counts machine steps _
  | error misuse =>
    constructor
    case mirrors => exact (mirrors_begin counts machine).finish (.number misuse)
    case known => exact fun _ _ ended => by cases ended
    case skipped => rfl
    case unchanged => exact fun _ member => absurd member List.not_mem_nil
    case halts => exact fun _ => rfl

/-- A program of a word without meaning. -/
def gapProgram : List UInt8 := [0x80, 0x08]

/-- A session of one step moves over the word, and leaves what the lenient machine leaves. -/
theorem skipping_is_lenient_of_gapProgram :
    let machine := (Machine.ofRate 700 .chip8 0 .mute).serveOne (.load gapProgram none)
    let limits : Limits := ⟨none, some 1, [], true, false, fun _ => false⟩
    machine.meetsUnassigned = true ∧
      0 < ((begin machine).play limits 1 1).skipped ∧
      ((begin machine).playBy (Machine.lenientStep false) limits 1 1).machine =
        ((begin machine).play limits 1 1).machine := by
  obtain ⟨stands, _⟩ := @Machine.stands_of_load gapProgram (by decide +kernel)
  generalize (Machine.ofRate 700 .chip8 0 .mute).serveOne (.load gapProgram none) = machine
    at stands ⊢
  intro machine limits
  have fetched : machine.fetch.result = .ok 0x8008 :=
    Machine.fetch_installed stands.memory (by decide +kernel) stands.fits 0 stands.pc rfl
      (by decide)
  have meaningless : Operation.ofWord? machine.dialect.extendedDisplay 0x8008 = none := by
    rw [stands.dialect]
    rfl
  have unassigned := Machine.meetsUnassigned_iff.mpr ⟨0x8008, fetched, meaningless⟩
  have lenient := (skipping_is_lenient limits false machine).1 1 1
  refine ⟨unassigned, ?_, lenient.mirrors.machine.eq⟩
  have first := @begin_mem_trials (limits.withSkips true) machine rfl rfl 0 0
  have some : 0 < ((begin machine).play (limits.withSkips true) 1 1).skipped := by
    rw [lenient.skipped]
    exact List.countP_pos_iff.mpr ⟨begin machine, first, unassigned⟩
  exact some

end Session

end Chip8
