import Chip8.Proofs.Mishaps
import Chip8.Proofs.Waiting

/-!
# Verdicts

The exit code of a run is read off a record that many exits of its loops have written, and
several of its marks may be set at once. What the code says is still simple. It depends on the
program file, on the step that was tried last, and on whether the session stands at a
breakpoint; the marks come out right because nothing after the last step changes what it left.

A session that ends waiting for a key stands at the instruction that asks for it. No key has
been pressed or released since the session began, so none was held from the beginning.

Whatever the code, what is printed and dumped is what was asked for, of the machine as it was
when the session stopped.
-/

namespace Chip8

namespace Session

variable {limits : Limits} {session : Session} {before : List Session} {fault : Fault}

/-- The step that was tried last failed, and its fault was not to be skipped. -/
def LastFails (limits : Limits) (before : List Session) (fault : Fault) : Prop :=
  ∃ trial, before.getLast? = some trial ∧ trial.machine.step.result = .error fault ∧
    (limits.skipsUnknown = true → ∀ word address, fault ≠ .unknownOpcode word address)

/-- The step that was tried last waits for a key. -/
def LastWaits (before : List Session) : Prop :=
  ∃ trial, before.getLast? = some trial ∧ trial.machine.Waits

/-- The session stands at a breakpoint, and an attempt was due there. -/
def StoppedByBreakpoint (limits : Limits) (session : Session) : Prop :=
  session.AtAttempt limits ∧ session.AtBreakpoint limits

/-- What an exit code says of a session, over the steps that were tried in it. -/
structure Judged (limits : Limits) (before : List Session) (session : Session) (code : Nat) :
    Prop where
  fault : code = 2 ↔ ∃ fault, LastFails limits before fault
  breakpoint : (∀ fault, ¬LastFails limits before fault) → session.StoppedByBreakpoint limits →
    code = 0
  waiting : (∀ fault, ¬LastFails limits before fault) → ¬session.StoppedByBreakpoint limits →
    (code = 3 ↔ LastWaits before)
  otherwise : (∀ fault, ¬LastFails limits before fault) → ¬session.StoppedByBreakpoint limits →
    ¬LastWaits before → code = 0

/-- A session that reports a fault rests where a step has failed with it. -/
theorem Aftermath.halts (left : Aftermath limits before session)
    (reported : session.fault? = some fault) :
    LastFails limits before fault ∧
      ∃ trial, before.getLast? = some trial ∧ session.machine = trial.machine := by
  cases left with
  | halted last failed kept ends machine =>
    cases (fault_eq_some.mp reported).symm.trans ends
    refine ⟨⟨_, last, failed, ?_⟩, _, last, machine⟩
    rintro skips word address rfl
    cases skips.symm.trans (kept word address rfl)
  | lost ends => cases (fault_eq_some.mp reported).symm.trans ends
  | untried _ _ sound | executed _ _ _ sound | waits _ _ _ sound | skipped _ _ _ _ sound =>
    cases sound.symm.trans reported

/-- A session that returns reports the fault of the step that was tried last. -/
theorem Aftermath.fault_iff (left : Aftermath limits before session) (returns : session.Returns) :
    session.fault? = some fault ↔ LastFails limits before fault := by
  refine ⟨fun reported => (left.halts reported).1, ?_⟩
  rintro ⟨trial, last, failed, unskipped⟩
  cases left with
  | untried empty =>
    rw [empty] at last
    cases last
  | executed same stepped | waits same stepped =>
    cases last.symm.trans same
    cases failed.symm.trans stepped
  | skipped same skippedFor skips =>
    cases last.symm.trans same
    cases failed.symm.trans skippedFor
    exact absurd rfl (unskipped skips _ _)
  | halted same failedWith _ ends =>
    cases last.symm.trans same
    cases failed.symm.trans failedWith
    exact fault_eq_some.mpr ends
  | lost ends => exact absurd ends returns.not_lost

/-- A session that is marked as waiting, and for nothing else, stays where a step waits. -/
theorem Aftermath.rests (left : Aftermath limits before session) (returns : session.Returns)
    (sound : session.fault? = none) (waiting : session.waiting = true) :
    ∃ trial, before.getLast? = some trial ∧ trial.machine.Waits ∧
      Stays trial.machine session.machine := by
  cases left with
  | waits last stepped _ _ stays => exact ⟨_, last, ⟨_, stepped⟩, stays⟩
  | untried _ moves | executed _ _ moves | skipped _ _ _ moves => cases waiting.symm.trans moves
  | halted _ _ _ ends => cases sound.symm.trans (fault_eq_some.mpr ends)
  | lost ends => exact absurd ends returns.not_lost

/-- Without a fault, a session that returns is marked as waiting exactly if the step that was
tried last waits. -/
theorem Aftermath.waiting_iff (left : Aftermath limits before session) (returns : session.Returns)
    (sound : session.fault? = none) : session.waiting = true ↔ LastWaits before := by
  constructor
  · intro waiting
    obtain ⟨trial, last, waits, _⟩ := left.rests returns sound waiting
    exact ⟨trial, last, waits⟩
  rintro ⟨trial, last, next, waits⟩
  cases left with
  | waits _ _ waiting => exact waiting
  | untried empty =>
    rw [empty] at last
    cases last
  | executed same stepped =>
    cases last.symm.trans same
    cases waits.symm.trans stepped
  | skipped same failed | halted same failed =>
    cases last.symm.trans same
    cases waits.symm.trans failed
  | lost ends => exact absurd ends returns.not_lost

end Session

namespace Keypad

variable {keypad : Keypad}

/-- A key that is pressed is down, and so are the others that were. -/
theorem isPressed_press {key other : Fin 16}
    (down : other = key ∨ keypad.isPressed other = true) :
    (keypad.set key true).isPressed other = true := by
  change (keypad.keys.set key true)[other] = true
  rcases down with rfl | down
  · exact Vector.getElem_set_self other.isLt
  · change keypad.keys[other] = true at down
    simp only [Fin.getElem_fin, Vector.getElem_set] at down ⊢
    split
    · rfl
    · exact down

end Keypad

namespace Runner

variable {arguments : List String} {environment : Environment} {disk : Disk}
  {reading : Nat → Number} {rounds : Nat} {job : Job} {limits : Session.Limits} {perFrame : Nat}
  {session : Session} {code : Nat} {desk : Desk}

/-- Keys that are held stay down while further keys are pressed. -/
theorem hold_isPressed {machine : Machine} {key : Fin 16}
    (down : machine.keypad.isPressed key = true) (keys : List Int) :
    (hold machine keys).keypad.isPressed key = true := by
  rw [hold_eq_serveAll]
  refine Machine.serveAll_keeps (·.keypad.isPressed key = true) ?_ down
  intro request member next here
  obtain ⟨number, _, rfl⟩ := List.mem_map.mp member
  rw [Machine.serveOne_setKey, Keypad.setNumbered]
  split
  case h_1 keypad pressed =>
    split at pressed
    · cases pressed
      exact Keypad.isPressed_press (.inr here)
    · cases pressed
  case h_2 => exact here

/-- If no key is down in the end, none was held. -/
theorem hold_eq_nil {machine : Machine} {keys : List Int} (exist : ∀ key ∈ keys, 0 ≤ key ∧ key < 16)
    (released : ∀ key, (hold machine keys).keypad.isPressed key = false) : keys = [] := by
  cases keys with
  | nil => rfl
  | cons number rest =>
    let key : Fin 16 := Fin.ofNat 16 number.toNat
    let next : Machine := { machine with keypad := machine.keypad.set key true }
    have pressed : machine.setKey number true = .ok next := by
      rw [Machine.setKey, Keypad.setNumbered, if_pos (exist number List.mem_cons_self)]
      rfl
    have held : hold machine (number :: rest) = hold next rest := by
      rw [hold, List.foldl_cons, pressed]
      rfl
    have down : next.keypad.isPressed key = true := Keypad.isPressed_press (.inl rfl)
    have up := released key
    rw [held] at up
    cases up.symm.trans (hold_isPressed down rest)

/-- No step of a session presses or releases a key. -/
theorem Plays.keypad
    (plays : Plays arguments environment disk reading rounds job limits perFrame session) :
    session.machine.keypad = job.machine.keypad := by
  rw [plays.came]
  refine congrArg Machine.Setting.keypad
    (Session.play_keeps (·.setting = job.machine.setting) ?_ ?_ ?_ rfl perFrame rounds)
  · intro machine same
    exact (Machine.afterStep_setting machine).trans same
  · intro machine same
    exact (Machine.tick_setting machine).trans same
  · intro machine word address same _
    exact same

/-- Where a session has come to wait for a key, none was held. -/
theorem Plays.keyless
    (plays : Plays arguments environment disk reading rounds job limits perFrame session)
    (waits : session.machine.Waits) : job.options.heldKeys = [] := by
  have checked := checked_of_plan plays.plans.planned
  obtain ⟨_, stepped⟩ := waits
  obtain ⟨_, _, _, released, _⟩ := Machine.step_waits_iff.mp stepped
  rw [plays.keypad, plays.machine] at released
  exact checked.keyless (hold_eq_nil checked.keys (Keypad.firstPressed_eq_none.mp released))

/-- What the marks of a session make of its exit code: the fault is looked at first, then the
breakpoint, and only then whether the session waits. -/
inductive Graded (session : Session) : Nat → Prop where
  | fault {fault : Fault} (reported : session.fault? = some fault) : Graded session 2
  | breakpoint (sound : session.fault? = none) (stopped : session.ending = some .breakpoint) :
      Graded session 0
  | waits (sound : session.fault? = none) (clear : session.ending ≠ some .breakpoint)
      (waiting : session.waiting = true) : Graded session 3
  | done (sound : session.fault? = none) (clear : session.ending ≠ some .breakpoint)
      (moves : session.waiting = false) : Graded session 0

/-- A session that returns is judged by the step that was tried last and the breakpoints. -/
theorem Plays.judged
    (plays : Plays arguments environment disk reading rounds job limits perFrame session)
    (returns : session.Returns) (graded : Graded session code) :
    session.Judged limits ((Session.begin job.machine).trials limits perFrame rounds) code := by
  have left := plays.course.aftermath rfl rfl
  rw [plays.came] at returns
  obtain ⟨_, _, balances⟩ := Session.balances_of_returns plays.told returns
  rw [← plays.came] at returns balances
  have stops : _ ↔ session.StoppedByBreakpoint limits := balances.breaks
  have none (sound : session.fault? = none) :
      ¬∃ fault, Session.LastFails limits
        ((Session.begin job.machine).trials limits perFrame rounds) fault := by
    rintro ⟨fault, fails⟩
    cases sound.symm.trans ((left.fault_iff returns).mpr fails)
  cases graded with
  | @fault fault reported =>
    have fails := (left.fault_iff returns).mp reported
    constructor
    case fault => exact ⟨fun _ => ⟨fault, fails⟩, fun _ => rfl⟩
    all_goals exact fun none => absurd fails (none fault)
  | breakpoint sound stopped =>
    constructor
    case fault => exact ⟨nofun, fun fails => absurd fails (none sound)⟩
    case breakpoint => exact fun _ _ => rfl
    all_goals exact fun _ clear => absurd (stops.mp stopped) clear
  | waits sound clear waiting =>
    have waits := (left.waiting_iff returns sound).mp waiting
    constructor
    case fault => exact ⟨nofun, fun fails => absurd fails (none sound)⟩
    case breakpoint => exact fun _ stopped => absurd (stops.mpr stopped) clear
    case waiting => exact fun _ _ => ⟨fun _ => waits, fun _ => rfl⟩
    case otherwise => exact fun _ _ moves => absurd waits moves
  | done sound clear moves =>
    constructor
    case fault => exact ⟨nofun, fun fails => absurd fails (none sound)⟩
    case breakpoint => exact fun _ _ => rfl
    case waiting =>
      refine fun _ _ => ⟨nofun, fun waits => ?_⟩
      cases moves.symm.trans ((left.waiting_iff returns sound).mpr waits)
    case otherwise => exact fun _ _ _ => rfl

/-- What a run leaves that has come to the end of its session. -/
structure Leaves (job : Job) (disk : Disk) (before : List Session) (session : Session)
    (code : Nat) (desk : Desk) : Prop where
  machine : desk.machine = session.machine
  /-- What is printed and written is taken from the machine as it was stopped. -/
  delivered : Delivered job.options job.plan.dumpRanges desk.machine disk desk.output.content
    desk.disk
  /-- A step that fails leaves the machine as it was. -/
  halted : code = 2 → ∃ trial, before.getLast? = some trial ∧ desk.machine = trial.machine
  keyless : code = 3 → job.options.heldKeys = []
  rests : code = 3 → ∃ trial word, before.getLast? = some trial ∧
    trial.machine.Finds word .awaitKey ∧ desk.machine.Finds word .awaitKey ∧
    desk.machine.registers.pc = trial.machine.registers.pc

/-- What a session that returns leaves behind. -/
theorem Plays.leaves
    (plays : Plays arguments environment disk reading rounds job limits perFrame session)
    (returns : session.Returns) (graded : Graded session code)
    (machine : desk.machine = session.machine)
    (handed : handOver job.options job.plan session.machine disk = .ok (desk.output, desk.disk)) :
    Leaves job disk ((Session.begin job.machine).trials limits perFrame rounds) session code
      desk := by
  have left := plays.course.aftermath rfl rfl
  have within := (checked_of_plan plays.plans.planned).ranges
  have delivered := delivered_of_handOver plays.wellFormed.memorySize within handed
  rw [← machine] at delivered
  cases graded with
  | fault reported =>
    obtain ⟨_, trial, last, rests⟩ := left.halts reported
    exact ⟨machine, delivered, fun _ => ⟨trial, last, machine.trans rests⟩, nofun, nofun⟩
  | breakpoint | done => exact ⟨machine, delivered, nofun, nofun, nofun⟩
  | waits sound clear waiting =>
    obtain ⟨trial, last, waits, stays⟩ := left.rests returns sound waiting
    have waitsOn : session.machine.Waits :=
      waits.of_same stays.registers stays.memory stays.dialect stays.keypad
    refine ⟨machine, delivered, nofun, fun _ => plays.keyless waitsOn, fun _ => ?_⟩
    obtain ⟨_, stepped⟩ := waits
    obtain ⟨word, fetched, known, _⟩ := Machine.step_waits_iff.mp stepped
    refine ⟨trial, word, last, ⟨fetched, known⟩, ⟨?_, ?_⟩, ?_⟩
    · rw [machine, Machine.fetch_result, stays.registers, stays.memory, ← Machine.fetch_result]
      exact fetched
    · rw [machine, stays.dialect]
      exact known
    · rw [machine, stays.registers]

end Runner

end Chip8
