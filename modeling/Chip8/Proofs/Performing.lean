import Chip8.Proofs.Aftermath
import Chip8.Proofs.Conduct

/-!
# Carrying out a command line

What can become of a command line is listed here once, each way with what was thrown or given
back, and with what is on the desk by then. The first ways are about the command line and the
program file. Once a session begins, it goes on for ever, breaks off because a number cannot
be told, or returns; and after a session that returns only the dump can fail.

The report of a command line says the same, for all sessions that end in time.
-/

namespace Chip8.Runner

/-- The desk when a plan is carried out. -/
def Plan.desk (plan : Plan) (disk : Disk) : Desk :=
  ⟨.ofRate plan.rate plan.dialect plan.random .mute, .empty, [], disk⟩

/-- Check a command line, and carry out its plan. -/
def perform (rounds : Nat) (arguments : List String) (environment : Environment) (disk : Disk)
    (reading : Nat → Number) : Except Stop (EStateM.Result Thrown Desk Nat) := do
  let options ← Options.read arguments
  let plan ← options.plan environment
  pure ((Conduct.undertake rounds options plan reading).run (plan.desk disk))

/-- Everything that comes before a session. -/
def setOut (arguments : List String) (environment : Environment) (disk : Disk)
    (reading : Nat → Number) : Except Stop (Job × Session.Limits) := do
  let job ← prepare arguments environment disk
  let limits ← job.limits reading
  pure (job, limits)

/-- The options and the plan of a command line. -/
structure Plans (arguments : List String) (environment : Environment) (options : Options)
    (plan : Plan) : Prop where
  read : Options.read arguments = .ok options
  planned : options.plan environment = .ok plan

variable {arguments : List String} {environment : Environment} {disk : Disk}
  {reading : Nat → Number} {rounds : Nat} {options : Options} {plan : Plan}

open InPlace (run_bind_of_ok run_bind_of_error run_get_bind)

/-- The machine of a plan is well formed. -/
theorem Plans.wellFormed (plans : Plans arguments environment options plan) (disk : Disk) :
    (plan.desk disk).machine.WellFormed :=
  (Machine.isBuilt_mute (checked_of_plan plans.planned).rate plan.dialect plan.random).wellFormed

/-- The program file is read for a standard program area. -/
theorem Plans.loadFile_eq (plans : Plans arguments environment options plan) (disk : Disk) :
    (plan.desk disk).machine.loadFile disk plan.rom none =
      (Rom.read disk plan.rom 0xE00).map fun rom =>
        (rom, (plan.desk disk).machine.serveOne (.loadFile disk plan.rom none)) := by
  have room : ((plan.desk disk).machine.memory.capacity : Int) = 0xE00 := by
    rw [(plans.wellFormed disk).room.2]
    rfl
  rw [Machine.loadFile, Machine.serveOne_loadFile, room]
  cases Rom.read disk plan.rom 0xE00 <;> rfl

/-- The machine of a plan with its program loaded and its keys held. -/
def Plan.machine (plan : Plan) (disk : Disk) : Machine :=
  hold ((plan.desk disk).machine.serveOne (.loadFile disk plan.rom none)) plan.heldKeys

/-- With a plan, to set out is to load the program and to tell the limits. -/
theorem Plans.setOut_eq (plans : Plans arguments environment options plan) (disk : Disk)
    (reading : Nat → Number) :
    setOut arguments environment disk reading =
      ((Rom.read disk plan.rom 0xE00).mapError Stop.ofRefusal >>= fun _ =>
        need .valueExpected options.frames >>= fun frames =>
          let job : Job := ⟨options, plan, frames, plan.machine disk⟩
          job.limits reading >>= fun limits => pure (job, limits)) := by
  have loaded := plans.loadFile_eq disk
  rw [setOut, prepare, plans.read]
  change ((options.plan environment >>= _) >>= _) = _
  rw [plans.planned]
  change ((((plan.desk disk).machine.loadFile disk plan.rom none).mapError Stop.ofRefusal >>= _)
    >>= _) = _
  rw [loaded]
  cases Rom.read disk plan.rom 0xE00 with
  | error refusal => rfl
  | ok rom => cases given : options.frames <;> rfl

/-- What a session begins with. -/
structure Begins (arguments : List String) (environment : Environment) (disk : Disk)
    (reading : Nat → Number) (job : Job) (limits : Session.Limits) (perFrame : Nat) : Prop where
  plans : Plans arguments environment job.options job.plan
  program : ¬disk.LacksProgram job.plan.rom
  machine : job.machine = job.plan.machine disk
  frames : job.options.frames = some job.frames
  limited : job.limits reading = .ok limits
  told : job.machine.clock.stepsPerFrame = .ok perFrame

/-- How far its session has come within so many frames. -/
structure Plays (arguments : List String) (environment : Environment) (disk : Disk)
    (reading : Nat → Number) (rounds : Nat) (job : Job) (limits : Session.Limits) (perFrame : Nat)
    (session : Session) : Prop
    extends Begins arguments environment disk reading job limits perFrame where
  came : session = (Session.begin job.machine).play limits perFrame rounds

/-- What becomes of a command line: the stop before anything is looked at, or what is thrown or
given back, with the desk as it is then. -/
inductive Performed (arguments : List String) (environment : Environment) (disk : Disk)
    (reading : Nat → Number) (rounds : Nat) :
    Except Stop (EStateM.Result Thrown Desk Nat) → Prop where
  | declined {stop : Stop} (stops : setOut arguments environment disk reading = .error stop)
      (apart : ¬stop.IsAboutFile) :
      Performed arguments environment disk reading rounds (.error stop)
  | nowhere {options : Options} {plan : Plan} (plans : Plans arguments environment options plan)
      (found : Rom.read disk plan.rom 0xE00 = .error .noPath) :
      Performed arguments environment disk reading rounds
        (.ok (.error (.refused (.noProgram .noPath)) (plan.desk disk)))
  | unread {options : Options} {plan : Plan} {refusal : Rom.Refusal}
      (plans : Plans arguments environment options plan)
      (found : Rom.read disk plan.rom 0xE00 = .error refusal) (loadError : refusal.IsLoadError) :
      Performed arguments environment disk reading rounds
        (.ok (.ok 1
          { plan.desk disk with messages := ["Failed to load ROM: " ++ refusal.message] }))
  | untold {options : Options} {plan : Plan} {breakdown : Breakdown} {machine : Machine}
      (plans : Plans arguments environment options plan) (program : ¬disk.LacksProgram plan.rom)
      (stops : setOut arguments environment disk reading = .error (.broken breakdown))
      (lack : (Stop.broken breakdown).IsLack) :
      Performed arguments environment disk reading rounds
        (.ok (.error (.stop (.broken breakdown)) { plan.desk disk with machine }))
  | unfinished {job : Job} {limits : Session.Limits} {perFrame : Nat} {session : Session}
      (plays : Plays arguments environment disk reading rounds job limits perFrame session)
      (going : session.ending = none) :
      Performed arguments environment disk reading rounds
        (.ok (.error .unfinished (Conduct.deskOf (job.plan.desk disk) session)))
  | undumped {job : Job} {limits : Session.Limits} {perFrame : Nat} {session : Session}
      {breakdown : Breakdown}
      (plays : Plays arguments environment disk reading rounds job limits perFrame session)
      (returns : session.Returns)
      (failed : handOver job.options job.plan session.machine disk = .error breakdown) :
      Performed arguments environment disk reading rounds
        (.ok (.error (.stop (.broken breakdown))
          ⟨session.machine, job.options.shown session.machine, session.reports.toList, disk⟩))
  | finished {job : Job} {limits : Session.Limits} {perFrame : Nat} {session : Session}
      {code : Nat} {lines : List String} {output : Output} {written : Disk}
      (plays : Plays arguments environment disk reading rounds job limits perFrame session)
      (returns : session.Returns)
      (handed : handOver job.options job.plan session.machine disk = .ok (output, written))
      (judged : verdict session = (.exit code, unlines lines)) :
      Performed arguments environment disk reading rounds
        (.ok (.ok code ⟨session.machine, output, session.reports.toList ++ lines, written⟩))

/-- To hold keys is to serve the requests to press them. -/
theorem hold_eq_serveAll (machine : Machine) (keys : List Int) :
    hold machine keys = machine.serveAll (keys.map fun key => .setKey key true) := by
  have one (machine : Machine) (key : Int) :
      (machine.setKey key true).toOption.getD machine = machine.serveOne (.setKey key true) := by
    rw [Machine.serveOne_setKey, Machine.setKey]
    cases machine.keypad.setNumbered key true <;> rfl
  induction keys generalizing machine with
  | nil => rfl
  | cons key rest inductionHypothesis =>
    rw [List.map_cons, Machine.serveAll_cons, ← inductionHypothesis, ← one]
    rfl

/-- To hold keys changes the keypad alone. -/
theorem hold_eq (machine : Machine) (keys : List Int) :
    ∃ keypad, hold machine keys = { machine with keypad } := by
  rw [hold_eq_serveAll]
  refine Machine.serveAll_keeps (∃ keypad, · = { machine with keypad }) ?_ ⟨machine.keypad, rfl⟩
  rintro request member _ ⟨keypad, rfl⟩
  obtain ⟨key, _, rfl⟩ := List.mem_map.mp member
  rw [Machine.serveOne_setKey]
  split
  · exact ⟨_, rfl⟩
  · exact ⟨keypad, rfl⟩

/-- With its program loaded a machine is at time zero. -/
theorem Plan.machine_clock (plan : Plan) (disk : Disk) :
    (plan.machine disk).clock = ⟨.whole plan.rate, Machine.standardTimerRate, 0⟩ := by
  obtain ⟨keypad, held⟩ :=
    hold_eq ((plan.desk disk).machine.serveOne (.loadFile disk plan.rom none)) plan.heldKeys
  rw [Plan.machine, held, Machine.serveOne_loadFile]
  split
  case h_1 rom _ =>
    obtain ⟨beeper, started⟩ := (plan.desk disk).machine.start_eq
      ((plan.desk disk).machine.memory.install rom.image) none
    rw [started]
    rfl
  case h_2 => rfl

/-- Where the rate is a multiple of that of the timers, it tells the steps of a frame. -/
theorem Plan.stepsPerFrame_of_multiple {steps : Nat} (rated : plan.rate = (steps * 60 : Nat))
    (someSteps : 0 < steps) (fits : steps < Nat.pow 2 Rounding.precision) (disk : Disk) :
    (plan.machine disk).clock.stepsPerFrame = .ok steps := by
  rw [Plan.machine_clock, rated]
  exact FrameClock.stepsPerFrame_of_multiple someSteps fits (by decide)

section Plays

variable {job : Job} {limits : Session.Limits} {perFrame : Nat} {session : Session}

/-- The machine of a session is well formed from the beginning, as far as the session comes. -/
theorem Plays.wellFormed
    (plays : Plays arguments environment disk reading rounds job limits perFrame session) :
    session.machine.WellFormed := by
  have started : job.machine.WellFormed := by
    rw [plays.machine, Plan.machine, hold_eq_serveAll]
    exact ((plays.plans.wellFormed disk).serveOne _).serveAll _
  rw [plays.came]
  exact Session.play_keeps Machine.WellFormed (fun _ => Machine.WellFormed.afterStep)
    (fun _ => Machine.WellFormed.tick) (fun _ _ _ formed _ => formed.serveOne .skip)
    started perFrame rounds

/-- The steps that a session tries, on its way to where it has come. -/
theorem Plays.course
    (plays : Plays arguments environment disk reading rounds job limits perFrame session) :
    Session.Course limits (.begin job.machine)
      ((Session.begin job.machine).trials limits perFrame rounds) session := by
  rw [plays.came]
  exact Session.course_play limits job.machine perFrame rounds

/-- A session that ends returns: from time zero on, the time can always be told. -/
theorem Plays.returns
    (plays : Plays arguments environment disk reading rounds job limits perFrame session)
    {ending : Session.Ending} (ends : session.ending = some ending) : session.Returns := by
  have told : job.machine.lostTime? = none := by
    apply Machine.lostTime_of_start
    rw [plays.machine, Plan.machine_clock]
  refine ⟨ending, ends, ?_⟩
  rintro misuse rfl
  exact plays.course.timely told rfl misuse ends

end Plays

/-- With a program, the rest is a session on the machine that has loaded it and has its keys
held. -/
theorem Plans.run_undertake (plans : Plans arguments environment options plan) {rom : Rom}
    (found : Rom.read disk plan.rom 0xE00 = .ok rom) (reading : Nat → Number) (rounds : Nat) :
    (Conduct.undertake rounds options plan reading).run (plan.desk disk) =
      (Conduct.execute rounds options plan reading >>= Conduct.finish options plan).run
        { plan.desk disk with machine := plan.machine disk } := by
  have tried := Conduct.run_tryLoad (plans.wellFormed disk).room.1 plan.rom
  have loaded := plans.loadFile_eq disk
  have same : (plan.desk disk).disk = disk := rfl
  have keys := Conduct.run_holdKeys (checked_of_plan plans.planned).keys
  rw [found] at loaded
  rw [same, loaded] at tried
  rw [Conduct.undertake, run_bind_of_ok tried]
  exact run_bind_of_ok (keys _)

/-- A session goes on for ever, breaks off, or returns; then the dump may fail. -/
theorem Plays.performed {job : Job} {limits : Session.Limits} {perFrame : Nat} {session : Session}
    (plays : Plays arguments environment disk reading rounds job limits perFrame session)
    {acts : Conduct Record} {desk : Desk}
    (played : acts.run desk = Conduct.final (job.plan.desk disk) session) :
    Performed arguments environment disk reading rounds
      (.ok ((acts >>= Conduct.finish job.options job.plan).run desk)) := by
  have size := plays.wellFormed.memorySize
  have within := (checked_of_plan plays.plans.planned).ranges
  rw [Conduct.final] at played
  cases ended : session.ending with
  | none =>
    rw [ended] at played
    rw [run_bind_of_error played]
    exact .unfinished plays ended
  | some ending =>
    have returns := plays.returns ended
    rw [ended] at played
    cases ending
    case number misuse => exact absurd ended returns.not_lost
    all_goals
      rw [run_bind_of_ok played]
      cases handed : handOver job.options job.plan session.machine disk with
      | error breakdown =>
        have broken := @Conduct.run_finish_of_error (Conduct.deskOf (job.plan.desk disk) session)
          job.options job.plan rfl size within breakdown handed (Conduct.recordOf session)
        rw [broken]
        exact .undumped plays returns handed
      | ok given =>
        obtain ⟨output, written⟩ := given
        obtain ⟨code, lines, judged, done⟩ :=
          @Conduct.run_finish_of_ok (Conduct.deskOf (job.plan.desk disk) session) session
            job.options job.plan rfl size within output written handed returns
        rw [done]
        exact .finished plays returns handed judged

/-- With a plan, to perform is to undertake it. -/
theorem Plans.perform_eq (plans : Plans arguments environment options plan) (disk : Disk)
    (reading : Nat → Number) (rounds : Nat) :
    perform rounds arguments environment disk reading =
      .ok ((Conduct.undertake rounds options plan reading).run (plan.desk disk)) := by
  rw [perform, plans.read]
  change (options.plan environment >>= _) = _
  rw [plans.planned]
  rfl

/-- A program file that is refused is reported, except for a path with a null character. -/
theorem Plans.perform_of_refused (plans : Plans arguments environment options plan)
    {refusal : Rom.Refusal} (found : Rom.read disk plan.rom 0xE00 = .error refusal)
    (reading : Nat → Number) (rounds : Nat) :
    perform rounds arguments environment disk reading =
      .ok (if refusal = .noPath then .error (.refused (.noProgram .noPath)) (plan.desk disk)
        else .ok 1
          { plan.desk disk with messages := ["Failed to load ROM: " ++ refusal.message] }) := by
  have tried := Conduct.run_tryLoad (plans.wellFormed disk).room.1 plan.rom
  have refused := plans.loadFile_eq disk
  have same : (plan.desk disk).disk = disk := rfl
  rw [found] at refused
  rw [same, refused] at tried
  rw [plans.perform_eq, Conduct.undertake]
  cases refusal
  case noPath => rw [run_bind_of_error tried, if_pos rfl]
  all_goals
    rw [run_bind_of_ok tried, if_neg nofun]
    rfl

/-- What becomes of a plan. -/
theorem Plans.performed (plans : Plans arguments environment options plan) (disk : Disk)
    (reading : Nat → Number) (rounds : Nat) :
    Performed arguments environment disk reading rounds
      (perform rounds arguments environment disk reading) := by
  cases found : Rom.read disk plan.rom 0xE00 with
  | error refusal =>
    rw [plans.perform_of_refused found]
    split
    case isTrue noPath => exact .nowhere plans (noPath ▸ found)
    case isFalse loadError => exact .unread plans found loadError
  | ok rom =>
    have program := (Rom.finding_of_read found).holds.2
    have setsOut := plans.setOut_eq disk reading
    rw [found] at setsOut
    change _ = (need .valueExpected options.frames >>= _) at setsOut
    rw [plans.perform_eq, plans.run_undertake found]
    let loaded : Desk := { plan.desk disk with machine := plan.machine disk }
    cases limited : Conduct.limitsFor options plan (plan.machine disk) reading with
    | error stop =>
      have broken := @Conduct.run_execute_of_error loaded options plan reading stop limited rounds
      have lacking : StopsFor Stop.IsLack
          (Conduct.limitsFor options plan (plan.machine disk) reading) :=
        (stopsFor_need trivial options.frames).bind fun frames => stopsFor_limits _ reading
      have stops : setOut arguments environment disk reading = .error stop := by
        rw [setsOut]
        rcases bind_eq_error.mp limited with missing | ⟨frames, given, stops⟩
        · exact bind_eq_error.mpr (.inl missing)
        · exact bind_eq_error.mpr (.inr ⟨frames, given, bind_eq_error.mpr (.inl stops)⟩)
      have lack := lacking stop limited
      rw [run_bind_of_error broken]
      cases stop with
      | broken breakdown => exact .untold plans program stops lack
      | help | usage | refused => cases lack
    | ok limits =>
      obtain ⟨frames, given, told⟩ := bind_eq_ok.mp limited
      obtain ⟨perFrame, length, _⟩ := bind_eq_ok.mp told
      have framed := mapError_eq_ok.mp length
      have played := @Conduct.run_execute_of_ok loaded limits options plan reading perFrame limited
        framed rfl rounds
      have begins : Begins arguments environment disk reading
          ⟨options, plan, frames, plan.machine disk⟩ limits perFrame :=
        ⟨plans, program, rfl, need_eq_ok.mp given, told, framed⟩
      exact Plays.performed ⟨begins, rfl⟩ played

/-- These are all the ways. -/
theorem performed_perform (arguments : List String) (environment : Environment) (disk : Disk)
    (reading : Nat → Number) (rounds : Nat) :
    Performed arguments environment disk reading rounds
      (perform rounds arguments environment disk reading) := by
  cases read : Options.read arguments with
  | error stop =>
    rw [perform, read]
    refine .declined ?_ (stopsFor_read arguments stop read)
    rw [setOut, prepare, read]
    rfl
  | ok options =>
    cases planned : options.plan environment with
    | error stop =>
      rw [perform, read]
      change Performed _ _ _ _ _ (options.plan environment >>= _)
      rw [planned]
      refine .declined ?_ (stopsFor_plan options environment stop planned)
      rw [setOut, prepare, read]
      change ((options.plan environment >>= _) >>= _) = _
      rw [planned]
      rfl
    | ok plan => exact Plans.performed ⟨read, planned⟩ disk reading rounds

/-- What a session begins with is what a command line sets out with. -/
theorem Begins.setOut {job : Job} {limits : Session.Limits} {perFrame : Nat}
    (begins : Begins arguments environment disk reading job limits perFrame) :
    setOut arguments environment disk reading = .ok (job, limits) := by
  rw [begins.plans.setOut_eq disk reading]
  cases found : Rom.read disk job.plan.rom 0xE00 with
  | error refusal => exact absurd (Rom.finding_of_read found).lacksProgram begins.program
  | ok rom =>
    have same : (⟨job.options, job.plan, job.frames, job.plan.machine disk⟩ : Job) = job := by
      rw [← begins.machine]
    change (need .valueExpected job.options.frames >>= _) = _
    rw [begins.frames]
    change (Job.limits ⟨job.options, job.plan, job.frames, job.plan.machine disk⟩ reading >>= _) = _
    rw [same, begins.limited]
    rfl

/-- A session begins that nothing but counts and breakpoints will limit, if the rate is a
multiple of that of the timers. -/
theorem Plans.begins (plans : Plans arguments environment options plan)
    (program : ¬disk.LacksProgram plan.rom) {perFrame : Nat}
    (rated : plan.rate = (perFrame * 60 : Nat)) (someSteps : 0 < perFrame)
    (fits : perFrame < Nat.pow 2 Rounding.precision) {frames : Int}
    (framed : options.frames = some frames) {steps : Option Int}
    (bounded : needIfGiven options.steps = .ok steps) (untimed : options.seconds = none)
    (reading : Nat → Number) :
    Begins arguments environment disk reading ⟨options, plan, frames, plan.machine disk⟩
      { frames := if 0 < frames then some frames else none
        steps
        breakpoints := plan.breakpoints
        skipsUnknown := options.skipsUnknown
        reports := options.trace
        timeUp := fun _ => false } perFrame := by
  have told := plan.stepsPerFrame_of_multiple rated someSteps fits disk
  refine ⟨plans, program, rfl, framed, ?_, told⟩
  simp only [Job.limits, told, untimed, bounded]
  rfl
/-- Where the program file is refused, no session begins. -/
theorem Plans.not_setOut (plans : Plans arguments environment options plan)
    {refusal : Rom.Refusal} (found : Rom.read disk plan.rom 0xE00 = .error refusal)
    (given : Job × Session.Limits) : setOut arguments environment disk reading ≠ .ok given := by
  rw [plans.setOut_eq, found]
  nofun

/-- A command line has one session. -/
theorem Plays.unique {job other : Job} {limits bounds : Session.Limits} {perFrame steps : Nat}
    {session play : Session}
    (first : Plays arguments environment disk reading rounds job limits perFrame session)
    (second : Plays arguments environment disk reading rounds other bounds steps play) :
    job = other ∧ limits = bounds ∧ perFrame = steps ∧ session = play := by
  have same := first.setOut.symm.trans second.setOut
  cases same
  have told := first.told.symm.trans second.told
  cases told
  exact ⟨rfl, rfl, rfl, first.came.trans second.came.symm⟩

/-- A session goes on; or it returns, and what it leaves cannot be handed over, or is, and the
run is judged. -/
theorem Plays.perform_cases {job : Job} {limits : Session.Limits} {perFrame : Nat}
    {session : Session}
    (plays : Plays arguments environment disk reading rounds job limits perFrame session) :
    (session.ending = none ∧ ∃ desk, perform rounds arguments environment disk reading =
      .ok (.error .unfinished desk)) ∨
    (session.Returns ∧ ∃ breakdown desk,
      handOver job.options job.plan session.machine disk = .error breakdown ∧
        perform rounds arguments environment disk reading =
          .ok (.error (.stop (.broken breakdown)) desk)) ∨
    (session.Returns ∧ ∃ code lines output written,
      handOver job.options job.plan session.machine disk = .ok (output, written) ∧
        verdict session = (.exit code, unlines lines) ∧
          perform rounds arguments environment disk reading =
            .ok (.ok code
              ⟨session.machine, output, session.reports.toList ++ lines, written⟩)) := by
  have performed := performed_perform arguments environment disk reading rounds
  generalize perform rounds arguments environment disk reading = result at performed ⊢
  cases performed with
  | declined stops => cases plays.setOut.symm.trans stops
  | nowhere plans found => exact absurd plays.setOut (plans.not_setOut found _)
  | unread plans found => exact absurd plays.setOut (plans.not_setOut found _)
  | untold _ _ stops => cases plays.setOut.symm.trans stops
  | unfinished others going =>
    obtain ⟨rfl, rfl, rfl, rfl⟩ := plays.unique others
    exact .inl ⟨going, _, rfl⟩
  | undumped others returns failed =>
    obtain ⟨rfl, rfl, rfl, rfl⟩ := plays.unique others
    exact .inr (.inl ⟨returns, _, _, failed, rfl⟩)
  | finished others returns handed judged =>
    obtain ⟨rfl, rfl, rfl, rfl⟩ := plays.unique others
    exact .inr (.inr ⟨returns, _, _, _, _, handed, judged, rfl⟩)

/-- With a limit of frames or of steps, a session that begins returns. -/
theorem Begins.plays_of_limited {job : Job} {limits : Session.Limits} {perFrame : Nat}
    (begins : Begins arguments environment disk reading job limits perFrame)
    (limited : limits.frames.isSome ∨ limits.steps.isSome) :
    ∃ session, Plays arguments environment disk reading limits.fuel job limits perFrame session ∧
      session.Returns := by
  have ended := Session.ended_of_limited job.machine limited
  rw [Session.run_eq_play begins.told] at ended
  obtain ⟨ending, ends⟩ := Option.isSome_iff_exists.mp ended
  have plays : Plays arguments environment disk reading limits.fuel job limits perFrame _ :=
    ⟨begins, rfl⟩
  exact ⟨_, plays, plays.returns ends⟩

end Chip8.Runner
