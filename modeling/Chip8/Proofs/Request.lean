import Chip8.Machine.Run

/-!
# Requests

Everything a host can ask of a machine, as one type, so that a history is a list
of requests. The reply to a request holds the machine afterwards also where the
request was refused, because a refusal may come late: a time that cannot be told
is noticed after everything else is done.

A machine is reachable when some history leads to it from a machine as it is built, with
audio or without. What is to hold of every reachable machine is shown for those and
for one request.
-/

namespace Chip8

/-- What a host may ask of a machine. -/
inductive Request where
  | load (image : List UInt8) (dialect : Option Dialect)
  | loadFile (disk : Disk) (path : Disk.Path) (dialect : Option Dialect)
  | reset
  | powerOn
  | powerOff
  | pause
  | resume
  | setStatus (code : Int)
  | setRate (rate : Number)
  | step
  | skip
  | tick
  | runFrame
  | emulate (duration : Number)
  | setKey (key : Int) (pressed : Bool)
  | clearDelay
  | clearSound
deriving DecidableEq

/-- Why a request was refused, or broke off. -/
inductive Reply.Refusal where
  | stopped (stop : Run.Stop)
  | tooLarge (refusal : Rom.TooLarge)
  | noProgram (refusal : Rom.Refusal)
  | status (misuse : RunStatus.Misuse)
  | rate (misuse : FrameClock.Misuse)
  | key (misuse : Keypad.Misuse)
deriving DecidableEq

/-- What a request hands back. -/
inductive Reply.Result where
  | done
  | progress (progress : Progress)
  | steps (count : Int)
  | program (rom : Rom)
deriving DecidableEq

/-- The machine after a request, the accesses reported meanwhile, and the result. -/
structure Reply where
  machine : Machine
  accesses : Array Access
  result : Except Reply.Refusal Reply.Result

namespace Reply

/-- A request that is complete with this machine. -/
def done (machine : Machine) : Reply := ⟨machine, #[], .ok .done⟩

/-- A refusal that leaves the machine alone. -/
def refused (machine : Machine) (refusal : Refusal) : Reply := ⟨machine, #[], .error refusal⟩

/-- A request that is complete, or refused with the machine as it was. -/
def ofChange {ε : Type} (machine : Machine) (cause : ε → Refusal) :
    Except ε Machine → Reply
  | .ok next => done next
  | .error refusal => refused machine (cause refusal)

/-- A request that ended by adjusting the beeper. -/
def adjusted (machine : Machine) : Reply :=
  match machine.lostTime? with
  | none => done machine
  | some misuse => refused machine (.stopped (.number misuse))

/-- A single step. Only a fault leaves the machine alone. -/
def ofStep (machine : Machine) : Reply :=
  let traced := machine.step
  let accesses := traced.accesses.toArray
  match traced.result with
  | .ok (.untimed misuse, next) => ⟨next, accesses, .error (.stopped (.number misuse))⟩
  | .ok (progress, next) => ⟨next, accesses, .ok (.progress progress)⟩
  | .error fault => ⟨machine, accesses, .error (.stopped (.fault fault))⟩

/-- A run of a number of steps, as far as it came. -/
def ofRun (run : Run) (count : Int) : Reply :=
  ⟨run.machine, run.accesses,
    match run.stop with
    | none => .ok (.steps count)
    | some stop => .error (.stopped stop)⟩

/-- A request that ends by adjusting the beeper leaves its machine, told in time or not. -/
@[simp]
theorem adjusted_machine (machine : Machine) : (adjusted machine).machine = machine := by
  unfold adjusted
  split <;> rfl

end Reply

namespace Machine

/-- Serve one request. -/
def serve (machine : Machine) : Request → Reply
  | .load image dialect =>
    match machine.load image dialect with
    | .ok next => .adjusted next
    | .error refusal => .refused machine (.tooLarge refusal)
  | .loadFile disk path dialect =>
    match machine.loadFile disk path dialect with
    | .ok (rom, next) => ⟨next, #[], .ok (.program rom)⟩
    | .error refusal => .refused machine (.noProgram refusal)
  | .reset => .adjusted machine.reset
  | .powerOn => .adjusted machine.powerOn
  | .powerOff => .done machine.powerOff
  | .pause => .adjusted machine.pause
  | .resume => .adjusted machine.resume
  | .setStatus code =>
    match machine.setStatus? code with
    | .ok next => .adjusted next
    | .error misuse => .refused machine (.status misuse)
  | .setRate rate => .ofChange machine .rate (machine.setRate? rate)
  | .step => .ofStep machine
  | .skip => .done machine.skip
  | .tick => .adjusted machine.tick
  | .runFrame => .ofRun machine.runFrame.1 machine.runFrame.2
  | .emulate duration => .ofRun (machine.emulate duration).1 (machine.emulate duration).2
  | .setKey key pressed => .ofChange machine .key (machine.setKey key pressed)
  | .clearDelay => .done machine.clearDelay
  | .clearSound => .adjusted machine.clearSound

/-- The machine after one request. -/
def serveOne (machine : Machine) (request : Request) : Machine := (machine.serve request).machine

/-- The beeper is all that adjusting can change. -/
theorem adjustBeeper_eq (machine : Machine) :
    machine.adjustBeeper = { machine with beeper := machine.adjustBeeper.beeper } := by
  unfold adjustBeeper
  split <;> rfl

/-- What a reset brings back, before the beeper is adjusted. -/
def restarted (machine : Machine) : Machine :=
  { machine with
    clock := machine.clock.reset
    registers := machine.registers.reset
    executed := 0
    last := none
    screen := machine.screen.setExtended false
    timers := .zero }

theorem reset_eq (machine : Machine) : machine.reset = machine.restarted.adjustBeeper := rfl

/-- A program that is started finds everything but keypad and random source set up for it. -/
theorem start_eq (machine : Machine) (memory : Memory) (dialect : Option Dialect) :
    ∃ beeper, machine.start memory dialect =
      { machine.restarted with
        memory
        beeper
        dialect := dialect.getD machine.dialect
        status := .running } := by
  let replaced : Machine := { machine with memory, dialect := dialect.getD machine.dialect }
  have afterReset : replaced.reset =
      { replaced.restarted with beeper := replaced.reset.beeper } :=
    adjustBeeper_eq replaced.restarted
  exact ⟨_, (congrArg (setStatus · .running) afterReset).trans (adjustBeeper_eq _)⟩

/-- A request that ends by adjusting the beeper leads to the machine it adjusted. -/
theorem serveOne_of_adjusted {machine next : Machine} {request : Request}
    (ends : machine.serve request = .adjusted next) : machine.serveOne request = next := by
  rw [serveOne, ends, Reply.adjusted_machine]

theorem serveOne_reset (machine : Machine) : machine.serveOne .reset = machine.reset :=
  serveOne_of_adjusted rfl

theorem serveOne_powerOn (machine : Machine) : machine.serveOne .powerOn = machine.powerOn :=
  serveOne_of_adjusted rfl

theorem serveOne_pause (machine : Machine) : machine.serveOne .pause = machine.pause :=
  serveOne_of_adjusted rfl

theorem serveOne_resume (machine : Machine) : machine.serveOne .resume = machine.resume :=
  serveOne_of_adjusted rfl

/-- To pause a running machine asks for silence, if the time can be told. -/
theorem pause_eq {machine : Machine} (running : machine.status = .running) :
    machine.serveOne .pause = ({ machine with status := .paused } : Machine).adjustBeeper := by
  rw [serveOne_pause, pause, running]
  rfl

/-- To resume a paused machine asks for the tone that its sound timer asks for. -/
theorem resume_eq {machine : Machine} (paused : machine.status = .paused) :
    machine.serveOne .resume = ({ machine with status := .running } : Machine).adjustBeeper := by
  rw [serveOne_resume, resume, paused]
  rfl

theorem serveOne_tick (machine : Machine) : machine.serveOne .tick = machine.tick :=
  serveOne_of_adjusted rfl

theorem serveOne_clearSound (machine : Machine) :
    machine.serveOne .clearSound = machine.clearSound :=
  serveOne_of_adjusted rfl

/-- An image that does not fit is the only one that is not started. -/
theorem serveOne_load (machine : Machine) (image : List UInt8) (dialect : Option Dialect) :
    machine.serveOne (.load image dialect) =
      if machine.memory.capacity < image.length then machine
      else machine.start (machine.memory.install image) dialect := by
  by_cases larger : machine.memory.capacity < image.length
  · simp only [serveOne, serve, load, Rom.install, larger, if_true]
    rfl
  · simp only [serveOne, serve, load, Rom.install, larger, if_false]
    exact Reply.adjusted_machine _

/-- An image that fits is found installed, with the machine at its first instruction. -/
theorem serveOne_load_eq {machine : Machine} {image : List UInt8}
    (fits : image.length ≤ machine.memory.capacity) (dialect : Option Dialect) :
    ∃ beeper, machine.serveOne (.load image dialect) =
      { machine.restarted with
        memory := machine.memory.install image
        beeper
        dialect := dialect.getD machine.dialect
        status := .running } := by
  rw [serveOne_load, if_neg (Nat.not_lt.mpr fits)]
  exact start_eq ..

theorem serveOne_load_running {machine : Machine} {image : List UInt8}
    (fits : image.length ≤ machine.memory.capacity) (dialect : Option Dialect) :
    (machine.serveOne (.load image dialect)).isRunning = true ∧
      (machine.serveOne (.load image dialect)).clock = machine.clock.reset := by
  obtain ⟨beeper, loaded⟩ := serveOne_load_eq fits dialect
  rw [loaded]
  exact ⟨rfl, rfl⟩

theorem serveOne_loadFile (machine : Machine) (disk : Disk) (path : Disk.Path)
    (dialect : Option Dialect) :
    machine.serveOne (.loadFile disk path dialect) =
      match Rom.read disk path machine.memory.capacity with
      | .ok rom =>
        { machine.start (machine.memory.install rom.image) dialect with rom := some rom }
      | .error _ => machine := by
  simp only [serveOne, serve, loadFile]
  cases Rom.read disk path machine.memory.capacity <;> rfl

theorem serveOne_setStatus (machine : Machine) (code : Int) :
    machine.serveOne (.setStatus code) =
      match RunStatus.ofCode? code with
      | .ok status => machine.setStatus status
      | .error _ => machine := by
  simp only [serveOne, serve, setStatus?]
  cases RunStatus.ofCode? code with
  | ok status => exact Reply.adjusted_machine _
  | error misuse => rfl

theorem serveOne_setRate (machine : Machine) (rate : Number) :
    machine.serveOne (.setRate rate) =
      match machine.clock.setRate? rate with
      | .ok clock => { machine with clock }
      | .error _ => machine := by
  simp only [serveOne, serve, setRate?]
  cases machine.clock.setRate? rate <;> rfl

theorem serveOne_setKey (machine : Machine) (key : Int) (pressed : Bool) :
    machine.serveOne (.setKey key pressed) =
      match machine.keypad.setNumbered key pressed with
      | .ok keypad => { machine with keypad }
      | .error _ => machine := by
  simp only [serveOne, serve, setKey]
  cases machine.keypad.setNumbered key pressed <;> rfl

/-- The machine after a history of requests. -/
def serveAll (machine : Machine) (requests : List Request) : Machine :=
  requests.foldl serveOne machine

@[simp]
theorem serveAll_nil (machine : Machine) : machine.serveAll [] = machine := rfl

@[simp]
theorem serveAll_cons (machine : Machine) (request : Request) (rest : List Request) :
    machine.serveAll (request :: rest) = (machine.serveOne request).serveAll rest := rfl

/-- The replies to a history, request by request. -/
def replies (machine : Machine) : List Request → List Reply
  | [] => []
  | request :: rest => machine.serve request :: (machine.serveOne request).replies rest

/-- A machine as it is built, with audio or without, in any dialect and with any random
source. -/
structure IsBuilt (machine : Machine) : Prop where
  /-- Rates that are refused make no clock, and no machine. -/
  rated : ∃ rate timerRate, FrameClock.ofRates? rate timerRate = .ok machine.clock
  audio : ∃ tone device enabled, machine.beeper = .silent tone device enabled
  parts : machine = fresh machine.clock machine.dialect machine.random machine.beeper

/-- The machines that histories lead to. -/
inductive Reachable : Machine → Prop where
  | built {machine : Machine} (built : machine.IsBuilt) : Reachable machine
  | serve {machine : Machine} (reached : Reachable machine) (request : Request) :
      Reachable (machine.serveOne request)

/-- A whole rate builds a machine if it is positive. -/
theorem isBuilt_ofRate {rate : Int} (positive : 0 < rate) (dialect : Dialect)
    (random : RandomSource) (tone : Tone) (device : SoundDevice) (enabled : Bool) :
    (ofRate rate dialect random (.silent tone device enabled)).IsBuilt := by
  have isRate : (Number.whole rate).isRate = true := by
    have notBelow : ¬(rate : Rat) ≤ 0 := by exact_mod_cast Int.not_le.mpr positive
    simp [Number.isRate, Number.le, Number.denoted, Measure.le, notBelow]
  have timed : standardTimerRate.isRate = true := by decide +kernel
  refine ⟨⟨.whole rate, standardTimerRate, ?_⟩, ⟨tone, device, enabled, rfl⟩, rfl⟩
  simp only [FrameClock.ofRates?, isRate, timed]
  rfl

/-- So it does without audio. -/
theorem isBuilt_mute {rate : Int} (positive : 0 < rate) (dialect : Dialect)
    (random : RandomSource) : (ofRate rate dialect random .mute).IsBuilt :=
  isBuilt_ofRate positive dialect random .standard .idle false

/-- Histories can be cut anywhere. -/
theorem serveAll_append (machine : Machine) (first second : List Request) :
    machine.serveAll (first ++ second) = (machine.serveAll first).serveAll second :=
  List.foldl_append ..

/-- What every request of a history keeps, the history keeps. -/
theorem serveAll_keeps (holds : Machine → Prop) {requests : List Request}
    (ofRequest : ∀ request ∈ requests, ∀ machine, holds machine →
      holds (machine.serveOne request))
    {machine : Machine} (start : holds machine) : holds (machine.serveAll requests) := by
  induction requests generalizing machine with
  | nil => exact start
  | cons request rest inductionHypothesis =>
    have first := ofRequest request List.mem_cons_self machine start
    exact inductionHypothesis
      (fun other later => ofRequest other (List.mem_cons_of_mem _ later)) first

/-- What every request keeps, but for those that break it, holds all along a history exactly
when no request of the history breaks it. -/
theorem always_iff_never {holds : List Request → Prop} {breaks : List Request → Request → Prop}
    (start : holds [])
    (step : ∀ earlier request, holds earlier →
      (holds (earlier ++ [request]) ↔ ¬breaks earlier request))
    (requests : List Request) :
    (∀ earlier later, requests = earlier ++ later → holds earlier) ↔
      ∀ earlier request later, requests = earlier ++ request :: later →
        ¬breaks earlier request := by
  constructor
  · intro always earlier request later split
    have here := always earlier (request :: later) split
    have next := always (earlier ++ [request]) later (by simpa using split)
    exact (step earlier request here).mp next
  · intro never
    -- What was served already is put in front of the requests to come.
    induction requests generalizing holds breaks with
    | nil =>
      intro earlier later split
      rw [(List.nil_eq_append_iff.mp split).1]
      exact start
    | cons request rest inductionHypothesis =>
      intro earlier later split
      cases earlier with
      | nil => exact start
      | cons head earlier =>
        obtain ⟨rfl, tail⟩ := List.cons.inj split
        refine @inductionHypothesis (fun earlier => holds (request :: earlier))
          (fun earlier => breaks (request :: earlier))
          ((step [] request start).mpr (never [] request rest rfl))
          (fun earlier => step (request :: earlier)) ?_ earlier later tail
        intro earlier other later tail
        exact never (request :: earlier) other later (by rw [tail]; rfl)

/-- A history leads from a reachable machine to a reachable one. -/
theorem Reachable.serveAll {machine : Machine} (reached : Reachable machine)
    (requests : List Request) : Reachable (machine.serveAll requests) :=
  serveAll_keeps Reachable (fun request _ _ here => here.serve request) reached

end Machine

end Chip8
