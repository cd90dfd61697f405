import Chip8.Proofs.Makeup
import Chip8.Proofs.Surroundings
import Chip8.Proofs.WellFormed

/-!
# Loading forgets the past

A program that is loaded starts on a machine whose past can no longer be told: the memory
holds the reserved area, the image and nothing else, and every other part is what it was
when the machine was built, but for the rates of the clock, the keypad and the random
source. Two machines that agree on these serve all further requests alike, whatever was
played on them before.

What may still differ has no influence on what is served: the origin of the program, the
audio of the beepers, and what the beepers remember from before the load. The two histories
are therefore compared as two continuations, the same one, of two pasts.
-/

namespace Chip8

/-- Surroundings of one time, with beepers that are both on or both off and have the same
history since a moment at which they had different ones. -/
structure Surroundings.AlikeSince (past other : List Beep) (around beside : Surroundings) :
    Prop where
  clock : around.clock = beside.clock
  active : around.beeper.active = beside.beeper.active
  history : ∃ recent, around.beeper.history = recent ++ past ∧
    beside.beeper.history = recent ++ other

namespace Surroundings

variable {past other : List Beep} {around beside : Surroundings}

/-- At one time the time can be told in both or in neither. -/
theorem AlikeSince.lostTime (alike : AlikeSince past other around beside) :
    around.lostTime? = beside.lostTime? := by
  rw [lostTime?, alike.clock]
  rfl

/-- A change is remembered by both beepers or by none. -/
theorem AlikeSince.switch (alike : AlikeSince past other around beside) (on : Bool) :
    AlikeSince past other (around.switch on) (beside.switch on) := by
  obtain ⟨recent, history, historyBeside⟩ := alike.history
  unfold Surroundings.switch
  rw [← alike.clock]
  cases around.clock.seconds with
  | error misuse => exact alike
  | ok now =>
    refine ⟨rfl, ?_, around.beeper.chronicle now on recent, ?_, ?_⟩
    · simp only [Beeper.setActive_active]
    · simp only [Beeper.setActive_history, history, Beeper.chronicle]
      split <;> rfl
    · simp only [Beeper.setActive_history, historyBeside, Beeper.chronicle, ← alike.active]
      split <;> rfl

theorem switchesAlike_alikeSince (past other : List Beep) :
    Machine.SwitchesAlike (AlikeSince past other) :=
  fun _ _ on alike _ => alike.switch on

end Surroundings

/-- Machines that are the same but for surroundings alike since a moment. -/
abbrev Machine.AlikeSince (past other : List Beep) (first second : Machine) : Prop :=
  Machine.Akin (Surroundings.AlikeSince past other) first second

/-- Replies with the same accesses and the same result, and machines alike since a moment. -/
structure Reply.AlikeSince (past other : List Beep) (first second : Reply) : Prop where
  machine : Machine.AlikeSince past other first.machine second.machine
  accesses : second.accesses = first.accesses
  result : second.result = first.result

namespace Machine

variable {past other : List Beep} {first second : Machine}

theorem AlikeSince.lostTime (alike : AlikeSince past other first second) :
    first.lostTime? = second.lostTime? :=
  alike.around.lostTime

/-- To end with machines that are alike, and nothing else, is to end alike. -/
theorem AlikeSince.done (alike : AlikeSince past other first second) :
    Reply.AlikeSince past other (.done first) (.done second) :=
  ⟨alike, rfl, rfl⟩

/-- To end by adjusting the beeper keeps machines alike. -/
theorem AlikeSince.adjusted (alike : AlikeSince past other first second) :
    Reply.AlikeSince past other (.adjusted first) (.adjusted second) := by
  unfold Reply.adjusted
  rw [← alike.lostTime]
  cases first.lostTime? <;> exact ⟨alike, rfl, rfl⟩

theorem AlikeSince.adjustBeeper (alike : AlikeSince past other first second) :
    AlikeSince past other first.adjustBeeper second.adjustBeeper :=
  Akin.adjustBeeper (Surroundings.switchesAlike_alikeSince past other) alike alike.lostTime

theorem AlikeSince.setStatus (alike : AlikeSince past other first second) (status : RunStatus) :
    AlikeSince past other (first.setStatus status) (second.setStatus status) :=
  AlikeSince.adjustBeeper
    (alike.change (fun machine => { machine with status }) (fun _ _ => rfl) fun _ => rfl)

/-- Both clocks may be set alike. -/
theorem AlikeSince.withClock (alike : AlikeSince past other first second) (clock : FrameClock) :
    AlikeSince past other { first with clock } { second with clock } := by
  have kept : Surroundings.AlikeSince past other ⟨clock, first.beeper, first.rom⟩
      ⟨clock, second.beeper, second.rom⟩ :=
    ⟨rfl, alike.around.active, alike.around.history⟩
  exact alike.within kept

/-- A reset takes both clocks back to zero, and everything else with them. -/
theorem AlikeSince.reset (alike : AlikeSince past other first second) :
    AlikeSince past other first.reset second.reset := by
  have clock : second.clock = first.clock := alike.around.clock.symm
  have zero := alike.withClock first.clock.reset
  have changed : AlikeSince past other first.restarted second.restarted := by
    rw [restarted, restarted, clock]
    exact zero.change
      (fun machine => { machine with
        registers := machine.registers.reset
        executed := 0
        last := none
        screen := machine.screen.setExtended false
        timers := .zero })
      (fun _ _ => rfl) fun _ => rfl
  exact changed.adjustBeeper

/-- A program is started alike. -/
theorem AlikeSince.start (alike : AlikeSince past other first second) (memory : Memory)
    (dialect : Option Dialect) :
    AlikeSince past other (first.start memory dialect) (second.start memory dialect) := by
  have replaced : AlikeSince past other
      { first with memory, dialect := dialect.getD first.dialect }
      { second with memory, dialect := dialect.getD second.dialect } :=
    alike.change
      (fun machine => { machine with memory, dialect := dialect.getD machine.dialect })
      (fun _ _ => rfl) fun _ => rfl
  exact replaced.reset.setStatus .running

/-- A step is made alike. -/
theorem AlikeSince.ofStep (alike : AlikeSince past other first second) :
    Reply.AlikeSince past other (.ofStep first) (.ofStep second) := by
  have both := Akin.step (Surroundings.switchesAlike_alikeSince past other) alike
    fun _ => alike.lostTime
  unfold Reply.ofStep
  generalize first.step = traced at both ⊢
  generalize second.step = beside at both ⊢
  cases both with
  | fault accesses fault => exact ⟨alike, rfl, rfl⟩
  | @value accesses ended endedBeside agrees =>
    obtain ⟨progress, next⟩ := ended
    obtain ⟨progressBeside, nextBeside⟩ := endedBeside
    obtain ⟨rfl, further⟩ := agrees
    cases progressBeside <;> exact ⟨further, rfl, rfl⟩

/-- Moves are followed alike. -/
theorem AlikeSince.ofRun (alike : AlikeSince past other first second) (moves : List Move)
    (count : Int) :
    Reply.AlikeSince past other (.ofRun ((Run.begin first).follow moves) count)
      (.ofRun ((Run.begin second).follow moves) count) := by
  have begun : Run.Akin (Surroundings.AlikeSince past other) (.begin first) (.begin second) :=
    ⟨alike, rfl, rfl⟩
  have followed := begun.follow (Surroundings.switchesAlike_alikeSince past other) moves
    (.inr alike.lostTime)
  exact ⟨followed.machine, followed.accesses, by simp only [Reply.ofRun, followed.stop]⟩

/-- The same request, made of machines that are alike, is served alike. -/
theorem AlikeSince.serve (alike : AlikeSince past other first second) (request : Request) :
    Reply.AlikeSince past other (first.serve request) (second.serve request) := by
  have memory : second.memory = first.memory := by rw [alike.parts]; rfl
  have status : second.status = first.status := by rw [alike.parts]; rfl
  have keypad : second.keypad = first.keypad := by rw [alike.parts]; rfl
  have clock : second.clock = first.clock := alike.around.clock.symm
  have running : second.isRunning = first.isRunning := by simp only [isRunning, status]
  cases request
  case load image dialect =>
    simp only [Machine.serve, load, memory]
    cases Rom.install first.memory image with
    | error refusal => exact ⟨alike, rfl, rfl⟩
    | ok memory => exact (alike.start memory dialect).adjusted
  case loadFile disk path dialect =>
    simp only [Machine.serve, loadFile, memory]
    cases Rom.read disk path first.memory.capacity with
    | error refusal => exact ⟨alike, rfl, rfl⟩
    | ok rom =>
      have started := alike.start (first.memory.install rom.image) dialect
      let next := first.start (first.memory.install rom.image) dialect
      let beside := second.start (first.memory.install rom.image) dialect
      have kept : Surroundings.AlikeSince past other ⟨next.clock, next.beeper, some rom⟩
          ⟨beside.clock, beside.beeper, some rom⟩ :=
        ⟨started.around.clock, started.around.active, started.around.history⟩
      exact ⟨started.within kept, rfl, rfl⟩
  case reset => exact alike.reset.adjusted
  case powerOn =>
    have run := alike.reset.change (fun machine => { machine with status := .running })
      (fun _ _ => rfl) fun _ => rfl
    exact AlikeSince.adjusted run
  case powerOff =>
    have stopped := alike.change (fun machine => { machine with status := .stopped })
      (fun _ _ => rfl) fun _ => rfl
    exact AlikeSince.done stopped
  case pause =>
    simp only [Machine.serve, pause, status]
    exact (alike.setStatus _).adjusted
  case resume =>
    simp only [Machine.serve, resume, status]
    exact (alike.setStatus _).adjusted
  case setStatus code =>
    simp only [Machine.serve, setStatus?]
    cases RunStatus.ofCode? code with
    | ok status => exact (alike.setStatus status).adjusted
    | error misuse => exact ⟨alike, rfl, rfl⟩
  case setRate rate =>
    simp only [Machine.serve, setRate?, clock]
    cases first.clock.setRate? rate with
    | error misuse => exact ⟨alike, rfl, rfl⟩
    | ok next => exact (alike.withClock next).done
  case step => exact alike.ofStep
  case skip =>
    have skipped := alike.change (fun machine => machine.skip) (fun _ _ => rfl) fun _ => rfl
    exact AlikeSince.done skipped
  case tick =>
    exact AlikeSince.adjusted
      (alike.tick (Surroundings.switchesAlike_alikeSince past other) alike.lostTime)
  case runFrame =>
    simp only [Machine.serve, runFrame, running, clock, Run.frame_eq_follow]
    split
    · cases first.clock.stepsPerFrame with
      | ok steps => exact alike.ofRun (Run.frameMoves steps) steps
      | error misuse => exact ⟨alike, rfl, rfl⟩
    · exact ⟨alike, rfl, rfl⟩
  case emulate duration =>
    simp only [Machine.serve, emulate, running, clock, Run.slice_eq_follow]
    split
    · cases first.clock.advance duration with
      | error misuse => exact ⟨alike, rfl, rfl⟩
      | ok passed =>
        obtain ⟨⟨steps, ticks⟩, next⟩ := passed
        exact (alike.withClock next).ofRun _ steps
    · exact ⟨alike, rfl, rfl⟩
  case setKey key pressed =>
    simp only [Machine.serve, setKey, keypad]
    cases first.keypad.setNumbered key pressed with
    | error misuse => exact ⟨alike, rfl, rfl⟩
    | ok keypad =>
      have pressed := alike.change (fun machine => { machine with keypad }) (fun _ _ => rfl)
        fun _ => rfl
      exact AlikeSince.done pressed
  case clearDelay =>
    have cleared := alike.change (fun machine => machine.clearDelay) (fun _ _ => rfl)
      fun _ => rfl
    exact AlikeSince.done cleared
  case clearSound =>
    have cleared := alike.change
      (fun machine => { machine with timers := { machine.timers with sound := 0 } })
      (fun _ _ => rfl) fun _ => rfl
    exact (AlikeSince.adjustBeeper cleared).adjusted

/-- A common history leaves machines that are alike so. -/
theorem AlikeSince.serveAll (alike : AlikeSince past other first second)
    (requests : List Request) :
    AlikeSince past other (first.serveAll requests) (second.serveAll requests) := by
  induction requests generalizing first second with
  | nil => exact alike
  | cons request rest inductionHypothesis => exact inductionHypothesis (alike.serve request).machine

end Machine

/-- Of a memory, an installed image leaves the reserved area, the size and the reports. -/
theorem Memory.install_congr {memory other : Memory} (image : List UInt8)
    (reserved : memory.reservedBytes = other.reservedBytes) (size : memory.size = other.size)
    (traced : memory.traced = other.traced) : memory.install image = other.install image := by
  have bytes : (memory.install image).bytes = (other.install image).bytes := by
    apply Array.toList_inj.mp
    rw [install_toList, install_toList, reserved, capacity, capacity, size]
  have kept : (memory.install image).traced = (other.install image).traced := traced
  change (⟨(memory.install image).bytes, (memory.install image).traced⟩ : Memory) =
    ⟨(other.install image).bytes, (other.install image).traced⟩
  rw [bytes, kept]

namespace Machine

variable {first second : Machine} {image : List UInt8}

/-- A program is started at time zero, with the beeper off. -/
theorem start_ready (machine : Machine) (memory : Memory) (dialect : Option Dialect) :
    let started := machine.start memory dialect
    started.lostTime? = none ∧ started.status = .running ∧
      started.clock = machine.clock.reset ∧ started.beeper.active = false := by
  intro started
  obtain ⟨beeper, known⟩ := start_eq machine memory dialect
  change started = _ at known
  have clock : started.clock = machine.clock.reset := by
    rw [known]
    rfl
  have silence : started.wantsTone = false := by
    rw [known]
    rfl
  have told : started.lostTime? = none := lostTime_of_start (by rw [clock]; rfl)
  have follows := (start_settles machine machine memory dialect).told told
  refine ⟨told, ?_, clock, ?_⟩
  · rw [known]
  · rw [(follows_iff_active _).mp follows, silence]

/-- An image that fits is accepted, and started. -/
theorem serve_load_of_fits (fits : image.length ≤ first.memory.capacity)
    (dialect : Option Dialect) :
    first.serve (.load image dialect) =
      .done (first.start (first.memory.install image) dialect) := by
  have told := (start_ready first (first.memory.install image) dialect).1
  have installed : first.load image dialect =
      .ok (first.start (first.memory.install image) dialect) := by
    simp only [load, Rom.install, if_neg (Nat.not_lt.mpr fits)]
    rfl
  simp only [serve, installed, Reply.adjusted, told]

/-- Well-formed machines that were built alike and agree on rates, keypad and random source
are alike from starting the same program in the same dialect on. -/
theorem start_alike (formed : first.WellFormed) (formedOther : second.WellFormed)
    (makeup : first.makeup = second.makeup) (rate : first.clock.rate = second.clock.rate)
    (timerRate : first.clock.timerRate = second.clock.timerRate)
    (keypad : first.keypad = second.keypad) (random : first.random = second.random)
    (image : List UInt8) (dialect : Dialect) :
    let started := first.start (first.memory.install image) (some dialect)
    let beside := second.start (second.memory.install image) (some dialect)
    AlikeSince started.beeper.history beside.beeper.history started beside := by
  intro started beside
  obtain ⟨_, _, clock, off⟩ := start_ready first (first.memory.install image) (some dialect)
  obtain ⟨_, _, clockBeside, offBeside⟩ :=
    start_ready second (second.memory.install image) (some dialect)
  have sameClock : first.clock.reset = second.clock.reset := by
    rw [FrameClock.reset, FrameClock.reset, rate, timerRate]
  have registers : first.registers.reset = second.registers.reset := by
    have capacity := formed.stackCapacity.trans formedOther.stackCapacity.symm
    rw [Registers.reset, Registers.reset, CallStack.clear, CallStack.clear, capacity]
  have memory : first.memory.install image = second.memory.install image :=
    Memory.install_congr image (formed.reserved.trans formedOther.reserved.symm)
      (formed.memorySize.trans formedOther.memorySize.symm) (congrArg Makeup.traced makeup)
  have screen : first.screen.setExtended false = second.screen.setExtended false := by
    have on : first.screen.colorOn = second.screen.colorOn := congrArg Makeup.colorOn makeup
    have off : first.screen.colorOff = second.screen.colorOff := congrArg Makeup.colorOff makeup
    simp only [Screen.setExtended, Screen.resize, on, off]
  refine ⟨⟨?_, off.trans offBeside.symm, [], rfl, rfl⟩, ?_⟩
  · exact clock.trans (sameClock.trans clockBeside.symm)
  · obtain ⟨beeper, known⟩ := start_eq first (first.memory.install image) (some dialect)
    obtain ⟨beeperBeside, knownBeside⟩ :=
      start_eq second (second.memory.install image) (some dialect)
    simp only [started, beside, known, knownBeside, restarted, within, registers, memory, screen,
      keypad, random]
    rfl

theorem IsBuilt.makeup (built : first.IsBuilt) : first.makeup = ⟨false, 0xFFFFFF, 0x000000⟩ := by
  rw [built.parts]
  rfl

/-- Wherever a history leads, the machine has the makeup it was built with. -/
theorem Reachable.makeup (reached : Reachable first) :
    first.makeup = ⟨false, 0xFFFFFF, 0x000000⟩ := by
  induction reached with
  | built built => exact built.makeup
  | serve _ request inductionHypothesis =>
    exact (serveOne_makeup _ request).trans inductionHypothesis

/-- Loading forgets the past. Whatever histories have led to two machines, if they have the
same rates, keypad and random source, a program that fits is accepted by both in a given
dialect, and leaves them running at time zero, with the beeper off, and alike. From then on
both serve all requests alike: with the same accesses and results, machines that are the
same but for the origin of their programs and the audio of their beepers, and the same
changes of the beeper since. -/
theorem load_forgets (reached : Reachable first) (reachedOther : Reachable second)
    (rate : first.clock.rate = second.clock.rate)
    (timerRate : first.clock.timerRate = second.clock.timerRate)
    (keypad : first.keypad = second.keypad) (random : first.random = second.random)
    (fits : image.length ≤ first.memory.capacity) (dialect : Dialect) :
    let loaded := first.serve (.load image (some dialect))
    let beside := second.serve (.load image (some dialect))
    let past := loaded.machine.beeper.history
    let other := beside.machine.beeper.history
    loaded.result = .ok .done ∧ loaded.machine.status = .running ∧
      loaded.machine.clock.elapsed = 0 ∧ loaded.machine.beeper.active = false ∧
      Reply.AlikeSince past other loaded beside ∧
      ∀ requests request, Reply.AlikeSince past other
        ((loaded.machine.serveAll requests).serve request)
        ((beside.machine.serveAll requests).serve request) := by
  have formed := reached.wellFormed
  have formedOther := reachedOther.wellFormed
  have size := formed.memorySize.trans formedOther.memorySize.symm
  have fitsOther : image.length ≤ second.memory.capacity := by
    rw [Memory.capacity, ← size]
    exact fits
  have started := start_alike formed formedOther (reached.makeup.trans reachedOther.makeup.symm)
    rate timerRate keypad random image dialect
  obtain ⟨_, running, clock, off⟩ := start_ready first (first.memory.install image) (some dialect)
  rw [serve_load_of_fits fits, serve_load_of_fits fitsOther]
  generalize first.start (first.memory.install image) (some dialect) = loaded at *
  generalize second.start (second.memory.install image) (some dialect) = beside at *
  refine ⟨rfl, running, congrArg FrameClock.elapsed clock, off, started.done, ?_⟩
  exact fun requests request => (started.serveAll requests).serve request

/-- A fresh machine, and one with audio that was switched off with another program in
another dialect, forget this by loading. -/
theorem load_forgets_powerOff :
    let first := ofRate 700 .chip8 0 (.silent .standard .idle false)
    let second := (ofRate 700 .schip 0 (.silent .standard .idle true)).serveAll
      [.load toneProgram none, .powerOff]
    let loaded := first.serve (.load [0x12, 0x00] (some .chip8))
    let beside := second.serve (.load [0x12, 0x00] (some .chip8))
    Reply.AlikeSince loaded.machine.beeper.history beside.machine.beeper.history
      ((loaded.machine.serveAll [.step, .step]).serve .runFrame)
      ((beside.machine.serveAll [.step, .step]).serve .runFrame) := by
  intro first second
  have positive : (0 : Int) < 700 := by decide
  have room : toneProgram.length ≤ Memory.standard.capacity := by decide +kernel
  have roomThere : toneProgram.length ≤
      (ofRate 700 .schip 0 (.silent .standard .idle true)).memory.capacity := room
  obtain ⟨beeper, before⟩ : ∃ beeper,
      (ofRate 700 .schip 0 (.silent .standard .idle true)).serveOne (.load toneProgram none) =
        { ofRate 700 .schip 0 (.silent .standard .idle true) with
          memory := Memory.standard.install toneProgram
          beeper
          status := .running } := serveOne_load_eq roomThere none
  have known : second = { ofRate 700 .schip 0 (.silent .standard .idle true) with
      memory := Memory.standard.install toneProgram
      beeper
      status := .stopped } := by
    have switched : second =
        ((ofRate 700 .schip 0 (.silent .standard .idle true)).serveOne
          (.load toneProgram none)).powerOff := rfl
    rw [switched, before]
    rfl
  have reached : Reachable first := .built (isBuilt_ofRate positive ..)
  have reachedOther : Reachable second := (Reachable.built (isBuilt_ofRate positive ..)).serveAll _
  have fits : ([0x12, 0x00] : List UInt8).length ≤ Memory.standard.capacity := by decide +kernel
  have fitsThere : ([0x12, 0x00] : List UInt8).length ≤ first.memory.capacity := fits
  have forgets := load_forgets reached reachedOther (by rw [known]; rfl) (by rw [known]; rfl)
    (by rw [known]; rfl) (by rw [known]; rfl) fitsThere .chip8
  exact forgets.2.2.2.2.2 [.step, .step] .runFrame

end Machine

end Chip8
