import Chip8.Proofs.Aside
import Chip8.Proofs.Finding
import Chip8.Proofs.Loading

/-!
# Restarting

A reset restarts the loaded program. To play a program is to make steps and ticks, singly or
as time passes, to move over words, and to clear timers. However long a program was played,
a reset takes registers, stack, screen, timers, counts and clock back to what they were right
after loading, since all of these are set anew from what playing does not touch.

Memory is not among them. A reset writes no byte, so that the program finds what it has made
of itself. Where it has stored nothing, memory is as it was loaded, and under the same keys
and the same random numbers the program runs again as it did the first time. Where it has,
it runs as a program that was loaded with these bytes.
-/

namespace Chip8

/-- Requests that play the loaded program. -/
def Request.plays : Request → Bool
  | .step | .skip | .tick | .runFrame | .emulate _ | .clearDelay | .clearSound => true
  | _ => false

/-- Time may pass on a clock, and nothing else happens to it. -/
theorem FrameClock.later_of_advance {clock next : FrameClock} {duration : Number}
    {due : Int × Int} (advanced : clock.advance duration = .ok (due, next)) :
    ∃ passed, next = clock.later passed := by
  unfold advance at advanced
  cases measured : duration.toMicroseconds with
  | error misuse =>
    rw [measured] at advanced
    cases advanced
  | ok microseconds =>
    rw [measured] at advanced
    change (if microseconds ≤ 0 then _ else _) = _ at advanced
    split at advanced
    case isTrue =>
      cases advanced
      exact ⟨0, rfl⟩
    case isFalse =>
      refine ⟨microseconds.toNat, ?_⟩
      dsimp only [pass] at advanced
      cases steps : between clock.rate clock.elapsed (clock.elapsed + microseconds.toNat) with
      | error misuse =>
        rw [steps] at advanced
        cases advanced
      | ok steps =>
        rw [steps] at advanced
        cases ticks :
            between clock.timerRate clock.elapsed (clock.elapsed + microseconds.toNat) with
        | error misuse =>
          rw [ticks] at advanced
          cases advanced
        | ok ticks =>
          rw [ticks] at advanced
          cases advanced
          rfl

namespace Machine

variable {machine : Machine} {requests : List Request}

/-- Before a request makes its moves, time may pass. -/
theorem outset_clock (machine : Machine) (request : Request) :
    ∃ passed, (machine.outset request).clock = machine.clock.later passed := by
  cases request
  case emulate duration =>
    simp only [outset]
    split
    case isTrue =>
      split
      case h_1 due clock advanced => exact FrameClock.later_of_advance advanced
      case h_2 => exact ⟨0, rfl⟩
    case isFalse => exact ⟨0, rfl⟩
  all_goals exact ⟨0, rfl⟩

/-- What the host has settled: the rates, on a clock at time zero, the keys, the status, the
dialect, and the origin of the program. -/
structure Setting where
  clock : FrameClock
  keypad : Keypad
  status : RunStatus
  dialect : Dialect
  rom : Option Rom

def setting (machine : Machine) : Setting :=
  ⟨machine.clock.reset, machine.keypad, machine.status, machine.dialect, machine.rom⟩

theorem adjustBeeper_setting (machine : Machine) :
    machine.adjustBeeper.setting = machine.setting := by
  rw [adjustBeeper_eq]
  rfl

/-- A step does not touch what the host has settled, be it complete or not. -/
theorem afterStep_setting (machine : Machine) : machine.afterStep.setting = machine.setting := by
  rcases afterStep_cases machine with failed |
    ⟨word, operation, after, executed, last, _, _, left, ⟨_, ended⟩ | ⟨_, ended⟩⟩
  · rw [failed]
  · rw [ended, left.host]
    rfl
  · rw [ended, adjustBeeper_setting, left.host]
    rfl

theorem tick_setting (machine : Machine) : machine.tick.setting = machine.setting :=
  adjustBeeper_setting { machine with timers := machine.timers.tick }

/-- Nor does a run. -/
theorem follow_setting (run : Run) (moves : List Move) :
    (run.follow moves).machine.setting = run.machine.setting :=
  Run.follow_keeps (·.setting = run.machine.setting)
    (fun machine kept => (afterStep_setting machine).trans kept)
    (fun machine kept => (tick_setting machine).trans kept) rfl moves

/-- To play the program for one request leaves the setting alone. -/
theorem serveOne_setting {request : Request} (plays : request.plays = true) :
    (machine.serveOne request).setting = machine.setting := by
  cases request
  case step => exact serveOne_step machine ▸ afterStep_setting machine
  case tick => exact serveOne_tick machine ▸ tick_setting machine
  case skip | clearDelay => rfl
  case clearSound =>
    rw [serveOne_clearSound]
    exact adjustBeeper_setting _
  case runFrame =>
    rw [runFrame_eq_follow]
    exact follow_setting _ _
  case emulate duration =>
    obtain ⟨passed, clock⟩ := outset_clock machine (.emulate duration)
    rw [emulate_eq_follow, follow_setting]
    change (machine.outset _).setting = _
    rw [outset_eq, clock]
    rfl
  all_goals cases plays

/-- To play it for any number of requests does so as well. -/
theorem serveAll_setting (plays : ∀ request ∈ requests, request.plays = true) :
    (machine.serveAll requests).setting = machine.setting :=
  serveAll_keeps (·.setting = machine.setting)
    (fun request member _ kept => (serveOne_setting (plays request member)).trans kept) rfl

/-- The next instruction stores to memory. -/
def SetsMemory (machine : Machine) : Prop :=
  ∃ word operation, machine.Finds word operation ∧
    (operation = .store ∨ operation = .storeDecimal)

/-- A step that does not store leaves memory alone. -/
theorem afterStep_memory (stays : ¬machine.SetsMemory) :
    machine.afterStep.memory = machine.memory := by
  rcases afterStep_cases machine with failed |
    ⟨word, operation, after, executed, last, fetched, known, left, ended⟩
  · rw [failed]
  · have finds : machine.Finds word operation := ⟨fetched, known⟩
    have memory : after.memory = machine.memory := by
      have footprint := left.memory
      cases operation
      case store => exact absurd ⟨word, _, finds, .inl rfl⟩ stays
      case storeDecimal => exact absurd ⟨word, _, finds, .inr rfl⟩ stays
      all_goals exact footprint
    rcases ended with ⟨_, ended⟩ | ⟨_, ended⟩
    · rw [ended]
      exact memory
    · rw [ended, adjustBeeper_eq]
      exact memory

end Machine

/-- A run that attempts no store leaves memory alone. -/
theorem Run.follow_memory {run : Run} {moves : List Move}
    (stays : ∀ attempted ∈ run.attempts moves, ¬attempted.SetsMemory) :
    (run.follow moves).machine.memory = run.machine.memory := by
  induction moves generalizing run with
  | nil => rfl
  | cons move rest inductionHypothesis =>
    cases move with
    | tick => exact (inductionHypothesis stays).trans run.tick_memory
    | step =>
      have further := @inductionHypothesis run.step fun attempted later =>
        stays attempted (List.mem_append_right _ later)
      refine further.trans ?_
      rw [machine_step]
      split
      case isTrue => rfl
      case isFalse going =>
        refine Machine.afterStep_memory (stays run.machine (List.mem_append_left _ ?_))
        rw [if_neg going]
        exact List.mem_singleton_self _

namespace Machine

variable {machine loaded played : Machine} {image : List UInt8} {requests : List Request}

/-- To play a program that stores nothing leaves memory alone. -/
theorem serveOne_memory {request : Request} (plays : request.plays = true)
    (stays : ∀ attempted ∈ machine.attempts request, ¬attempted.SetsMemory) :
    (machine.serveOne request).memory = machine.memory := by
  cases request
  case step =>
    rw [serveOne_step]
    exact afterStep_memory (stays machine (List.mem_singleton_self _))
  case tick | skip | clearDelay | clearSound => exact memory_of_aside machine rfl
  case runFrame =>
    rw [runFrame_eq_follow]
    exact Run.follow_memory stays
  case emulate duration =>
    rw [emulate_eq_follow, Run.follow_memory stays]
    change (machine.outset _).memory = _
    rw [outset_eq]
  all_goals cases plays

theorem serveAll_memory (plays : ∀ request ∈ requests, request.plays = true)
    (stays : ∀ attempted ∈ machine.attemptsAll requests, ¬attempted.SetsMemory) :
    (machine.serveAll requests).memory = machine.memory := by
  induction requests generalizing machine with
  | nil => rfl
  | cons request rest inductionHypothesis =>
    have first := serveOne_memory (plays request List.mem_cons_self) fun attempted here =>
      stays attempted (List.mem_append_left _ here)
    have others := @inductionHypothesis (machine.serveOne request)
      (fun other later => plays other (List.mem_cons_of_mem _ later))
      fun attempted later => stays attempted (List.mem_append_right _ later)
    exact others.trans first

/-- The machine is where another one was: with its registers and stack, its screen, timers,
counts and clock, and in the setting of its host. -/
structure BackAt (machine loaded : Machine) : Prop where
  registers : machine.registers = loaded.registers
  screen : machine.screen = loaded.screen
  timers : machine.timers = loaded.timers
  executed : machine.executed = loaded.executed
  last : machine.last = loaded.last
  clock : machine.clock = loaded.clock
  keypad : machine.keypad = loaded.keypad
  status : machine.status = loaded.status
  dialect : machine.dialect = loaded.dialect
  rom : machine.rom = loaded.rom

/-- Whatever random numbers both machines are given, and whatever is asked for from here on,
they serve it alike: with the same accesses and results, machines that are the same but for
the audio of their beepers, and the same changes of the beeper. -/
def RunsAs (machine other : Machine) : Prop :=
  ∀ random requests request,
    Reply.AlikeSince machine.beeper.history other.beeper.history
      ((({ machine with random } : Machine).serveAll requests).serve request)
      ((({ other with random } : Machine).serveAll requests).serve request)

/-- Machines that differ in random numbers and silent beepers run alike. -/
theorem runsAs_of_silent {other : Machine} {beeper : Beeper} {source : RandomSource}
    (parts : other = { machine with beeper, random := source })
    (off : machine.beeper.active = false) (offOther : other.beeper.active = false) :
    machine.RunsAs other := by
  subst parts
  intro random requests request
  have alike : AlikeSince machine.beeper.history beeper.history
      { machine with random } { machine with beeper, random } :=
    ⟨⟨rfl, off.trans offOther.symm, [], rfl, rfl⟩, rfl⟩
  exact (alike.serveAll requests).serve request

/-- A reset leaves memory alone. -/
theorem reset_memory (machine : Machine) : machine.reset.memory = machine.memory := by
  rw [reset_eq, adjustBeeper_eq]
  rfl

/-- A reset is always granted. -/
theorem serve_reset (machine : Machine) : machine.serve .reset = .done machine.reset := by
  change Reply.adjusted machine.reset = _
  rw [Reply.adjusted, (reset_silent machine).1]

/-- A machine right after loading is where a reset would lead. -/
theorem restarted_of_load (fits : image.length ≤ machine.memory.capacity)
    (dialect : Option Dialect) :
    let loaded := machine.serveOne (.load image dialect)
    loaded.restarted = loaded ∧ loaded.beeper.active = false := by
  intro loaded
  have started : loaded = machine.start (machine.memory.install image) dialect := by
    change machine.serveOne _ = _
    rw [serveOne_load, if_neg (Nat.not_lt.mpr fits)]
  obtain ⟨beeper, known⟩ := serveOne_load_eq fits dialect
  constructor
  · change loaded = _ at known
    rw [known]
    rfl
  · obtain ⟨_, _, _, silent⟩ := start_ready machine (machine.memory.install image) dialect
    rw [started]
    exact silent

/-- In one setting well-formed machines of one makeup are reset alike. What stays of each is
memory, beeper and random source. -/
theorem restarted_of_setting (formed : played.WellFormed) (formedLoaded : loaded.WellFormed)
    (makeup : played.makeup = loaded.makeup) (setting : played.setting = loaded.setting) :
    played.restarted =
      { loaded.restarted with
        memory := played.memory
        beeper := played.beeper
        random := played.random } := by
  have clock : played.clock.reset = loaded.clock.reset := congrArg Setting.clock setting
  have keypad : played.keypad = loaded.keypad := congrArg Setting.keypad setting
  have status : played.status = loaded.status := congrArg Setting.status setting
  have dialect : played.dialect = loaded.dialect := congrArg Setting.dialect setting
  have rom : played.rom = loaded.rom := congrArg Setting.rom setting
  have registers : played.registers.reset = loaded.registers.reset := by
    have capacity := formed.stackCapacity.trans formedLoaded.stackCapacity.symm
    rw [Registers.reset, Registers.reset, CallStack.clear, CallStack.clear, capacity]
  have screen : played.screen.setExtended false = loaded.screen.setExtended false := by
    have on : played.screen.colorOn = loaded.screen.colorOn := congrArg Makeup.colorOn makeup
    have off : played.screen.colorOff = loaded.screen.colorOff := congrArg Makeup.colorOff makeup
    simp only [Screen.setExtended, Screen.resize, on, off]
  simp only [restarted, clock, keypad, status, dialect, rom, registers, screen]

/-- A reset restarts the loaded program. However it was played since it was loaded, the reset
is granted and takes registers, stack, screen, timers, counts and clock back to what they
were right after loading. Memory it leaves as it is, with the reserved area as ever. From
there on the machine runs as one that was loaded with these bytes, and as it did the first
time if the program has stored nothing. -/
theorem Used.reset_restarts (used : machine.Used) (fits : image.length ≤ 0xE00)
    (dialect : Option Dialect) (plays : ∀ request ∈ requests, request.plays = true) :
    let loaded := machine.serveOne (.load image dialect)
    let played := loaded.serveAll requests
    let again := played.serve .reset
    again.result = .ok .done ∧ again.machine.BackAt loaded ∧
      again.machine.memory = played.memory ∧
      again.machine.memory.reservedBytes = loaded.memory.reservedBytes ∧
      ({ loaded with memory := played.memory } : Machine).RunsAs again.machine ∧
      ((∀ attempted ∈ loaded.attemptsAll requests, ¬attempted.SetsMemory) →
        again.machine.memory = loaded.memory ∧ loaded.RunsAs again.machine) := by
  intro loaded played again
  have room : image.length ≤ machine.memory.capacity := used.wellFormed.room.2 ▸ fits
  obtain ⟨start, silent⟩ := restarted_of_load room dialect
  have formed : loaded.WellFormed := used.wellFormed.serveOne (.load image dialect)
  have formedPlayed : played.WellFormed := formed.serveAll requests
  obtain ⟨_, _, silence⟩ := reset_silent played
  have back : played.reset =
      { loaded with
        memory := played.memory
        beeper := played.reset.beeper
        random := played.random } := by
    have parts := restarted_of_setting formedPlayed formed (serveAll_makeup loaded requests)
      (serveAll_setting plays)
    have adjusted := adjustBeeper_eq played.restarted
    rw [start] at parts
    rw [← reset_eq] at adjusted
    rw [adjusted, parts]
  simp only [again, serve_reset]
  change _ ∧ played.reset.BackAt loaded ∧ played.reset.memory = _ ∧
    played.reset.memory.reservedBytes = _ ∧ Machine.RunsAs _ played.reset ∧
      (_ → played.reset.memory = _ ∧ loaded.RunsAs played.reset)
  have memory := reset_memory played
  refine ⟨rfl, ?_, memory, ?_, ?_, fun stays => ?_⟩
  · rw [back]
    exact ⟨rfl, rfl, rfl, rfl, rfl, rfl, rfl, rfl, rfl, rfl⟩
  · rw [memory, formedPlayed.reserved, formed.reserved]
  · exact runsAs_of_silent back silent silence
  · have kept : played.memory = loaded.memory := serveAll_memory plays stays
    rw [kept] at back
    exact ⟨memory.trans kept, runsAs_of_silent back silent silence⟩

/-- A machine that finds another operation does not store. -/
theorem Finds.stays {word : Word} {operation : Operation} (finds : machine.Finds word operation)
    (notStore : operation ≠ .store) (notDecimal : operation ≠ .storeDecimal) :
    ¬machine.SetsMemory := by
  rintro ⟨other, meant, found, stores⟩
  obtain rfl : other = word := Except.ok.inj (found.1.symm.trans finds.1)
  obtain rfl : meant = operation := Option.some.inj (found.2.symm.trans finds.2)
  exact stores.elim notStore notDecimal

/-- A program that sets a register is stepped, ticked and moved over, and reset. -/
theorem reset_restarts_toneProgram :
    let loaded := (ofRate 700 .chip8 0 .mute).serveOne (.load toneProgram none)
    let again := (loaded.serveAll [.step, .tick, .skip]).serve .reset
    again.result = .ok .done ∧ again.machine.BackAt loaded ∧ loaded.RunsAs again.machine := by
  intro loaded again
  have used : (ofRate 700 .chip8 0 .mute).Used := .built (isBuilt_mute (by decide) .chip8 0)
  have plays : ∀ request ∈ [Request.step, .tick, .skip], request.plays = true := by decide
  have fits : toneProgram.length ≤ 0xE00 := by decide
  obtain ⟨granted, back, _, _, _, runs⟩ := used.reset_restarts fits none plays
  refine ⟨granted, back, (runs fun attempted member => ?_).2⟩
  have tried (machine : Machine) : machine.attemptsAll [.step, .tick, .skip] = [machine] := rfl
  rw [tried, List.mem_singleton] at member
  have room : toneProgram.length ≤ Memory.standard.capacity := by decide +kernel
  have finds : loaded.Finds 0x6005 .loadByte :=
    (stands_of_load room).1.finds rfl (by decide) (by decide +kernel)
  rw [member]
  exact finds.stays nofun nofun

/-- A program that stores a zero over its first byte. -/
def patchProgram : List UInt8 := [0xA2, 0x00, 0xF0, 0x55]

/-- Its two steps leave a zero there. -/
theorem Stands.memory_of_patchProgram (stands : machine.Stands patchProgram 0)
    (cleared : machine.registers = .initial) :
    machine.afterStep.afterStep.memory.byteAt 0x200 = 0 ∧
      machine.afterStep.afterStep.memory.byteAt 0x201 = 0 := by
  have area : Memory.programStart ≤ Memory.standard.size := by decide +kernel
  have first : machine.Finds 0xA200 .loadIndex := stands.finds rfl (by decide) rfl
  let placed : Machine :=
    { machine with
      registers := (machine.registers.setIndex 0x200).advance
      executed := machine.executed + 1
      last := some ⟨.loadIndex, 0xA200⟩ }
  have afterFirst : machine.afterStep = placed := afterStep_of_ok (first.step rfl)
  have registers : placed.registers = (Registers.initial.setIndex 0x200).advance := by
    rw [← cleared]
  have further : placed.Stands patchProgram 2 :=
    ⟨stands.fits, stands.memory, stands.dialect, by rw [registers]; rfl⟩
  have second : placed.Finds 0xF055 .store := further.finds rfl (by decide) rfl
  have inside : placed.memory.writable 0x200 = true := by
    rw [Memory.writable_iff, further.memory, (Memory.install_keeps area stands.fits).1]
    decide +kernel
  let patched : Memory :=
    { placed.memory with bytes := placed.memory.bytes.setIfInBounds 0x200 0 }
  have byte : (placed.memory.writeByte 0x200 0).result = .ok patched :=
    Memory.writeByte_eq_ok.mpr ⟨inside, rfl⟩
  have block : (placed.memory.writeBlock placed.registers.index.toNat
      (placed.registers.upTo (Word.x 0xF055))).result = .ok patched := by
    rw [registers]
    change (placed.memory.writeBlock 0x200 [0]).result = _
    rw [@Memory.writeBlock_eq_writeBytes placed.memory 0x200 [0] rfl inside inside]
    exact Traced.result_bind_eq_ok.mpr ⟨patched, byte, rfl⟩
  have stored : (placed.carryOut 0xF055 .store).result =
      .ok (.executed, { placed with
        memory := patched
        registers := (placed.passBlock (Word.x 0xF055)).advance }) :=
    Traced.result_bind_eq_ok.mpr ⟨patched, block, rfl⟩
  have memory : machine.afterStep.afterStep.memory = patched := by
    rw [afterFirst, afterStep_of_ok (second.step stored)]
    rfl
  have loaded : placed.memory.byteAt 0x201 = 0 := by
    rw [further.memory]
    exact @Memory.byteAt_install _ patchProgram area 1 (by decide)
  rw [memory, Memory.byteAt_of_writeByte byte, Memory.byteAt_of_writeByte byte, loaded]
  exact ⟨rfl, rfl⟩

/-- What it has stored stays there, and it does not find its first instruction again. -/
theorem not_restored_patchProgram :
    let loaded := (ofRate 700 .chip8 0 .mute).serveOne (.load patchProgram none)
    let again := (loaded.serveAll [.step, .step]).serve .reset
    again.machine.memory ≠ loaded.memory ∧
      loaded.Finds 0xA200 .loadIndex ∧ ¬again.machine.Finds 0xA200 .loadIndex := by
  intro loaded again
  have fits : patchProgram.length ≤ Memory.standard.capacity := by decide +kernel
  have area : Memory.programStart ≤ Memory.standard.size := by decide +kernel
  obtain ⟨stands, registers⟩ := stands_of_load fits
  have ended : again.machine = loaded.afterStep.afterStep.reset := by
    change serveOne _ _ = _
    rw [serveOne_reset, serveAll_cons, serveAll_cons, serveAll_nil, serveOne_step, serveOne_step]
  have patched : again.machine.memory.byteAt 0x200 = 0 ∧
      again.machine.memory.byteAt 0x201 = 0 := by
    rw [ended, reset_memory]
    exact stands.memory_of_patchProgram registers
  have first : loaded.memory.byteAt 0x200 = 0xA2 := by
    rw [stands.memory]
    exact @Memory.byteAt_install _ patchProgram area 0 (by decide)
  refine ⟨fun same => ?_, stands.finds rfl (by decide) rfl, fun finds => ?_⟩
  · rw [same, first] at patched
    exact absurd patched.1 (by decide)
  · have pc : again.machine.registers.pc = 0x200 := by
      rw [ended, reset_eq, adjustBeeper_eq]
      rfl
    have fetched := finds.1
    rw [fetch_result] at fetched
    split at fetched
    · cases fetched
    · rw [pc] at fetched
      change Except.ok (Word.ofBytes (again.machine.memory.byteAt 0x200)
        (again.machine.memory.byteAt 0x201)) = _ at fetched
      rw [patched.1, patched.2] at fetched
      exact absurd (Except.ok.inj fetched) (by decide)

end Machine

end Chip8
