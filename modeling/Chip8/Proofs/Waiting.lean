import Chip8.Proofs.Deeds
import Chip8.Proofs.Finding

/-!
# Waiting for a key

An instruction that asks for a key is attempted again and again until a key is down. Waiting
is no state of its own: the machine stays where it is, keeps the instruction as the one it
attempted last, and all that passes meanwhile is time, which the timers count.

Two things have to hold for this to go on through a history of attempts and ticks. The
instruction is still there and no key is down, which no idle request changes; and whatever
has fallen so far falls on from there. When keys were pressed and released again, only those
that are still down count, and the lowest of them is the answer.
-/

namespace Chip8

namespace Keypad

variable {keypad : Keypad} {key : Fin 16}

/-- No key is the lowest one exactly if none is down. -/
theorem firstPressed_eq_none :
    keypad.firstPressed? = none ↔ ∀ key, keypad.isPressed key = false := by
  rw [firstPressed?, List.find?_eq_none]
  constructor
  · intro released key
    exact Bool.eq_false_iff.mpr (released key (List.mem_finRange key))
  · intro released key _
    exact Bool.eq_false_iff.mp (released key)

/-- The lowest key is down, and none below it is. -/
theorem firstPressed_eq_some :
    keypad.firstPressed? = some key ↔
      keypad.isPressed key = true ∧ ∀ lower < key, keypad.isPressed lower = false := by
  rw [firstPressed?, List.find?_eq_some_iff_getElem]
  apply and_congr_right
  intro _
  constructor
  · rintro ⟨place, bound, found, before⟩ lower below
    have numbered : key.val = place := by
      rw [← found, List.getElem_finRange]
      rfl
    have earlier : lower.val < place := numbered ▸ below
    simpa using before lower.val earlier
  · intro before
    refine ⟨key.val, by simp, by simp, ?_⟩
    intro place below
    simpa using before ⟨place, by omega⟩ below

/-- At first every key is up. -/
theorem released_isPressed (key : Fin 16) : released.isPressed key = false :=
  Vector.getElem_replicate key.isLt

/-- To release a key that is not down changes nothing. -/
theorem set_released (up : keypad.isPressed key = false) : keypad.set key false = keypad := by
  obtain ⟨keys⟩ := keypad
  change Keypad.mk (keys.set key false) = _
  have same : keys.set key keys[key] = keys := Vector.set_getElem_self key.isLt
  rw [← show keys[key] = false from up, same]

end Keypad

namespace Request

/-- What may be asked of a machine while no key is pressed: to attempt the next instruction,
to let the timers tick, and to release keys. -/
def isIdle : Request → Bool
  | .step | .tick => true
  | .setKey _ pressed => !pressed
  | _ => false

/-- To press and release keys, and to let the timers tick meanwhile. -/
def isTyping : Request → Bool
  | .setKey _ _ | .tick => true
  | _ => false

end Request

namespace Machine

variable {machine next waiting : Machine} {word : Word} {ticks : Nat}

/-- The instruction at the program counter can be fetched, and asks for a key. -/
structure AsksForKey (machine : Machine) (word : Word) : Prop where
  fetched : machine.fetch.result = .ok word
  accepted : Operation.awaitKey.pattern.accepts word = true

/-- What stays, and what falls, while a machine waits: the timers and with them the beeper
go on, and the instruction is kept as the one attempted last. -/
structure Rests (machine waiting : Machine) (ticks : Nat) : Prop where
  still : waiting =
    { machine with
      timers := waiting.timers
      beeper := waiting.beeper
      last := waiting.last }
  delay : waiting.timers.delay.toNat = machine.timers.delay.toNat - ticks
  sound : waiting.timers.sound.toNat = machine.timers.sound.toNat - ticks

/-- The instruction is complete with the lowest key that is down. -/
structure Answered (asking : Machine) (word : Word) (next : Machine) : Prop where
  /-- Register X holds that key. -/
  lowest : ∃ key : Fin 16, next.registers.get word.x = UInt8.ofNat key.val ∧
    asking.keypad.isPressed key = true ∧ ∀ lower < key, asking.keypad.isPressed lower = false
  others : ∀ register ≠ word.x, next.registers.get register = asking.registers.get register
  pc : next.registers.pc = asking.registers.pc + 2
  still : next =
    { asking with
      registers :=
        { asking.registers with v := next.registers.v, pc := next.registers.pc }
      executed := asking.executed + 1
      last := some ⟨.awaitKey, word⟩ }

/-- The instruction means what its pattern says, in either set. -/
theorem AsksForKey.finds (asks : machine.AsksForKey word) : machine.Finds word .awaitKey :=
  ⟨asks.fetched, Operation.ofWord_of_accepts asks.accepted (by decide) nofun⟩

/-- Whether the instruction is still there depends on registers and memory. -/
theorem AsksForKey.of_same (asks : machine.AsksForKey word)
    (registers : next.registers = machine.registers) (memory : next.memory = machine.memory) :
    next.AsksForKey word := by
  refine ⟨?_, asks.accepted⟩
  rw [fetch_result, registers, memory, ← fetch_result]
  exact asks.fetched

/-- As long as no key is down, an attempt waits and keeps the instruction. -/
theorem AsksForKey.step_waits (asks : machine.AsksForKey word)
    (released : ∀ key, machine.keypad.isPressed key = false) :
    machine.step.result = .ok (.waiting, { machine with last := some ⟨.awaitKey, word⟩ }) :=
  step_waits_iff.mpr
    ⟨word, asks.fetched, asks.finds.2, Keypad.firstPressed_eq_none.mpr released, rfl⟩

/-- As soon as one is down, the attempt is complete. -/
theorem AsksForKey.step_answered (asks : machine.AsksForKey word)
    (pressed : ∃ key, machine.keypad.isPressed key = true) :
    ∃ next, machine.step.result = .ok (.executed, next) ∧ machine.Answered word next := by
  cases first : machine.keypad.firstPressed? with
  | none =>
    obtain ⟨key, down⟩ := pressed
    rw [Keypad.firstPressed_eq_none.mp first key] at down
    cases down
  | some key =>
    let registers := (machine.registers.set word.x (UInt8.ofNat key.val)).advance
    have carried : (machine.carryOut word .awaitKey).result =
        .ok (.executed, { machine with registers }) := by
      simp only [carryOut, first]
      rfl
    refine ⟨_, asks.finds.step carried, ?_⟩
    constructor
    case lowest =>
      exact ⟨key, Registers.get_set machine.registers _ _, Keypad.firstPressed_eq_some.mp first⟩
    case others =>
      intro register apart
      exact Registers.get_set_of_ne machine.registers (Ne.symm apart) _
    case pc => rfl
    case still => rfl

/-- A machine rests by doing nothing. -/
theorem Rests.refl (machine : Machine) : machine.Rests machine 0 := ⟨rfl, rfl, rfl⟩

/-- It rests on, and the ticks add up. -/
theorem Rests.trans {further : Machine} {more : Nat} (first : machine.Rests waiting ticks)
    (second : waiting.Rests further more) : machine.Rests further (ticks + more) := by
  constructor
  case still =>
    rw [second.still, first.still]
  case delay =>
    rw [second.delay, first.delay, Nat.sub_sub]
  case sound =>
    rw [second.sound, first.sound, Nat.sub_sub]

/-- A tick lets both timers fall, whether or not the beeper can be adjusted. -/
theorem rests_tick (machine : Machine) : machine.Rests machine.tick 1 := by
  rw [Machine.tick, adjustBeeper_eq]
  exact ⟨rfl, Timer.tick_toNat _, Timer.tick_toNat _⟩

/-- A request to a key that is not pressed leaves the machine alone. -/
theorem serveOne_release (released : ∀ key, machine.keypad.isPressed key = false) (number : Int) :
    machine.serveOne (.setKey number false) = machine := by
  rw [serveOne_setKey]
  unfold Keypad.setNumbered
  split
  case h_1 keypad set =>
    split at set
    · cases set
      rw [Keypad.set_released (released _)]
    · cases set
  case h_2 => rfl

/-- While no key is down, a machine that asks for one rests through every idle request. -/
theorem AsksForKey.rests_serveOne (asks : machine.AsksForKey word)
    (released : ∀ key, machine.keypad.isPressed key = false) {request : Request}
    (idle : request.isIdle = true) :
    machine.Rests (machine.serveOne request) ([request].count .tick) := by
  cases request
  case step =>
    rw [serveOne_step, afterStep_of_ok (asks.step_waits released)]
    exact ⟨rfl, rfl, rfl⟩
  case tick =>
    rw [serveOne_tick]
    exact rests_tick machine
  case setKey number pressed =>
    cases pressed
    case false =>
      rw [serveOne_release released]
      exact .refl machine
    case true => cases idle
  all_goals cases idle

/-- So it does through a history of idle requests. -/
theorem AsksForKey.rests_serveAll (asks : machine.AsksForKey word)
    (released : ∀ key, machine.keypad.isPressed key = false) {idle : List Request}
    (idles : ∀ request ∈ idle, request.isIdle = true) :
    machine.Rests (machine.serveAll idle) (idle.count .tick) := by
  induction idle generalizing machine with
  | nil => exact .refl machine
  | cons request rest inductionHypothesis =>
    obtain ⟨here, later⟩ := List.forall_mem_cons.mp idles
    have first := asks.rests_serveOne released here
    have counted : ([request] ++ rest).count .tick = [request].count .tick + rest.count .tick :=
      List.count_append
    change machine.Rests _ (([request] ++ rest).count .tick)
    rw [serveAll_cons, counted]
    apply first.trans
    apply inductionHypothesis _ _ later
    · apply asks.of_same
      all_goals rw [first.still]
    · rw [first.still]
      exact released

/-- Keys and ticks leave registers and memory alone. -/
theorem serveAll_typing (machine : Machine) {keys : List Request}
    (types : ∀ request ∈ keys, request.isTyping = true) :
    (machine.serveAll keys).registers = machine.registers ∧
      (machine.serveAll keys).memory = machine.memory := by
  refine serveAll_keeps
    (fun next => next.registers = machine.registers ∧ next.memory = machine.memory)
    (fun request member next kept => ?_) ⟨rfl, rfl⟩
  have typed := types request member
  cases request
  case tick =>
    rw [serveOne_tick, (rests_tick next).still]
    exact kept
  case setKey number pressed =>
    rw [serveOne_setKey]
    split <;> exact kept
  all_goals cases typed

/-- Where the machine asks for a key and none is down, every attempt waits, however many
attempts and ticks went before, and changes nothing but the instruction attempted last; only
the timers have fallen. Once keys are down, the next attempt is complete. -/
structure WaitsFrom (machine : Machine) (word : Word) (idle : List Request) : Prop where
  rests : machine.Rests (machine.serveAll idle) (idle.count .tick)
  waits : ((machine.serveAll idle).serve .step).result = .ok (.progress .waiting)
  still : (machine.serveAll idle).serveOne .step =
    { machine.serveAll idle with last := some ⟨.awaitKey, word⟩ }
  /-- The keys that the host has left down decide. -/
  answers : ∀ keys, (∀ request ∈ keys, request.isTyping = true) →
    (∃ key, ((machine.serveAll idle).serveAll keys).keypad.isPressed key = true) →
      (((machine.serveAll idle).serveAll keys).serve .step).result =
          .ok (.progress .executed) ∧
        ((machine.serveAll idle).serveAll keys).Answered word
          (((machine.serveAll idle).serveAll keys).serveOne .step)

/-- A machine that asks for a key waits for one. -/
theorem AsksForKey.waitsFrom (asks : machine.AsksForKey word)
    (released : ∀ key, machine.keypad.isPressed key = false) {idle : List Request}
    (idles : ∀ request ∈ idle, request.isIdle = true) : machine.WaitsFrom word idle := by
  have rests := asks.rests_serveAll released idles
  have asksOn : (machine.serveAll idle).AsksForKey word := by
    apply asks.of_same
    all_goals rw [rests.still]
  have releasedOn : ∀ key, (machine.serveAll idle).keypad.isPressed key = false := by
    rw [rests.still]
    exact released
  have stepped := asksOn.step_waits releasedOn
  constructor
  case rests => exact rests
  case waits => rw [serve, Reply.ofStep, stepped]
  case still => rw [serveOne_step, afterStep_of_ok stepped]
  case answers =>
    intro keys types pressed
    obtain ⟨registers, memory⟩ := serveAll_typing (machine.serveAll idle) types
    obtain ⟨next, complete, answered⟩ := (asksOn.of_same registers memory).step_answered pressed
    rw [serveOne_step, afterStep_of_ok complete, serve, Reply.ofStep, complete]
    exact ⟨rfl, answered⟩

/-- A program that asks for a key at once. -/
def awaitProgram : List UInt8 := [0xF3, 0x0A]

theorem waitsFrom_of_awaitProgram :
    let machine := (ofRate 700 .chip8 0 .mute).serveOne (.load awaitProgram none)
    machine.AsksForKey 0xF30A ∧ (∀ key, machine.keypad.isPressed key = false) ∧
      machine.WaitsFrom 0xF30A [.step, .tick, .setKey 7 false, .step] := by
  intro machine
  have fits : awaitProgram.length ≤ (ofRate 700 .chip8 0 .mute).memory.capacity := by
    decide +kernel
  obtain ⟨stands, _⟩ := stands_of_load fits
  obtain ⟨beeper, loaded⟩ := serveOne_load_eq fits none
  have finds : machine.Finds 0xF30A .awaitKey := stands.finds rfl (by decide) rfl
  have asks : machine.AsksForKey 0xF30A := ⟨finds.1, rfl⟩
  have released : ∀ key, machine.keypad.isPressed key = false := by
    change ∀ key, (serveOne _ _).keypad.isPressed key = false
    rw [loaded]
    exact Keypad.released_isPressed
  exact ⟨asks, released, asks.waitsFrom released (by decide)⟩

end Machine

end Chip8
