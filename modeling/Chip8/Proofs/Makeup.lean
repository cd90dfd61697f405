import Chip8.Proofs.Grid
import Chip8.Proofs.Schedule
import Chip8.Proofs.Storage

/-!
# What no request changes

Whether the accesses of its memory are reported, and in which colours its screen is
shown, is settled when a machine is built. Instructions write bytes and flip pixels,
requests install programs and resize the screen, and all of them leave these two as they
are, however a history goes.
-/

namespace Chip8

/-- A byte that is written does not change whether accesses are reported. -/
theorem Memory.writeBytes_traced {memory next : Memory} {address : Int} {values : List UInt8}
    (written : (memory.writeBytes address values).result = .ok next) :
    next.traced = memory.traced := by
  induction values generalizing memory address with
  | nil =>
    cases written
    rfl
  | cons value rest inductionHypothesis =>
    obtain ⟨first, head, tail⟩ := Traced.result_bind_eq_ok.mp written
    have kept : first.traced = memory.traced := by
      rw [(writeByte_eq_ok.mp head).2]
    exact (inductionHypothesis tail).trans kept

theorem Memory.writeBlock_traced {memory next : Memory} {address : Int} {values : List UInt8}
    (written : (memory.writeBlock address values).result = .ok next) :
    next.traced = memory.traced :=
  writeBytes_traced (writeBytes_of_writeBlock written)

/-- Pixels are flipped in the colours of the screen. -/
theorem Screen.strikes_colors (landings : List (Nat × Nat)) (screen : Screen) (collided : Bool) :
    let struck := (landings.foldl strike (screen, collided)).1
    struck.colorOn = screen.colorOn ∧ struck.colorOff = screen.colorOff := by
  induction landings generalizing screen collided with
  | nil => exact ⟨rfl, rfl⟩
  | cons landing rest inductionHypothesis =>
    exact inductionHypothesis (screen.flip landing.1 landing.2)
      (collided || screen.lit landing.1 landing.2)

/-- The colours stay when the screen is resized. -/
theorem Screen.setExtended_colors (screen : Screen) (on : Bool) :
    (screen.setExtended on).colorOn = screen.colorOn ∧
      (screen.setExtended on).colorOff = screen.colorOff := by
  cases on <;> exact ⟨rfl, rfl⟩

namespace Machine

/-- What is settled when a machine is built. -/
structure Makeup where
  traced : Bool
  colorOn : Int
  colorOff : Int

def makeup (machine : Machine) : Makeup :=
  ⟨machine.memory.traced, machine.screen.colorOn, machine.screen.colorOff⟩

variable {machine next : Machine} {word : Word} {operation : Operation}

/-- An operation does not change the makeup. -/
theorem Footprint.makeup (left : Footprint machine word operation next) :
    next.makeup = machine.makeup := by
  have traced : next.memory.traced = machine.memory.traced := by
    have memory := left.memory
    cases operation
    case storeDecimal | store => exact Memory.writeBlock_traced memory
    all_goals rw [memory]
  have colors : next.screen.colorOn = machine.screen.colorOn ∧
      next.screen.colorOff = machine.screen.colorOff := by
    have screen := left.screen
    cases operation
    case clear =>
      rw [screen]
      exact ⟨rfl, rfl⟩
    case lowResolution | highResolution =>
      rw [screen]
      exact Screen.setExtended_colors _ _
    case draw =>
      obtain ⟨sprite, _, drawn⟩ := screen
      rw [drawn]
      exact Screen.strikes_colors _ _ _
    all_goals
      rw [screen]
      exact ⟨rfl, rfl⟩
  rw [Machine.makeup, traced, colors.1, colors.2]
  rfl

theorem adjustBeeper_makeup (machine : Machine) :
    machine.adjustBeeper.makeup = machine.makeup := by
  rw [adjustBeeper_eq]
  rfl

/-- Nor does a step, be it complete or not. -/
theorem afterStep_makeup (machine : Machine) : machine.afterStep.makeup = machine.makeup := by
  rcases afterStep_cases machine with failed |
    ⟨word, operation, after, executed, last, _, _, left, ⟨_, ended⟩ | ⟨_, ended⟩⟩
  · rw [failed]
  · rw [ended]
    exact left.makeup
  · rw [ended, adjustBeeper_makeup]
    exact left.makeup

theorem tick_makeup (machine : Machine) : machine.tick.makeup = machine.makeup :=
  adjustBeeper_makeup { machine with timers := machine.timers.tick }

/-- A run keeps the makeup of its machine. -/
theorem follow_makeup (run : Run) (moves : List Move) :
    (run.follow moves).machine.makeup = run.machine.makeup :=
  Run.follow_keeps (·.makeup = run.machine.makeup)
    (fun machine kept => (afterStep_makeup machine).trans kept)
    (fun machine kept => (tick_makeup machine).trans kept) rfl moves

/-- A program that is started finds the screen in its colours. -/
theorem start_makeup (machine : Machine) (image : List UInt8) (dialect : Option Dialect) :
    (machine.start (machine.memory.install image) dialect).makeup = machine.makeup := by
  obtain ⟨beeper, started⟩ := start_eq machine (machine.memory.install image) dialect
  rw [started]
  rfl

/-- No request changes the makeup. -/
theorem serveOne_makeup (machine : Machine) (request : Request) :
    (machine.serveOne request).makeup = machine.makeup := by
  cases request
  case load image dialect =>
    rw [serveOne_load]
    split
    · rfl
    · exact start_makeup ..
  case loadFile disk path dialect =>
    rw [serveOne_loadFile]
    split
    case h_1 rom _ => exact start_makeup machine rom.image dialect
    case h_2 => rfl
  case reset =>
    rw [serveOne_reset]
    exact adjustBeeper_makeup machine.restarted
  case powerOn =>
    rw [serveOne_powerOn]
    exact adjustBeeper_makeup machine.restarted
  case powerOff => rfl
  case pause =>
    rw [serveOne_pause]
    exact adjustBeeper_makeup _
  case resume =>
    rw [serveOne_resume]
    exact adjustBeeper_makeup _
  case setStatus code =>
    rw [serveOne_setStatus]
    split
    · exact adjustBeeper_makeup _
    · rfl
  case setRate rate =>
    rw [serveOne_setRate]
    split <;> rfl
  case step => exact serveOne_step machine ▸ afterStep_makeup machine
  case skip => rfl
  case tick => exact serveOne_tick machine ▸ tick_makeup machine
  case runFrame =>
    rw [runFrame_eq_follow]
    exact follow_makeup _ _
  case emulate duration =>
    rw [emulate_eq_follow, follow_makeup]
    change (machine.outset _).makeup = _
    rw [outset_eq]
    rfl
  case setKey key pressed =>
    rw [serveOne_setKey]
    split <;> rfl
  case clearDelay => rfl
  case clearSound =>
    rw [serveOne_clearSound]
    exact adjustBeeper_makeup _

/-- No history does. -/
theorem serveAll_makeup (machine : Machine) (requests : List Request) :
    (machine.serveAll requests).makeup = machine.makeup :=
  serveAll_keeps (·.makeup = machine.makeup)
    (fun request _ next kept => (serveOne_makeup next request).trans kept) rfl

end Machine

end Chip8
