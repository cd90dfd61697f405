import Chip8.Proofs.Footprint

/-!
# Aside from the program

Only a step looks at the dialect and at what is in memory. Everything else goes on aside from
them: timers, beeper, clock, keys and status. A machine that is fitted with another dialect or
another memory ticks and sounds as before, and serves the requests that neither make a step nor
load a program as before; in the end it has what it was fitted with.

From this it follows that such requests leave dialect and memory alone. They report no access.
-/

namespace Chip8

/-- Requests that are served without a step, and load nothing. -/
def Request.isAside : Request → Bool
  | .load .. | .loadFile .. | .step | .runFrame | .emulate _ => false
  | _ => true

namespace Machine

/-- The machine with a dialect and a memory that are made of its own. -/
def refit (machine : Machine) (dialect : Dialect → Dialect) (memory : Memory → Memory) :
    Machine :=
  { machine with dialect := dialect machine.dialect, memory := memory machine.memory }

end Machine

/-- The reply of the machine that is fitted so. -/
def Reply.refit (reply : Reply) (dialect : Dialect → Dialect) (memory : Memory → Memory) :
    Reply :=
  { reply with machine := reply.machine.refit dialect memory }

namespace Machine

variable {dialect : Dialect → Dialect} {memory : Memory → Memory} {request : Request}

/-- The beeper is adjusted whatever the machine is fitted with. -/
theorem adjustBeeper_refit (machine : Machine) :
    (machine.refit dialect memory).adjustBeeper = machine.adjustBeeper.refit dialect memory := by
  cases seconds : machine.clock.seconds with
  | ok now =>
    simp only [adjustBeeper, refit, seconds]
    rfl
  | error misuse => simp only [adjustBeeper, refit, seconds]

/-- A step ends alike whatever the machine is fitted with. -/
theorem conclude_refit (machine : Machine) (instruction : Instruction) (progress : Progress) :
    (machine.refit dialect memory).conclude instruction progress =
      ((machine.conclude instruction progress).1,
        (machine.conclude instruction progress).2.refit dialect memory) := by
  have noted : (machine.refit dialect memory).note instruction progress =
      (machine.note instruction progress).refit dialect memory := by
    cases progress <;> rfl
  unfold conclude
  rw [noted]
  split
  · simp only [settle, adjustBeeper_refit]
    rfl
  · rfl

theorem tick_refit (machine : Machine) :
    (machine.refit dialect memory).tick = machine.tick.refit dialect memory :=
  adjustBeeper_refit { machine with timers := machine.timers.tick }

theorem reset_refit (machine : Machine) :
    (machine.refit dialect memory).reset = machine.reset.refit dialect memory :=
  adjustBeeper_refit machine.restarted

/-- Whether the time is lost does not depend on what the machine is fitted with. -/
theorem adjusted_refit (machine : Machine) :
    Reply.adjusted (machine.refit dialect memory) =
      (Reply.adjusted machine).refit dialect memory := by
  have lost : (machine.refit dialect memory).lostTime? = machine.lostTime? := rfl
  unfold Reply.adjusted
  rw [lost]
  cases machine.lostTime? <;> rfl

theorem adjusting_refit (machine : Machine) :
    Reply.adjusted (machine.refit dialect memory).adjustBeeper =
      (Reply.adjusted machine.adjustBeeper).refit dialect memory := by
  rw [adjustBeeper_refit, adjusted_refit]

/-- A request that is served aside is served whatever the machine is fitted with. -/
theorem serve_refit (machine : Machine) (aside : request.isAside = true) :
    (machine.refit dialect memory).serve request =
      (machine.serve request).refit dialect memory := by
  cases request
  case load | loadFile | step | runFrame | emulate => cases aside
  case reset =>
    simp only [serve, reset_refit]
    exact adjusted_refit machine.reset
  case powerOn =>
    simp only [serve, powerOn, reset_refit]
    exact adjusted_refit { machine.reset with status := .running }
  case powerOff | skip | clearDelay => rfl
  case pause => exact adjusting_refit { machine with status := machine.status.pause }
  case resume => exact adjusting_refit { machine with status := machine.status.resume }
  case setStatus code =>
    simp only [serve, setStatus?]
    cases RunStatus.ofCode? code with
    | ok status => exact adjusting_refit { machine with status }
    | error misuse => rfl
  case setRate rate =>
    simp only [serve, setRate?, refit]
    cases machine.clock.setRate? rate <;> rfl
  case tick => exact adjusting_refit { machine with timers := machine.timers.tick }
  case setKey key pressed =>
    simp only [serve, setKey, refit]
    cases machine.keypad.setNumbered key pressed <;> rfl
  case clearSound =>
    exact adjusting_refit { machine with timers := { machine.timers with sound := 0 } }

/-- It leaves the memory alone: a machine that is fitted with its own memory for good has it in
the end. -/
theorem memory_of_aside (machine : Machine) (aside : request.isAside = true) :
    (machine.serveOne request).memory = machine.memory :=
  congrArg (·.machine.memory) (@serve_refit id (fun _ => machine.memory) request machine aside)

/-- It reports nothing. -/
theorem accesses_of_aside (machine : Machine) (aside : request.isAside = true) :
    (machine.serve request).accesses = #[] := by
  have adjusted (next : Machine) : (Reply.adjusted next).accesses = #[] := by
    unfold Reply.adjusted
    split <;> rfl
  have changed {ε : Type} (cause : ε → Reply.Refusal) (change : Except ε Machine) :
      (Reply.ofChange machine cause change).accesses = #[] := by
    cases change <;> rfl
  cases request
  case load | loadFile | step | runFrame | emulate => cases aside
  case powerOff | skip | clearDelay => rfl
  case setRate | setKey => exact changed _ _
  case setStatus code =>
    simp only [serve]
    split
    · exact adjusted _
    · rfl
  all_goals exact adjusted _

end Machine

/-- A tick of a run leaves the memory alone. -/
theorem Run.tick_memory (run : Run) : run.tick.machine.memory = run.machine.memory := by
  rw [machine_tick]
  split
  · rfl
  · rw [← Machine.serveOne_tick]
    exact Machine.memory_of_aside run.machine rfl

end Chip8
