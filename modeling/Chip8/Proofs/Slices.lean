import Chip8.Proofs.Completion

/-!
# Slices of time

A slice of time is a number of steps and a number of ticks. The steps are spread over
the ticks by a running share: what is due by the end of a tick, less what has been made
before. The shares telescope, so that none is negative, and before the k-th of t ticks
exactly the floor of s * k / t of the s steps are made, whatever the two numbers are.

A running machine that lets time pass follows this schedule to its end or to the first
step that fails. Only one thing comes in between: a move that needs the time, where the
clock has gone so far that the time cannot be told.
-/

namespace Chip8

namespace Run

/-- For each tick of a list of moves, the steps made up to it, if some were made before. -/
def stepsAtTicks (made : Nat) : List Move → List Nat
  | [] => []
  | .step :: rest => stepsAtTicks (made + 1) rest
  | .tick :: rest => made :: stepsAtTicks made rest

/-- The shares of the remaining ticks, one after the other: what is due by the end of the
tick, less what has been made. -/
def sharesFrom (steps ticks : Int) : Nat → Int → List Int
  | 0, _ => []
  | left + 1, made =>
    let share := steps * (ticks - left) / ticks - made
    share :: sharesFrom steps ticks left (made + share)

/-- The shares of all ticks. -/
def shares (steps ticks : Int) : List Int := sharesFrom steps ticks ticks.toNat 0

/-- The steps of some shares together. -/
def total (shares : List Int) : Int := shares.foldr (· + ·) 0

theorem total_cons (share : Int) (shares : List Int) :
    total (share :: shares) = share + total shares := rfl

/-- The moves of a slice: each tick after its share, and the steps that are left over. -/
def schedule (steps ticks : Int) : List Move :=
  ((shares steps ticks).flatMap fun share => List.replicate share.toNat .step ++ [.tick]) ++
    List.replicate (steps - total (shares steps ticks)).toNat .step

/-- A number of steps is spread over a number of ticks: no share is negative, no step and
no tick is lost, and every tick comes when exactly the steps due before it are made. -/
structure Spreads (steps ticks : Int) (moves : List Move) : Prop where
  shares_nonneg : ∀ share ∈ shares steps ticks, 0 ≤ share
  count_step : (moves.count .step : Int) = steps
  count_tick : (moves.count .tick : Int) = ticks
  stepsAtTicks : (stepsAtTicks 0 moves).map Int.ofNat =
    (List.range ticks.toNat).map fun (tick : Nat) => steps * (tick + 1) / ticks

variable (steps ticks : Nat)

/-- What is due grows from tick to tick. -/
theorem due_le_due {earlier later : Nat} (ordered : earlier ≤ later) :
    due steps ticks earlier ≤ due steps ticks later :=
  Nat.div_le_div_right (Nat.mul_le_mul_left steps ordered)

/-- By the last tick all steps are due. -/
theorem due_all (some : 0 < ticks) : due steps ticks ticks = steps :=
  Nat.mul_div_cancel steps some

/-- Shares computed from what is due at a tick telescope to what is due at the last one. -/
theorem sharesFrom_telescope {left : Nat} (within : left ≤ ticks) :
    let shares := sharesFrom steps ticks left (due steps ticks (ticks - left))
    (∀ share ∈ shares, 0 ≤ share) ∧
      (shares.flatMap fun share => List.replicate share.toNat Move.step ++ [.tick]) =
        shareMoves steps ticks left ∧
      total shares + due steps ticks (ticks - left) = due steps ticks ticks := by
  induction left with
  | zero => simp [sharesFrom, shareMoves, total]
  | succ left inductionHypothesis =>
    obtain ⟨positive, moves, sum⟩ := inductionHypothesis (Nat.le_of_succ_le within)
    have next : ticks - left = ticks - (left + 1) + 1 := by omega
    have computed : (steps : Int) * (ticks - left) / ticks = due steps ticks (ticks - left) := by
      rw [due, Int.natCast_ediv, Int.natCast_mul, Int.ofNat_sub (Nat.le_of_succ_le within)]
    have grows := due_le_due steps ticks (show ticks - (left + 1) ≤ ticks - left by omega)
    have made : (due steps ticks (ticks - (left + 1)) : Int) +
        (due steps ticks (ticks - left) - due steps ticks (ticks - (left + 1))) =
          due steps ticks (ticks - left) := by omega
    simp only [sharesFrom, computed, made]
    refine ⟨?_, ?_, ?_⟩
    · intro share member
      rcases List.mem_cons.mp member with rfl | later
      · omega
      · exact positive share later
    · have share : ((due steps ticks (ticks - left) : Int) -
          due steps ticks (ticks - (left + 1))).toNat =
            due steps ticks (ticks - left) - due steps ticks (ticks - (left + 1)) := by omega
      rw [List.flatMap_cons, moves, share, shareMoves, List.append_assoc, ← next]
      rfl
    · rw [total_cons]
      omega

/-- The schedule as it is computed has the moves of the slice. -/
theorem schedule_eq_sliceMoves :
    (∀ share ∈ shares steps ticks, 0 ≤ share) ∧ schedule steps ticks = sliceMoves steps ticks := by
  rcases Nat.eq_zero_or_pos ticks with rfl | some
  · simp [schedule, shares, sharesFrom, sliceMoves, total]
  · have start : due steps ticks (ticks - ticks) = 0 := by simp [due]
    obtain ⟨positive, moves, sum⟩ := sharesFrom_telescope steps ticks (Nat.le_refl ticks)
    rw [start, due_all steps ticks some, Int.natCast_zero, Int.add_zero] at sum
    rw [start] at positive moves
    have none_left : ((steps : Int) - total (shares steps ticks)).toNat = 0 := by
      simp only [shares, Int.toNat_natCast]
      omega
    refine ⟨positive, ?_⟩
    rw [schedule, none_left, sliceMoves, if_neg (Nat.ne_of_gt some), ← moves]
    exact List.append_nil _

/-- Steps add to those made before. -/
theorem stepsAtTicks_steps (made count : Nat) (rest : List Move) :
    stepsAtTicks made (List.replicate count .step ++ rest) = stepsAtTicks (made + count) rest := by
  induction count generalizing made with
  | zero => rfl
  | succ count inductionHypothesis =>
    rw [List.replicate_succ, List.cons_append, stepsAtTicks, inductionHypothesis, Nat.add_assoc,
      Nat.add_comm 1]

/-- The remaining ticks come when the steps due before them are made. -/
theorem stepsAtTicks_shareMoves {left : Nat} (within : left ≤ ticks) :
    stepsAtTicks (due steps ticks (ticks - left)) (shareMoves steps ticks left) =
      (List.range left).map fun tick => due steps ticks (ticks - left + tick + 1) := by
  induction left with
  | zero => rfl
  | succ left inductionHypothesis =>
    have next : ticks - (left + 1) + 1 = ticks - left := by omega
    have grows := due_le_due steps ticks (show ticks - (left + 1) ≤ ticks - left by omega)
    have made : due steps ticks (ticks - (left + 1)) +
        (due steps ticks (ticks - left) - due steps ticks (ticks - (left + 1))) =
          due steps ticks (ticks - left) := by omega
    rw [shareMoves, stepsAtTicks_steps, stepsAtTicks, next, made,
      inductionHypothesis (Nat.le_of_succ_le within), List.range_succ_eq_map, List.map_cons,
      List.map_map, ← next]
    congr 1
    apply List.map_congr_left
    intro tick _
    simp only [Function.comp]
    congr 1
    omega

/-- The remaining ticks have the steps that are not due before them. -/
theorem count_shareMoves {left : Nat} (within : left ≤ ticks) :
    (shareMoves steps ticks left).count .step + due steps ticks (ticks - left) =
        due steps ticks ticks ∧
      (shareMoves steps ticks left).count .tick = left := by
  induction left with
  | zero => simp [shareMoves]
  | succ left inductionHypothesis =>
    obtain ⟨made, ticked⟩ := inductionHypothesis (Nat.le_of_succ_le within)
    have next : ticks - (left + 1) + 1 = ticks - left := by omega
    have grows := due_le_due steps ticks (show ticks - (left + 1) ≤ ticks - left by omega)
    simp only [shareMoves, next, List.count_append, List.count_replicate, List.count_cons, ticked]
    simp only [beq_self_eq_true, reduceCtorEq, beq_iff_eq, if_true, if_false]
    omega

/-- A slice spreads its steps over its ticks. -/
theorem spreads_schedule {steps ticks : Int} (someSteps : 0 ≤ steps) (someTicks : 0 ≤ ticks) :
    Spreads steps ticks (schedule steps ticks) := by
  obtain ⟨steps, rfl⟩ := Int.eq_ofNat_of_zero_le someSteps
  obtain ⟨ticks, rfl⟩ := Int.eq_ofNat_of_zero_le someTicks
  obtain ⟨positive, moves⟩ := schedule_eq_sliceMoves steps ticks
  rcases Nat.eq_zero_or_pos ticks with rfl | some
  · refine ⟨positive, ?_, ?_, ?_⟩
    · rw [moves]
      simp [sliceMoves]
    · rw [moves]
      simp [sliceMoves, List.count_replicate]
    · have none := stepsAtTicks_steps 0 steps []
      rw [List.append_nil] at none
      rw [moves, sliceMoves, if_pos rfl, none]
      rfl
  · have start : due steps ticks (ticks - ticks) = 0 := by simp [due]
    obtain ⟨made, ticked⟩ := count_shareMoves steps ticks (Nat.le_refl ticks)
    have whole : sliceMoves steps ticks = shareMoves steps ticks ticks :=
      if_neg (Nat.ne_of_gt some)
    rw [start, due_all steps ticks some] at made
    have due_ := stepsAtTicks_shareMoves steps ticks (Nat.le_refl ticks)
    rw [start] at due_
    refine ⟨positive, ?_, ?_, ?_⟩
    · rw [moves, whole]
      omega
    · rw [moves, whole, ticked]
    · rw [moves, whole, due_, List.map_map]
      apply List.map_congr_left
      intro tick _
      simp [due]

end Run

/-- What a clock of whole rates counts while it advances. -/
theorem FrameClock.advance_eq_ok {rate timerRate : Int} {elapsed : Nat} {duration : Number}
    {steps ticks : Int} {next : FrameClock}
    (advanced : (⟨.whole rate, .whole timerRate, elapsed⟩ : FrameClock).advance duration =
      .ok ((steps, ticks), next)) :
    ∃ passed, duration.toMicroseconds = .ok passed ∧
      next = ⟨.whole rate, .whole timerRate, elapsed + passed.toNat⟩ ∧
      steps = rate * next.elapsed / Number.microseconds - rate * elapsed / Number.microseconds ∧
      ticks = timerRate * next.elapsed / Number.microseconds -
        timerRate * elapsed / Number.microseconds := by
  unfold advance at advanced
  cases measured : duration.toMicroseconds with
  | error misuse =>
    rw [measured] at advanced
    cases advanced
  | ok passed =>
    rw [measured] at advanced
    change (if passed ≤ 0 then _ else _) = _ at advanced
    refine ⟨passed, rfl, ?_⟩
    split at advanced
    case isTrue still =>
      cases advanced
      simp [Int.toNat_eq_zero.mpr still]
    case isFalse =>
      cases advanced
      exact ⟨rfl, rfl, rfl⟩

/-- No step and no tick is taken back. -/
theorem FrameClock.advance_nonneg {rate timerRate : Int} (someRate : 0 < rate)
    (someTimerRate : 0 < timerRate) {elapsed : Nat} {duration : Number} {steps ticks : Int}
    {next : FrameClock}
    (advanced : (⟨.whole rate, .whole timerRate, elapsed⟩ : FrameClock).advance duration =
      .ok ((steps, ticks), next)) : 0 ≤ steps ∧ 0 ≤ ticks := by
  obtain ⟨passed, _, rfl, rfl, rfl⟩ := advance_eq_ok advanced
  have grows {some : Int} (positive : 0 < some) :
      some * elapsed / Number.microseconds ≤
        some * ((elapsed + passed.toNat : Nat) : Int) / Number.microseconds := by
    refine Int.ediv_le_ediv (by decide) (Int.mul_le_mul_of_nonneg_left ?_ (Int.le_of_lt positive))
    omega
  exact ⟨Int.sub_nonneg_of_le (grows someRate), Int.sub_nonneg_of_le (grows someTimerRate)⟩

/-- The number of steps is handed back by a run that nothing has stopped. -/
theorem Reply.ofRun_steps_iff {run : Run} {count : Int} :
    (Reply.ofRun run count).result = .ok (.steps count) ↔ run.stop = none := by
  cases stops : run.stop <;> simp [Reply.ofRun, stops]

/-- A fault is reported by a run that it has stopped. -/
theorem Reply.ofRun_fault_iff {run : Run} {count : Int} {fault : Fault} :
    (Reply.ofRun run count).result = .error (.stopped (.fault fault)) ↔
      run.stop = some (.fault fault) := by
  cases stops : run.stop <;> simp [Reply.ofRun, stops]

namespace Machine

variable {machine : Machine} {duration : Number} {steps ticks : Int} {clock : FrameClock}

/-- A running machine follows the moves of the slice that its clock finds, from the moment
when all the time has passed. -/
theorem emulate_of_advanced (running : machine.isRunning = true)
    (advanced : machine.clock.advance duration = .ok ((steps, ticks), clock)) :
    machine.emulate duration =
      ((Run.begin { machine with clock }).follow (Run.sliceMoves steps.toNat ticks.toNat),
        steps) := by
  simp only [emulate, running, advanced, if_true, Run.slice_eq_follow]

/-- To let time pass keeps to a list of moves when all of them are performed and the steps
are handed back, or all before a step that fails, and its fault is. All the time has
passed either way. -/
def KeepsTo (machine : Machine) (duration : Number) (clock : FrameClock) (moves : List Move)
    (steps : Int) : Prop :=
  let outset : Machine := { machine with clock }
  let reply := machine.serve (.emulate duration)
  reply.machine.clock = clock ∧
    ((outset.Performs moves reply.machine ∧ reply.result = .ok (.steps steps)) ∨
      ∃ before after fault, moves = before ++ .step :: after ∧
        outset.Performs before reply.machine ∧ reply.machine.step.result = .error fault ∧
          reply.result = .error (.stopped (.fault fault)))

/-- To let time pass keeps to the moves of the slice, unless it comes to a move that needs
the time and the time is lost. -/
theorem keepsTo_slice_iff (running : machine.isRunning = true)
    (advanced : machine.clock.advance duration = .ok ((steps, ticks), clock)) :
    let moves := Run.sliceMoves steps.toNat ticks.toNat
    machine.KeepsTo duration clock moves steps ↔
      ¬((∃ misuse, clock.seconds = .error misuse) ∧
        ({ machine with clock } : Machine).NeedsTime moves) := by
  intro moves
  let outset : Machine := { machine with clock }
  let run := (Run.begin outset).follow moves
  have served : machine.serve (.emulate duration) = .ofRun run steps := by
    simp only [serve, emulate_of_advanced running advanced, run, outset, moves]
  obtain ⟨performed, outcome⟩ := Run.follow_outcome (.begin outset) rfl moves
  change outset.Outcome moves performed run.stop run.machine at outcome
  have lost : (∃ misuse, run.stop = some (.number misuse)) ↔
      (∃ misuse, clock.seconds = .error misuse) ∧ outset.NeedsTime moves := by
    rw [← exists_and_right]
    apply exists_congr
    intro misuse
    exact (follow_stop_number_iff (.begin outset) rfl).trans
      (and_congr_left fun _ => lostTime_eq_some)
  rw [← lost, outcome.not_number_iff, KeepsTo, served]
  simp only [Reply.ofRun_steps_iff, Reply.ofRun_fault_iff]
  exact and_iff_right outcome.clock

/-- On clocks of whole positive rates, a running machine that lets time pass finds a number
of steps and of ticks, neither of them negative, with the steps spread over the ticks. It
keeps to that schedule exactly if it does not come to a move that needs the time, a tick
or the setting of the sound timer, at a time that cannot be told. -/
theorem keepsTo_schedule_iff (running : machine.isRunning = true) {rate timerRate : Int}
    (someRate : 0 < rate) (someTimerRate : 0 < timerRate)
    (rated : machine.clock.rate = .whole rate)
    (timed : machine.clock.timerRate = .whole timerRate)
    (advanced : machine.clock.advance duration = .ok ((steps, ticks), clock)) :
    Run.Spreads steps ticks (Run.schedule steps ticks) ∧
      (machine.KeepsTo duration clock (Run.schedule steps ticks) steps ↔
        ¬((∃ misuse, clock.seconds = .error misuse) ∧
          ({ machine with clock } : Machine).NeedsTime (Run.schedule steps ticks))) := by
  have clocked : machine.clock = ⟨.whole rate, .whole timerRate, machine.clock.elapsed⟩ := by
    rw [← rated, ← timed]
  obtain ⟨someSteps, someTicks⟩ :=
    FrameClock.advance_nonneg someRate someTimerRate (clocked ▸ advanced)
  refine ⟨Run.spreads_schedule someSteps someTicks, ?_⟩
  have moves : Run.schedule steps ticks = Run.sliceMoves steps.toNat ticks.toNat := by
    have natural := (Run.schedule_eq_sliceMoves steps.toNat ticks.toNat).2
    rwa [Int.toNat_of_nonneg someSteps, Int.toNat_of_nonneg someTicks] at natural
  rw [moves]
  exact keepsTo_slice_iff running advanced

/-- A program that jumps to itself. -/
def loopProgram : List UInt8 := [0x12, 0x00]

/-- A machine that runs it keeps to the schedule of its first second. -/
theorem keepsTo_schedule_of_loopProgram :
    let machine := (ofRate 700 .chip8 0 .mute).serveOne (.load loopProgram none)
    Run.Spreads 700 60 (Run.schedule 700 60) ∧
      machine.KeepsTo (.whole 1) ⟨.whole 700, .whole 60, 0 + 1 * Number.microseconds⟩
        (Run.schedule 700 60) 700 := by
  intro machine
  obtain ⟨running, clocked⟩ :
      machine.isRunning = true ∧ machine.clock = ⟨.whole 700, .whole 60, 0⟩ :=
    serveOne_load_running (by decide +kernel) none
  have advanced : machine.clock.advance (.whole 1) =
      .ok ((700, 60), ⟨.whole 700, .whole 60, 0 + 1 * Number.microseconds⟩) := by
    rw [clocked]
    exact FrameClock.advance_whole 700 60 0 Nat.one_pos
  obtain ⟨spreads, keeps⟩ := keepsTo_schedule_iff running (show (0 : Int) < 700 by decide)
    (show (0 : Int) < 60 by decide) (by rw [clocked]) (by rw [clocked]) advanced
  refine ⟨spreads, keeps.mpr ?_⟩
  rintro ⟨⟨misuse, lost⟩, _⟩
  have told : ({ ofRate 700 .chip8 0 .mute with
      clock := ⟨.whole 700, .whole 60, 0 + 1 * Number.microseconds⟩ } : Machine).lostTime? =
        none := by decide +kernel
  have impossible := told.symm.trans (lostTime_eq_some.mpr lost)
  cases impossible

/-- A machine of one instruction a second that runs it. -/
def slowMachine : Machine := (ofRate 1 .chip8 0 .mute).serveOne (.load loopProgram none)

/-- A slice with fewer steps than ticks begins with a tick. -/
theorem sliceMoves_eq_tick {steps ticks : Nat} (fewer : steps < ticks) :
    ∃ rest, Run.sliceMoves steps ticks = .tick :: rest := by
  obtain ⟨left, rfl⟩ := Nat.exists_eq_succ_of_ne_zero (Nat.ne_of_gt (Nat.zero_lt_of_lt fewer))
  have none : Run.due steps (left + 1) 1 = 0 := by
    rw [Run.due, Nat.mul_one]
    exact Nat.div_eq_of_lt fewer
  refine ⟨Run.shareMoves steps (left + 1) left, ?_⟩
  rw [Run.sliceMoves, if_neg (Nat.succ_ne_zero left), Run.shareMoves, Nat.sub_self, none]
  simp

/-- After so many seconds that the time is lost, the first tick stops the slow machine,
though the schedule has many more, and no step has failed. -/
theorem not_keepsTo_of_endless :
    Reachable slowMachine ∧ slowMachine.isRunning = true ∧
      slowMachine.clock = ⟨.whole 1, .whole 60, 0⟩ ∧
      ∃ clock, slowMachine.clock.advance (.whole endless) =
          .ok (((endless : Int), (60 * endless : Int)), clock) ∧
        ¬slowMachine.KeepsTo (.whole endless) clock
          (Run.schedule (endless : Int) (60 * endless : Int)) (endless : Int) := by
  obtain ⟨running, clocked⟩ :
      slowMachine.isRunning = true ∧ slowMachine.clock = ⟨.whole 1, .whole 60, 0⟩ :=
    serveOne_load_running (by decide +kernel) none
  have some : 0 < endless := by decide +kernel
  have lost : (⟨.whole 1, .whole 60, 0 + endless * Number.microseconds⟩ : FrameClock).seconds =
      .error .largeQuotient := seconds_of_late
  generalize endless = seconds at some lost ⊢
  have advanced : slowMachine.clock.advance (.whole seconds) =
      .ok (((seconds : Int), (60 * seconds : Int)),
        ⟨.whole 1, .whole 60, 0 + seconds * Number.microseconds⟩) := by
    rw [clocked, FrameClock.advance_whole 1 60 0 some, Int.one_mul]
  have moves : Run.schedule (seconds : Int) (60 * seconds : Int) =
      Run.sliceMoves seconds (60 * seconds) := by
    exact_mod_cast (Run.schedule_eq_sliceMoves seconds (60 * seconds)).2
  refine ⟨(Reachable.built (isBuilt_mute (by decide) .chip8 0)).serve _, running, clocked, _,
    advanced, fun keeps => ?_⟩
  rw [moves] at keeps
  obtain ⟨rest, begins⟩ := sliceMoves_eq_tick (show seconds < 60 * seconds by omega)
  have timely := (keepsTo_slice_iff running advanced).mp (by exact_mod_cast keeps)
  refine timely ⟨⟨_, lost⟩, ?_⟩
  have amount : (60 * seconds : Int).toNat = 60 * seconds := by omega
  rw [Int.toNat_natCast, amount, begins]
  exact .tick

end Machine

end Chip8
