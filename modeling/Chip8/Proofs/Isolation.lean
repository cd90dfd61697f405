import Chip8.Proofs.Aside
import Chip8.Proofs.Finding

/-!
# Isolation of dialect switches

Every switch of a dialect concerns a few words only. Two machines that differ in one
switch behave alike as long as the first of them attempts no step at one of these
words: the same replies, the same accesses, the same faults, and afterwards machines
that differ in the switch alone.

A machine with a switch put into a position is compared with the machine itself. That
the two move alike is shown for one operation, one step and one tick, and carried along
the moves of a request and the requests of a history.
-/

namespace Chip8

namespace Dialect

/-- The words that a switch concerns. -/
def Switch.patterns : Switch → List Pattern
  | shiftUsesVy =>
    [⟨.digit 0x8, .x, .y, .digit 0x6⟩, ⟨.digit 0x8, .x, .y, .digit 0xE⟩]
  | jumpWithOffsetUsesVx => [⟨.digit 0xB, .n, .n, .n⟩]
  | storeLoadIncrementsIndex =>
    [⟨.digit 0xF, .x, .digit 0x5, .digit 0x5⟩, ⟨.digit 0xF, .x, .digit 0x6, .digit 0x5⟩]
  | clipSpritesVertically => [⟨.digit 0xD, .x, .y, .n⟩]
  | clipSpritesHorizontally => [⟨.digit 0xD, .x, .y, .n⟩]
  | logicResetsVf =>
    [⟨.digit 0x8, .x, .y, .digit 0x1⟩, ⟨.digit 0x8, .x, .y, .digit 0x2⟩,
      ⟨.digit 0x8, .x, .y, .digit 0x3⟩]
  | extendedDisplay =>
    [⟨.digit 0x0, .digit 0x0, .digit 0xF, .digit 0xE⟩,
      ⟨.digit 0x0, .digit 0x0, .digit 0xF, .digit 0xF⟩, ⟨.digit 0xD, .x, .y, .digit 0x0⟩]

/-- Whether a switch concerns a word. -/
def Switch.concerns (switch : Switch) (word : Word) : Bool :=
  switch.patterns.any (·.accepts word)

/-- A switch that is put into a position leaves the others where they are. -/
theorem get_set_of_ne (dialect : Dialect) {switch other : Switch} (apart : switch ≠ other)
    (on : Bool) : (dialect.set switch on).get other = dialect.get other := by
  cases switch <;> cases other <;> first | rfl | exact absurd rfl apart

/-- A switch is not the one that is concerned when it does not concern the word. -/
theorem Switch.ne_of_accepts {switch other : Switch} {word : Word} {pattern : Pattern}
    (unconcerned : switch.concerns word = false) (among : pattern ∈ other.patterns)
    (accepted : pattern.accepts word = true) : switch ≠ other := by
  rintro rfl
  have concerned : switch.concerns word = true := List.any_eq_true.mpr ⟨pattern, among, accepted⟩
  rw [unconcerned] at concerned
  cases concerned

end Dialect

namespace Traced

variable {α β γ : Type}

/-- To change a result is to change it after the last part of the computation. -/
theorem map_bind (change : β → γ) (first : Traced α) (next : α → Traced β) :
    change <$> (first >>= next) = first >>= fun value => change <$> next value := by
  obtain ⟨accesses, result⟩ := first
  cases result with
  | error fault => rfl
  | ok value =>
    change Traced.bind (Traced.bind _ next) _ =
      Traced.bind _ fun value => Traced.bind (next value) _
    cases found : next value with
    | mk more outcome => cases outcome <;> simp [Traced.bind, found]

/-- Changing a result leaves the accesses. -/
theorem map_mk (change : α → β) (accesses : List Access) (result : Except Fault α) :
    change <$> (⟨accesses, result⟩ : Traced α) = ⟨accesses, result.map change⟩ := by
  cases result with
  | error fault => rfl
  | ok value => exact congrArg (Traced.mk · _) (List.append_nil accesses)

/-- What follows a changed result follows the result, changed. -/
theorem bind_map (change : α → β) (first : Traced α) (next : β → Traced γ) :
    (change <$> first) >>= next = first >>= fun value => next (change value) := by
  obtain ⟨accesses, result⟩ := first
  cases result with
  | error fault => rfl
  | ok value =>
    change Traced.mk ((accesses ++ []) ++ _) _ = Traced.mk (accesses ++ _) _
    rw [List.append_nil]

/-- Parts that agree on what was found make computations that agree. -/
theorem bind_congr (first : Traced α) {next other : α → Traced β}
    (agree : ∀ value, first.result = .ok value → next value = other value) :
    first >>= next = first >>= other := by
  obtain ⟨accesses, result⟩ := first
  cases result with
  | error fault => rfl
  | ok value =>
    change Traced.bind _ next = Traced.bind _ other
    simp only [Traced.bind, agree value rfl]

end Traced

namespace Machine

variable {machine : Machine} {switch : Dialect.Switch} {on : Bool} {word : Word}

/-- The machine with a switch of its dialect put into a position. -/
def withSwitch (machine : Machine) (switch : Dialect.Switch) (on : Bool) : Machine :=
  { machine with dialect := machine.dialect.set switch on }

/-- The end of a step, for the machine with the switch. -/
def endWithSwitch (switch : Dialect.Switch) (on : Bool) (ended : Progress × Machine) :
    Progress × Machine :=
  (ended.1, ended.2.withSwitch switch on)

/-- Only a sprite without height can be wide, so that the extended set does not matter
for any other. -/
theorem drawsWide_withSwitch (unconcerned : switch.concerns word = false)
    (accepted : Operation.draw.pattern.accepts word = true) :
    (machine.withSwitch switch on).drawsWide word.n = machine.drawsWide word.n := by
  by_cases flat : word.n = 0
  · have digits := (Operation.accepts_iff _ _).mp accepted
    have accepts : Pattern.accepts ⟨.digit 0xD, .x, .y, .digit 0x0⟩ word = true :=
      (Operation.accepts_iff _ _).mpr ⟨digits.1, rfl, rfl, by simp [Cell.accepts, flat]⟩
    have apart : switch ≠ .extendedDisplay :=
      Dialect.Switch.ne_of_accepts unconcerned (by decide) accepts
    have same : (machine.dialect.set switch on).extendedDisplay =
        machine.dialect.extendedDisplay :=
      Dialect.get_set_of_ne _ apart on
    simp only [drawsWide, withSwitch, same]
  · simp only [drawsWide, flat, decide_false, Bool.false_and]

/-- An operation does not notice a switch that does not concern its word. -/
theorem carryOut_withSwitch {operation : Operation} (unconcerned : switch.concerns word = false)
    (accepted : operation.pattern.accepts word = true) :
    (machine.withSwitch switch on).carryOut word operation =
      endWithSwitch switch on <$> machine.carryOut word operation := by
  have apart (other : Dialect.Switch) (among : operation.pattern ∈ other.patterns) :
      switch ≠ other := Dialect.Switch.ne_of_accepts unconcerned among accepted
  cases operation
  case ret | call | storeDecimal =>
    rw [carryOut, carryOut, Traced.map_bind]
    exact Traced.bind_congr _ fun _ _ => rfl
  case or | and | xor =>
    have same : (machine.dialect.set switch on).logicResetsVf = machine.dialect.logicResetsVf :=
      Dialect.get_set_of_ne _ (apart .logicResetsVf (by decide)) on
    simp only [carryOut, withSwitch, same]
    rfl
  case shiftRight | shiftLeft =>
    have same : (machine.dialect.set switch on).shiftUsesVy = machine.dialect.shiftUsesVy :=
      Dialect.get_set_of_ne _ (apart .shiftUsesVy (by decide)) on
    simp only [carryOut, withSwitch, same]
    rfl
  case jumpOffset =>
    have same : (machine.dialect.set switch on).jumpWithOffsetUsesVx =
        machine.dialect.jumpWithOffsetUsesVx :=
      Dialect.get_set_of_ne _ (apart .jumpWithOffsetUsesVx (by decide)) on
    simp only [carryOut, withSwitch, same]
    rfl
  case draw =>
    have vertically : (machine.dialect.set switch on).clipSpritesVertically =
        machine.dialect.clipSpritesVertically :=
      Dialect.get_set_of_ne _ (apart .clipSpritesVertically (by decide)) on
    have horizontally : (machine.dialect.set switch on).clipSpritesHorizontally =
        machine.dialect.clipSpritesHorizontally :=
      Dialect.get_set_of_ne _ (apart .clipSpritesHorizontally (by decide)) on
    have clipped : clipping (machine.dialect.set switch on) = clipping machine.dialect := by
      simp only [clipping, vertically, horizontally]
    have sprite : (machine.withSwitch switch on).sprite word.n = machine.sprite word.n := by
      simp only [Machine.sprite, drawsWide_withSwitch unconcerned accepted]
      rfl
    rw [carryOut, carryOut, Traced.map_bind, sprite]
    refine Traced.bind_congr _ fun found _ => ?_
    simp only [withSwitch, clipped]
    rfl
  case awaitKey =>
    cases down : machine.keypad.firstPressed? <;> simp only [carryOut, withSwitch, down] <;> rfl
  case store | load =>
    have same : (machine.dialect.set switch on).storeLoadIncrementsIndex =
        machine.dialect.storeLoadIncrementsIndex :=
      Dialect.get_set_of_ne _ (apart .storeLoadIncrementsIndex (by decide)) on
    have passed : (machine.withSwitch switch on).passBlock word.x = machine.passBlock word.x := by
      simp only [passBlock, withSwitch, same]
    rw [carryOut, carryOut, Traced.map_bind]
    refine Traced.bind_congr _ fun _ _ => ?_
    simp only [passed]
    rfl
  all_goals rfl

/-- A word that a switch does not concern means the same in either position. -/
theorem ofWord_withSwitch (unconcerned : switch.concerns word = false) :
    Operation.ofWord? (machine.dialect.set switch on).extendedDisplay word =
      Operation.ofWord? machine.dialect.extendedDisplay word := by
  by_cases extended : switch = .extendedDisplay
  · subst extended
    refine Operation.ofWord_eq_of_ne ?_ ?_ _ _
    · intro number
      have isLow : word = 0x00FE := UInt16.toNat.inj number
      rw [isLow] at unconcerned
      revert unconcerned
      decide
    · intro number
      have isHigh : word = 0x00FF := UInt16.toNat.inj number
      rw [isHigh] at unconcerned
      revert unconcerned
      decide
  · have same : (machine.dialect.set switch on).extendedDisplay =
        machine.dialect.extendedDisplay :=
      Dialect.get_set_of_ne _ extended on
    rw [same]

/-- The machine stands at a word that the switch concerns. -/
def AtWordOf (machine : Machine) (switch : Dialect.Switch) : Prop :=
  ∃ word, machine.fetch.result = .ok word ∧ switch.concerns word = true

/-- The end of a step does not notice a switch. -/
theorem conclude_withSwitch (machine : Machine) (instruction : Instruction) (progress : Progress) :
    (machine.withSwitch switch on).conclude instruction progress =
      endWithSwitch switch on (machine.conclude instruction progress) :=
  @conclude_refit (·.set switch on) id machine instruction progress

/-- A step does not notice a switch that does not concern its word. -/
theorem step_withSwitch (away : ¬machine.AtWordOf switch) :
    (machine.withSwitch switch on).step = endWithSwitch switch on <$> machine.step := by
  have fetched : (machine.withSwitch switch on).fetch = machine.fetch := rfl
  unfold step
  rw [fetched, Traced.map_bind]
  refine Traced.bind_congr _ fun word found => ?_
  have unconcerned : switch.concerns word = false := by
    rw [← Bool.not_eq_true]
    exact fun concerned => away ⟨word, found, concerned⟩
  have decoded : Instruction.decode (machine.withSwitch switch on).dialect.extendedDisplay
      (machine.withSwitch switch on).registers.pc.toNat word =
        Instruction.decode machine.dialect.extendedDisplay machine.registers.pc.toNat word := by
    simp only [Instruction.decode, withSwitch, ofWord_withSwitch unconcerned]
  rw [decoded, Traced.map_bind]
  refine Traced.bind_congr _ fun instruction known => ?_
  have accepted : instruction.operation.pattern.accepts word = true := by
    obtain ⟨operation, means, rfl⟩ := Instruction.decode_eq_ok.mp known
    exact Operation.accepts_of_ofWord means
  rw [carryOut_withSwitch unconcerned accepted, Traced.map_bind, Traced.bind_map]
  refine Traced.bind_congr _ fun ended _ => ?_
  exact congrArg pure (conclude_withSwitch ended.2 instruction ended.1)

/-- A tick does not notice a switch. -/
theorem tick_withSwitch (machine : Machine) :
    (machine.withSwitch switch on).tick = machine.tick.withSwitch switch on :=
  @tick_refit (·.set switch on) id machine

end Machine

namespace Run

variable {switch : Dialect.Switch} (on : Bool)

/-- The run of the machine with the switch. -/
def withSwitch (run : Run) (switch : Dialect.Switch) (on : Bool) : Run :=
  { run with machine := run.machine.withSwitch switch on }

/-- One more step does not notice a switch that does not concern its word. -/
theorem step_withSwitch (run : Run) (away : run.stop = none → ¬run.machine.AtWordOf switch) :
    (run.withSwitch switch on).step = run.step.withSwitch switch on := by
  cases stopped : run.stop with
  | some stop => simp only [step, withSwitch, stopped]
  | none =>
    simp only [step, withSwitch, stopped, Machine.step_withSwitch (away stopped)]
    obtain ⟨accesses, result⟩ := run.machine.step
    rw [Traced.map_mk]
    cases result with
    | error fault => rfl
    | ok ended =>
      obtain ⟨progress, next⟩ := ended
      cases progress <;> rfl

theorem tick_withSwitch (run : Run) :
    (run.withSwitch switch on).tick = run.tick.withSwitch switch on := by
  cases stopped : run.stop with
  | some stop => simp only [tick, withSwitch, stopped]
  | none =>
    simp only [tick, withSwitch, stopped, Machine.tick_withSwitch]
    rfl

/-- A run does not notice a switch as long as it attempts no step at one of its words. -/
theorem follow_withSwitch (run : Run) (moves : List Move)
    (away : ∀ attempted ∈ run.attempts moves, ¬attempted.AtWordOf switch) :
    (run.withSwitch switch on).follow moves = (run.follow moves).withSwitch switch on := by
  induction moves generalizing run with
  | nil => rfl
  | cons move rest inductionHypothesis =>
    cases move with
    | tick =>
      change ((run.withSwitch switch on).tick).follow rest = _
      rw [tick_withSwitch]
      exact inductionHypothesis run.tick away
    | step =>
      have here : run.stop = none → ¬run.machine.AtWordOf switch := by
        intro going
        refine away run.machine (List.mem_append_left _ ?_)
        rw [going]
        exact List.mem_singleton_self _
      change ((run.withSwitch switch on).step).follow rest = _
      rw [step_withSwitch on run here]
      exact inductionHypothesis run.step fun attempted member =>
        away attempted (List.mem_append_right _ member)

end Run

/-- The reply of the machine with the switch. -/
def Reply.withSwitch (reply : Reply) (switch : Dialect.Switch) (on : Bool) : Reply :=
  { reply with machine := reply.machine.withSwitch switch on }

/-- Loading a program is the request that may bring a dialect of its own. -/
def Request.isLoad : Request → Bool
  | .load .. | .loadFile .. => true
  | _ => false

namespace Machine

variable {machine : Machine} {switch : Dialect.Switch} {on : Bool}

/-- A frame does not notice a switch as long as it attempts no step at one of its words. -/
theorem runFrame_withSwitch
    (away : ∀ attempted ∈ machine.attempts .runFrame, ¬attempted.AtWordOf switch) :
    (machine.withSwitch switch on).runFrame =
      (machine.runFrame.1.withSwitch switch on, machine.runFrame.2) := by
  have sameStatus : (machine.withSwitch switch on).isRunning = machine.isRunning := rfl
  have sameClock : (machine.withSwitch switch on).clock = machine.clock := rfl
  by_cases running : machine.isRunning
  case neg =>
    simp only [runFrame, sameStatus, running, if_false, Bool.false_eq_true]
    rfl
  cases told : machine.clock.stepsPerFrame with
  | error misuse =>
    simp only [runFrame, sameStatus, running, if_true, sameClock, told]
    rfl
  | ok steps =>
    have followed := Run.follow_withSwitch on (Run.begin machine) (Run.frameMoves steps)
      (by simpa only [attempts, agenda, outset, running, if_true, told] using away)
    simp only [runFrame, sameStatus, running, if_true, sameClock, told, Run.frame_eq_follow]
    exact congrArg (·, steps) followed

/-- A slice does not notice a switch as long as it attempts no step at one of its words. -/
theorem emulate_withSwitch (duration : Number)
    (away : ∀ attempted ∈ machine.attempts (.emulate duration), ¬attempted.AtWordOf switch) :
    (machine.withSwitch switch on).emulate duration =
      ((machine.emulate duration).1.withSwitch switch on, (machine.emulate duration).2) := by
  have sameStatus : (machine.withSwitch switch on).isRunning = machine.isRunning := rfl
  have sameClock : (machine.withSwitch switch on).clock = machine.clock := rfl
  by_cases running : machine.isRunning
  case neg =>
    simp only [emulate, sameStatus, running, if_false, Bool.false_eq_true]
    rfl
  cases advanced : machine.clock.advance duration with
  | error misuse =>
    simp only [emulate, sameStatus, running, if_true, sameClock, advanced]
    rfl
  | ok passed =>
    obtain ⟨⟨steps, ticks⟩, clock⟩ := passed
    have followed := Run.follow_withSwitch on (Run.begin { machine with clock })
      (Run.sliceMoves steps.toNat ticks.toNat)
      (by simpa only [attempts, agenda, outset, running, if_true, advanced] using away)
    simp only [emulate, sameStatus, running, if_true, sameClock, advanced, Run.slice_eq_follow]
    exact congrArg (·, steps) followed

/-- A request does not notice a switch as long as it attempts no step at one of its words. -/
theorem serve_withSwitch {request : Request} (stays : request.isLoad = false)
    (away : ∀ attempted ∈ machine.attempts request, ¬attempted.AtWordOf switch) :
    (machine.withSwitch switch on).serve request =
      (machine.serve request).withSwitch switch on := by
  have beside (aside : request.isAside = true) :
      (machine.withSwitch switch on).serve request =
        (machine.serve request).withSwitch switch on :=
    @serve_refit (·.set switch on) id request machine aside
  cases request
  case load | loadFile => cases stays
  case step =>
    have here : ¬machine.AtWordOf switch := away machine (List.mem_singleton_self _)
    simp only [serve, Reply.ofStep, step_withSwitch here]
    obtain ⟨accesses, result⟩ := machine.step
    rw [Traced.map_mk]
    cases result with
    | error fault => rfl
    | ok ended =>
      obtain ⟨progress, next⟩ := ended
      cases progress <;> rfl
  case runFrame =>
    simp only [serve, runFrame_withSwitch away]
    rfl
  case emulate duration =>
    simp only [serve, emulate_withSwitch duration away]
    rfl
  all_goals exact beside rfl

/-- Histories of two machines that differ in one switch. As long as the first machine
attempts no step at a word that the switch concerns, both give the same replies, and
after every request they differ in the switch alone. -/
theorem replies_withSwitch (machine : Machine) (requests : List Request)
    (stays : ∀ request ∈ requests, request.isLoad = false)
    (away : ∀ attempted ∈ machine.attemptsAll requests, ¬attempted.AtWordOf switch) :
    (machine.withSwitch switch on).replies requests =
      (machine.replies requests).map (·.withSwitch switch on) := by
  induction requests generalizing machine with
  | nil => rfl
  | cons request rest inductionHypothesis =>
    have served : (machine.withSwitch switch on).serve request =
        (machine.serve request).withSwitch switch on :=
      serve_withSwitch (stays request (List.mem_cons_self ..))
        fun attempted member => away attempted (List.mem_append_left _ member)
    have next : (machine.withSwitch switch on).serveOne request =
        (machine.serveOne request).withSwitch switch on := congrArg Reply.machine served
    have others := inductionHypothesis (machine.serveOne request)
      (fun other member => stays other (List.mem_cons_of_mem _ member))
      (fun attempted member => away attempted (List.mem_append_right _ member))
    simp only [replies, List.map_cons, served, next, others]

/-- A program that counts in a register for ever. -/
def countProgram : List UInt8 := [0x70, 0x01, 0x12, 0x00]

/-- A machine at one of its two instructions. -/
def Counts (machine : Machine) : Prop :=
  machine.Stands countProgram 0 ∨ machine.Stands countProgram 2

theorem Counts.afterStep (counts : machine.Counts) : machine.afterStep.Counts := by
  rcases counts with stands | stands
  · have adds : machine.Finds 0x7001 .addByte := stands.finds rfl (by decide) rfl
    rw [afterStep_of_ok (adds.step rfl)]
    exact .inr { stands with pc := stands.behind (by decide) }
  · have jumps : machine.Finds 0x1200 .jump := stands.finds rfl (by decide) rfl
    rw [afterStep_of_ok (jumps.step rfl)]
    exact .inl { stands with pc := rfl }

theorem Counts.tick (counts : machine.Counts) : machine.tick.Counts :=
  counts.imp Stands.tick Stands.tick

theorem Counts.outset (counts : machine.Counts) (request : Request) :
    (machine.outset request).Counts := by
  rw [outset_eq]
  exact counts.imp ({ · with }) ({ · with })

/-- Whatever is attempted of it, the machine counts. -/
theorem Counts.attempts (counts : machine.Counts) (request : Request) :
    ∀ attempted ∈ machine.attempts request, attempted.Counts :=
  Run.attempts_keep Counts (fun _ => afterStep) (fun _ => tick) (counts.outset request) _

theorem Counts.runFrame (counts : machine.Counts) : (machine.serveOne .runFrame).Counts := by
  rw [runFrame_eq_follow]
  exact Run.follow_keeps Counts (fun _ => afterStep) (fun _ => tick) counts _

/-- No switch of clipping concerns its words. -/
theorem Counts.apart (counts : machine.Counts) : ¬machine.AtWordOf .clipSpritesVertically := by
  rintro ⟨word, fetched, concerned⟩
  rcases counts with stands | stands
  · have adds : machine.Finds 0x7001 .addByte := stands.finds rfl (by decide) rfl
    obtain rfl : word = 0x7001 := Except.ok.inj (fetched.symm.trans adds.1)
    revert concerned
    decide
  · have jumps : machine.Finds 0x1200 .jump := stands.finds rfl (by decide) rfl
    obtain rfl : word = 0x1200 := Except.ok.inj (fetched.symm.trans jumps.1)
    revert concerned
    decide

/-- A frame and a second of counting go by alike, whether sprites are clipped or not. -/
theorem replies_withSwitch_of_countProgram :
    let machine := (ofRate 700 .chip8 0 .mute).serveOne (.load countProgram none)
    (machine.withSwitch .clipSpritesVertically false).replies [.runFrame, .emulate (.whole 1)] =
      (machine.replies [.runFrame, .emulate (.whole 1)]).map
        (·.withSwitch .clipSpritesVertically false) := by
  intro machine
  have counts : machine.Counts :=
    .inl (stands_of_load (by decide +kernel : countProgram.length ≤ _)).1
  refine replies_withSwitch machine _ (by decide) fun attempted member => ?_
  rcases List.mem_append.mp member with frame | second
  · exact (counts.attempts _ attempted frame).apart
  · rw [attemptsAll, attemptsAll, List.append_nil] at second
    exact (counts.runFrame.attempts _ attempted second).apart

end Machine

end Chip8
