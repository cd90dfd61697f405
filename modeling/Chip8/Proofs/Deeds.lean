import Chip8.Proofs.Completion

/-!
# Deeds

A session does four things to its machine: it carries out an instruction, waits for a key,
moves over a word without meaning, or lets the timers tick. The first three take the place
of a step, and only the first is counted by the machine.

What a machine waits for does not come from its own deeds. Its next instruction asks for a
key, no key is down, and neither waits nor ticks change that. From the first wait on, a
list of deeds therefore holds waits and ticks only.
-/

namespace Chip8

/-- What is done to a machine in the course of a session. -/
inductive Deed where
  | execute
  | wait
  /-- A word without meaning is moved over. -/
  | skip
  | tick
deriving DecidableEq, Repr

namespace Deed

/-- The move that a deed stands for. -/
def move : Deed → Move
  | execute | wait | skip => .step
  | tick => .tick

/-- Deeds of three kinds are steps. -/
theorem count_steps (deeds : List Deed) :
    (deeds.map move).count .step =
      deeds.count .execute + deeds.count .skip + deeds.count .wait := by
  induction deeds with
  | nil => rfl
  | cons deed rest inductionHypothesis =>
    rw [List.map_cons, List.count_cons, inductionHypothesis]
    cases deed
    all_goals
      simp only [List.count_cons, move, beq_self_eq_true, if_true, reduceCtorEq, beq_iff_eq,
        if_false]
      omega

/-- Those of the fourth are ticks. -/
theorem count_ticks (deeds : List Deed) : (deeds.map move).count .tick = deeds.count .tick := by
  induction deeds with
  | nil => rfl
  | cons deed rest inductionHypothesis =>
    rw [List.map_cons, List.count_cons, List.count_cons, inductionHypothesis]
    cases deed <;> rfl

end Deed

namespace Machine

variable {machine next reached last : Machine} {deed : Deed} {deeds earlier later : List Deed}

/-- A deed that is done, and the machine that it leads to. -/
inductive Does (machine : Machine) : Deed → Machine → Prop where
  | execute {next : Machine} (stepped : machine.step.result = .ok (.executed, next)) :
      Does machine .execute next
  | wait {next : Machine} (stepped : machine.step.result = .ok (.waiting, next)) :
      Does machine .wait next
  | skip {word : Word} {address : Int}
      (failed : machine.step.result = .error (.unknownOpcode word address)) :
      Does machine .skip machine.skip
  | tick (told : machine.lostTime? = none) : Does machine .tick machine.tick

/-- Deeds that are done one after the other. -/
inductive DoesAll : Machine → List Deed → Machine → Prop where
  | nil (machine : Machine) : DoesAll machine [] machine
  | cons {machine next last : Machine} {deed : Deed} {rest : List Deed}
      (first : machine.Does deed next) (further : DoesAll next rest last) :
      DoesAll machine (deed :: rest) last

/-- Deeds done after deeds. -/
theorem DoesAll.append (first : machine.DoesAll earlier reached)
    (second : reached.DoesAll later last) : machine.DoesAll (earlier ++ later) last := by
  induction first with
  | nil => exact second
  | cons does _ inductionHypothesis => exact .cons does (inductionHypothesis second)

/-- One deed more. -/
theorem DoesAll.concat (first : machine.DoesAll deeds reached) (does : reached.Does deed next) :
    machine.DoesAll (deeds ++ [deed]) next :=
  first.append (.cons does (.nil next))

/-- Deeds can be cut anywhere. -/
theorem DoesAll.split (does : machine.DoesAll (earlier ++ later) last) :
    ∃ reached, machine.DoesAll earlier reached ∧ reached.DoesAll later last := by
  induction earlier generalizing machine with
  | nil => exact ⟨machine, .nil machine, does⟩
  | cons deed rest inductionHypothesis =>
    cases does with
    | cons first further =>
      obtain ⟨reached, before, after⟩ := inductionHypothesis further
      exact ⟨reached, .cons first before, after⟩

/-- A step that waits finds the instruction that asks for a key, and no key down. It keeps
the instruction, and nothing else happens. -/
theorem step_waits_iff :
    machine.step.result = .ok (.waiting, next) ↔
      ∃ word, machine.fetch.result = .ok word ∧
        Operation.ofWord? machine.dialect.extendedDisplay word = some .awaitKey ∧
        machine.keypad.firstPressed? = none ∧
        next = { machine with last := some ⟨.awaitKey, word⟩ } := by
  constructor
  · intro stepped
    obtain ⟨word, operation, fetched, known, found, after, carried, ended⟩ :=
      step_eq_ok.mp stepped
    unfold conclude at ended
    split at ended
    case isTrue =>
      -- What has set the sound timer is complete.
      unfold settle at ended
      cases lost : (after.note ⟨operation, word⟩ found).lostTime? <;> simp [lost] at ended
    case isFalse =>
      obtain ⟨rfl, rfl⟩ := Prod.mk.inj ended
      rcases carryOut_progress carried with impossible | ⟨_, rfl, rfl⟩
      · cases impossible
      · refine ⟨word, fetched, known, ?_, rfl⟩
        cases pressed : after.keypad.firstPressed? with
        | none => rfl
        | some key =>
          simp only [carryOut, pressed] at carried
          cases carried
  · rintro ⟨word, fetched, known, released, rfl⟩
    refine step_eq_ok.mpr ⟨word, .awaitKey, fetched, known, .waiting, machine, ?_, rfl⟩
    simp only [carryOut, released]
    rfl

/-- The machine waits for a key. -/
def Waits (machine : Machine) : Prop := ∃ next, machine.step.result = .ok (.waiting, next)

/-- Whether a machine waits depends on its registers, memory, dialect and keypad. -/
theorem Waits.of_same (waits : machine.Waits) (registers : next.registers = machine.registers)
    (memory : next.memory = machine.memory) (dialect : next.dialect = machine.dialect)
    (keypad : next.keypad = machine.keypad) : next.Waits := by
  obtain ⟨_, stepped⟩ := waits
  obtain ⟨word, fetched, known, released, _⟩ := step_waits_iff.mp stepped
  rw [fetch_result] at fetched
  refine ⟨_, step_waits_iff.mpr ⟨word, ?_, ?_, ?_, rfl⟩⟩
  · rw [fetch_result, registers, memory]
    exact fetched
  · rw [dialect]
    exact known
  · rw [keypad]
    exact released

/-- A machine that waits does nothing but wait and tick, and goes on waiting. -/
theorem Waits.does (waits : machine.Waits) (does : machine.Does deed next) :
    (deed = .wait ∨ deed = .tick) ∧ next.Waits := by
  obtain ⟨after, stepped⟩ := waits
  cases does with
  | execute executed => cases stepped.symm.trans executed
  | skip failed => cases stepped.symm.trans failed
  | wait waited =>
    obtain ⟨_, _, _, _, rfl⟩ := step_waits_iff.mp waited
    exact ⟨.inl rfl, Waits.of_same ⟨after, stepped⟩ rfl rfl rfl rfl⟩
  | tick =>
    refine ⟨.inr rfl, Waits.of_same ⟨after, stepped⟩ ?_ ?_ ?_ ?_⟩
    all_goals rw [Machine.tick, adjustBeeper_eq]

/-- So it is for all of its deeds. -/
theorem Waits.doesAll (waits : machine.Waits) (does : machine.DoesAll deeds last) :
    ∀ deed ∈ deeds, deed = .wait ∨ deed = .tick := by
  induction does with
  | nil => nofun
  | cons first _ inductionHypothesis =>
    obtain ⟨idle, waitsOn⟩ := waits.does first
    intro deed member
    rcases List.mem_cons.mp member with rfl | later
    · exact idle
    · exact inductionHypothesis waitsOn deed later

/-- After the first wait there are waits and ticks only. -/
theorem DoesAll.idle_after_wait (does : machine.DoesAll (earlier ++ .wait :: later) last) :
    ∀ deed ∈ later, deed = .wait ∨ deed = .tick := by
  obtain ⟨reached, _, further⟩ := does.split
  cases further with
  | cons first rest =>
    cases first with
    | wait stepped =>
      have waits : reached.Waits := ⟨_, stepped⟩
      exact (waits.does (.wait stepped)).2.doesAll rest

/-- A complete instruction is counted, settled or not. -/
theorem conclude_counts (machine : Machine) (instruction : Instruction) :
    (machine.conclude instruction .executed).2.executed = machine.executed + 1 := by
  unfold conclude
  split
  · rw [settle, adjustBeeper_eq]
    rfl
  · rfl

/-- The machine counts an instruction that is carried out, and no other deed. -/
theorem Does.executed (does : machine.Does deed next) :
    next.executed = machine.executed + [deed].count .execute := by
  cases does with
  | execute stepped =>
    obtain ⟨word, operation, _, _, found, after, carried, ended⟩ := step_eq_ok.mp stepped
    have kept : after.executed = machine.executed := by rw [(carryOut_footprint carried).host]
    rcases carryOut_progress carried with rfl | ⟨rfl, rfl, _⟩
    · obtain rfl : (after.conclude ⟨operation, word⟩ .executed).2 = next :=
        congrArg Prod.snd ended
      rw [conclude_counts, kept]
      rfl
    · cases ended
  | wait stepped =>
    obtain ⟨_, _, _, _, rfl⟩ := step_waits_iff.mp stepped
    rfl
  | skip => rfl
  | tick =>
    rw [Machine.tick, adjustBeeper_eq]
    rfl

/-- The machine counts what is carried out in the course of its deeds. -/
theorem DoesAll.executed (does : machine.DoesAll deeds last) :
    last.executed = machine.executed + deeds.count .execute := by
  induction does with
  | nil => rfl
  | @cons _ _ _ deed rest first _ inductionHypothesis =>
    rw [inductionHypothesis, first.executed, Nat.add_assoc, ← List.count_append]
    rfl

end Machine

end Chip8
