import Chip8.Proofs.WellFormed

/-!
# What a step finds

A step that succeeds has found an operation: the word at the program counter could be
fetched, and the machine's set gives it a meaning. Whatever follows of the registers is what
that operation makes of them, since concluding a step leaves them alone.

A machine that stands in a program finds what the program has there. So a program whose bytes
are known can be followed instruction by instruction, without a look at the rest of memory.
-/

namespace Chip8

namespace Machine

variable {machine next : Machine} {word : Word} {operation : Operation} {progress : Progress}

/-- The word at the program counter can be fetched, and means the operation. -/
def Finds (machine : Machine) (word : Word) (operation : Operation) : Prop :=
  machine.fetch.result = .ok word ∧
    Operation.ofWord? machine.dialect.extendedDisplay word = some operation

/-- To conclude a step leaves the registers alone. -/
theorem conclude_registers (machine : Machine) (instruction : Instruction) (progress : Progress) :
    (machine.conclude instruction progress).2.registers = machine.registers := by
  have noted : (machine.note instruction progress).registers = machine.registers := by
    cases progress <;> rfl
  unfold conclude
  split
  · rw [settle, adjustBeeper_eq]
    exact noted
  · exact noted

/-- A step is the operation that the machine finds, carried out and concluded. -/
theorem Finds.step_iff (finds : machine.Finds word operation) :
    machine.step.result = .ok (progress, next) ↔
      ∃ found after, (machine.carryOut word operation).result = .ok (found, after) ∧
        after.conclude ⟨operation, word⟩ found = (progress, next) := by
  rw [step_eq_ok]
  constructor
  · rintro ⟨other, meant, fetched, known, complete⟩
    obtain rfl : other = word := Except.ok.inj (fetched.symm.trans finds.1)
    obtain rfl : meant = operation := Option.some.inj (known.symm.trans finds.2)
    exact complete
  · intro complete
    exact ⟨word, operation, finds.1, finds.2, complete⟩

/-- A step carries out the operation that the machine finds. -/
theorem Finds.carried (finds : machine.Finds word operation)
    (stepped : machine.step.result = .ok (progress, next)) :
    ∃ found after, (machine.carryOut word operation).result = .ok (found, after) ∧
      next.registers = after.registers := by
  obtain ⟨found, after, carried, ended⟩ := finds.step_iff.mp stepped
  obtain rfl : (after.conclude ⟨operation, word⟩ found).2 = next := congrArg Prod.snd ended
  exact ⟨found, after, carried, conclude_registers ..⟩

/-- A call puts the address behind it on the stack. -/
theorem Finds.pushed (finds : machine.Finds word .call)
    (stepped : machine.step.result = .ok (progress, next)) :
    next.registers.stack =
      ⟨machine.registers.stack.capacity,
        (machine.registers.pc + 2) :: machine.registers.stack.entries⟩ := by
  obtain ⟨_, after, carried, registers⟩ := finds.carried stepped
  rw [registers]
  exact (CallStack.push_eq_ok.mp (carryOut_footprint carried).stack).2

/-- A return takes an address off the stack, and goes there. -/
theorem Finds.popped (finds : machine.Finds word .ret)
    (stepped : machine.step.result = .ok (progress, next)) :
    machine.registers.stack =
      ⟨next.registers.stack.capacity,
        next.registers.pc :: next.registers.stack.entries⟩ := by
  obtain ⟨_, after, carried, registers⟩ := finds.carried stepped
  obtain ⟨entries, capacity⟩ := CallStack.pop_eq_ok.mp (carryOut_footprint carried).stack
  rw [registers, capacity, ← entries]

/-- No other operation touches the stack. -/
theorem Finds.stack_stays (finds : machine.Finds word operation) (notCall : operation ≠ .call)
    (notReturn : operation ≠ .ret) (stepped : machine.step.result = .ok (progress, next)) :
    next.registers.stack = machine.registers.stack := by
  obtain ⟨_, after, carried, registers⟩ := finds.carried stepped
  have stack := (carryOut_footprint carried).stack
  rw [registers]
  cases operation
  case call => exact absurd rfl notCall
  case ret => exact absurd rfl notReturn
  all_goals exact stack

/-- A machine that carries out the operation it finds, and concludes it, has made its step. -/
theorem Finds.step (finds : machine.Finds word operation)
    (carried : (machine.carryOut word operation).result = .ok (progress, next)) :
    machine.step.result = .ok (next.conclude ⟨operation, word⟩ progress) :=
  finds.step_iff.mpr ⟨progress, next, carried, rfl⟩

/-- The machine has the plain set, and stands at a byte of a program that is installed. -/
structure Stands (machine : Machine) (program : List UInt8) (offset : Nat) : Prop where
  fits : program.length ≤ Memory.standard.capacity
  memory : machine.memory = Memory.standard.install program
  dialect : machine.dialect = .chip8
  pc : machine.registers.pc.toNat = Memory.programStart + offset

variable {program : List UInt8} {offset : Nat}

/-- A machine that is built and loaded stands at the first byte, with its registers cleared. -/
theorem stands_of_load (fits : program.length ≤ Memory.standard.capacity) :
    let loaded := (ofRate 700 .chip8 0 .mute).serveOne (.load program none)
    loaded.Stands program 0 ∧ loaded.registers = .initial := by
  intro loaded
  obtain ⟨beeper, known⟩ := @serveOne_load_eq (ofRate 700 .chip8 0 .mute) program fits none
  change loaded = _ at known
  rw [known]
  exact ⟨⟨fits, rfl, rfl, rfl⟩, rfl⟩

/-- A machine that is built and loaded has a dark screen. -/
theorem screen_of_load (fits : program.length ≤ Memory.standard.capacity) :
    ((ofRate 700 .chip8 0 .mute).serveOne (.load program none)).screen = .standard := by
  obtain ⟨beeper, loaded⟩ := @serveOne_load_eq (ofRate 700 .chip8 0 .mute) program fits none
  rw [loaded]
  rfl

/-- A machine that stands at an instruction finds its operation. -/
theorem Stands.finds (stands : machine.Stands program offset) (aligned : offset % 2 = 0)
    (inside : offset + 1 < program.length)
    (meant : Operation.ofWord? false (Word.ofBytes program[offset] program[offset + 1]) =
      some operation) :
    machine.Finds (Word.ofBytes program[offset] program[offset + 1]) operation := by
  have area : Memory.programStart ≤ Memory.standard.size := by decide +kernel
  have plain : machine.dialect.extendedDisplay = false := by
    rw [stands.dialect]
    rfl
  refine ⟨fetch_installed stands.memory area stands.fits offset stands.pc aligned inside, ?_⟩
  rw [plain]
  exact meant

/-- The address behind an instruction of the program. -/
theorem Stands.behind (stands : machine.Stands program offset)
    (inside : offset + 1 < program.length) :
    (machine.registers.pc + 2).toNat = Memory.programStart + (offset + 2) := by
  have fits : program.length ≤ Memory.standardCapacity :=
    Memory.standard_capacity ▸ stands.fits
  have room : Memory.standardCapacity = 0xE00 := rfl
  have start : Memory.programStart = 0x200 := rfl
  rw [UInt16.toNat_add, stands.pc, start]
  change (0x200 + offset + 2) % 0x10000 = _
  omega

/-- A byte is loaded into its register, and the program goes on behind it. -/
theorem Stands.loadByte (stands : machine.Stands program offset)
    (finds : machine.Finds word .loadByte) (inside : offset + 1 < program.length) :
    ∃ next, machine.step.result = .ok (.executed, next) ∧ next.Stands program (offset + 2) ∧
      next.registers.get word.x = word.nn :=
  ⟨_, finds.step rfl, { stands with pc := stands.behind inside },
    Registers.get_set machine.registers word.x word.nn⟩

/-- An address is loaded into the index, and the program goes on behind it. -/
theorem Stands.loadIndex (stands : machine.Stands program offset)
    (finds : machine.Finds word .loadIndex) (inside : offset + 1 < program.length) :
    ∃ next, machine.step.result = .ok (.executed, next) ∧ next.Stands program (offset + 2) ∧
      next.registers.index = word.nnn ∧ next.registers.v = machine.registers.v ∧
      next.screen = machine.screen :=
  ⟨_, finds.step rfl, { stands with pc := stands.behind inside }, rfl, rfl, rfl⟩

/-- A call that finds room is made, and leads to its address in the program. -/
theorem Stands.call (stands : machine.Stands program offset) (finds : machine.Finds word .call)
    (room : machine.registers.stack.depth < machine.registers.stack.capacity) (goal : Nat)
    (target : word.nnn.toNat = Memory.programStart + goal) :
    ∃ next, machine.step.result = .ok (.executed, next) ∧ next.Stands program goal := by
  have pushed : machine.registers.stack.push (machine.registers.pc + 2) =
      .ok ⟨machine.registers.stack.capacity,
        (machine.registers.pc + 2) :: machine.registers.stack.entries⟩ :=
    CallStack.push_eq_ok.mpr ⟨room, rfl⟩
  have carried : ∃ next, (machine.carryOut word .call).result = .ok (.executed, next) ∧
      next.Stands program goal := by
    simp only [carryOut, pushed]
    exact ⟨_, rfl, stands.fits, stands.memory, stands.dialect, target⟩
  obtain ⟨next, carried, there⟩ := carried
  exact ⟨_, finds.step carried, { there with }⟩

/-- A return to the program is made. -/
theorem Stands.ret (stands : machine.Stands program offset) (finds : machine.Finds word .ret)
    {top : UInt16} {below : List UInt16} (entries : machine.registers.stack.entries = top :: below)
    (goal : Nat) (target : top.toNat = Memory.programStart + goal) :
    ∃ next, machine.step.result = .ok (.executed, next) ∧ next.Stands program goal := by
  have popped : machine.registers.stack.pop =
      .ok (top, ⟨machine.registers.stack.capacity, below⟩) :=
    CallStack.pop_eq_ok.mpr ⟨entries, rfl⟩
  have carried : ∃ next, (machine.carryOut word .ret).result = .ok (.executed, next) ∧
      next.Stands program goal := by
    simp only [carryOut, popped]
    exact ⟨_, rfl, stands.fits, stands.memory, stands.dialect, target⟩
  obtain ⟨next, carried, there⟩ := carried
  exact ⟨_, finds.step carried, { there with }⟩

/-- A tick leaves a machine where it stands. -/
theorem Stands.tick (stands : machine.Stands program offset) :
    machine.tick.Stands program offset := by
  rw [Machine.tick, adjustBeeper_eq]
  exact { stands with }

end Machine

end Chip8
