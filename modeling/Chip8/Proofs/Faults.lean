import Chip8.Proofs.Atomicity

/-!
# Faults and their causes

Which fault a step ends with can be told beforehand, from the program counter, the word
that stands there, and the sizes of stack and memory. An instruction that cannot be fetched
comes before one that means nothing, and both come before what the instruction touches.

Six operations can fail: a return on the empty stack, a call on the full one, and the four
that touch a block of memory, the address in the fault being the first end of the block that
is out of bounds. A read asks for its first byte even if it is to read none.

Where none of these causes is met, a step succeeds, but for one that sets the sound timer at
a time that cannot be told.
-/

namespace Chip8

variable {fault : Fault}

/-- There are as many registers up to one as its number says, and one more. -/
theorem Registers.length_upTo (registers : Registers) (x : Fin 16) :
    (registers.upTo x).length = x.val + 1 := by
  rw [upTo, List.length_take, Vector.length_toList]
  exact Nat.min_eq_left x.isLt

namespace CallStack

variable {stack : CallStack} {address : UInt16}

theorem pop_eq_error :
    stack.pop = .error fault ↔ stack.entries = [] ∧ fault = .stackUnderflow := by
  unfold pop
  split
  case h_1 none => simp only [none, Except.error.injEq, true_and, eq_comm]
  case h_2 top below some => simp [some]

theorem push_eq_error :
    stack.push address = .error fault ↔
      stack.capacity ≤ stack.depth ∧ fault = .stackOverflow (stack.depth + 1) := by
  unfold push
  split
  case isTrue full => simp only [full, Except.error.injEq, true_and, eq_comm]
  case isFalse room => simp [room]

end CallStack

namespace Memory

variable {memory : Memory} {address : Int}

/-- A block is refused if one of its ends cannot be written, and for the first of them. -/
theorem writeBlock_eq_error {values : List UInt8} (filled : values.isEmpty = false) :
    (memory.writeBlock address values).result = .error fault ↔
      ¬(memory.writable address = true ∧ memory.writable (address + values.length - 1) = true) ∧
        fault = .memoryAccess
          (if memory.writable address then address + values.length - 1 else address) true := by
  by_cases first : memory.writable address = true
  case neg =>
    rw [writeBlock_eq_fail_first filled first, if_neg first]
    constructor
    · exact fun failed => ⟨fun both => first both.1, (Except.error.inj failed).symm⟩
    · exact fun refused => congrArg Except.error refused.2.symm
  rw [if_pos first]
  by_cases last : memory.writable (address + values.length - 1) = true
  case neg =>
    rw [writeBlock_eq_fail_last filled first last]
    constructor
    · exact fun failed => ⟨fun both => last both.2, (Except.error.inj failed).symm⟩
    · exact fun refused => congrArg Except.error refused.2.symm
  obtain ⟨next, written⟩ :=
    writeBytes_succeeds fun _ bound => writable_between first last bound
  rw [writeBlock_eq_writeBytes filled first last, written]
  simp [first, last]

/-- A read is refused for its first address, or for reaching beyond the end. -/
theorem readBlock_eq_error {length : Nat} :
    memory.readBlock address length = .error fault ↔
      ¬(memory.readable address = true ∧ address + length ≤ memory.size) ∧
        fault = .memoryAccess (if memory.readable address then memory.size else address) false := by
  unfold readBlock
  by_cases first : memory.readable address = true
  case neg => simp [first, eq_comm]
  by_cases beyond : memory.size < address + length
  · simp [first, beyond, eq_comm]
  · simp [first, beyond, Int.not_lt.mp beyond]

end Memory

namespace Machine

variable {machine : Machine} {word : Word} {operation : Operation}

/-- How many bytes a sprite of a height has. -/
def spriteLength (machine : Machine) (height : Fin 16) : Nat :=
  if height = 0 ∧ machine.dialect.extendedDisplay = true ∧ machine.screen.extended = true then 32
  else height.val

/-- A wide sprite has two bytes for each of sixteen rows. -/
theorem spriteLength_eq (machine : Machine) (height : Fin 16) :
    machine.spriteLength height = if machine.drawsWide height then 32 else height.val := by
  simp only [spriteLength, drawsWide, Bool.and_eq_true, decide_eq_true_eq, and_assoc]

/-- A sprite is missing if its bytes cannot be read. -/
theorem sprite_eq_error {height : Fin 16} :
    machine.sprite height = .error fault ↔
      machine.memory.readBlock machine.registers.index.toNat (machine.spriteLength height) =
        .error fault := by
  rw [sprite, spriteLength_eq]
  by_cases large : machine.drawsWide height = true
  · rw [if_pos large, if_pos large]
    cases machine.memory.readBlock machine.registers.index.toNat 32 <;> simp [Except.map]
  · rw [if_neg large, if_neg large]
    cases machine.memory.readBlock machine.registers.index.toNat height.val <;> simp [Except.map]

/-- The operations that can fail, and what they fail for. -/
theorem carryOut_eq_error :
    (machine.carryOut word operation).result = .error fault ↔
      match operation with
      | .ret => machine.registers.stack.pop = .error fault
      | .call => machine.registers.stack.push (machine.registers.pc + 2) = .error fault
      | .draw =>
        machine.memory.readBlock machine.registers.index.toNat (machine.spriteLength word.n) =
          .error fault
      | .storeDecimal =>
        (machine.memory.writeBlock machine.registers.index.toNat
          (decimalDigits (machine.registers.get word.x))).result = .error fault
      | .store =>
        (machine.memory.writeBlock machine.registers.index.toNat
          (machine.registers.upTo word.x)).result = .error fault
      | .load =>
        machine.memory.readBlock machine.registers.index.toNat (word.x.val + 1) = .error fault
      | _ => False := by
  -- What follows the part that can fail is complete.
  have onlyFirst {α : Type} {first : Traced α} {next : α → Traced (Progress × Machine)}
      (complete : ∀ value, ∃ ended, (next value).result = .ok ended) :
      (first >>= next).result = .error fault ↔ first.result = .error fault := by
    rw [Traced.result_bind_eq_error]
    constructor
    · rintro (failed | ⟨value, _, failed⟩)
      · exact failed
      · obtain ⟨ended, succeeded⟩ := complete value
        cases succeeded.symm.trans failed
    · exact .inl
  cases operation
  case draw =>
    rw [← sprite_eq_error]
    exact onlyFirst fun _ => ⟨_, rfl⟩
  case ret | call | storeDecimal | store | load => exact onlyFirst fun _ => ⟨_, rfl⟩
  case awaitKey =>
    rw [iff_false]
    intro failed
    simp only [carryOut] at failed
    split at failed
    · cases failed
    · cases failed
  all_goals
    rw [iff_false]
    intro failed
    cases failed

/-- The word that stands at the program counter. -/
def wordHere (machine : Machine) : Word :=
  .ofBytes (machine.memory.byteAt machine.registers.pc.toNat)
    (machine.memory.byteAt (machine.registers.pc.toNat + 1))

/-- No instruction stands at an odd address, or reaches beyond the last. -/
def Misplaced (machine : Machine) : Prop :=
  machine.registers.pc.toNat % 2 = 1 ∨ 0xFFF ≤ machine.registers.pc.toNat

/-- The word at the program counter can be fetched, and has the form of an operation. -/
def Faces (machine : Machine) (operation : Operation) : Prop :=
  ¬machine.Misplaced ∧ operation.pattern.accepts machine.wordHere = true

/-- A block of a length is to be stored at the index. -/
def Stores (machine : Machine) (length : Nat) : Prop :=
  (machine.Faces .storeDecimal ∧ length = 3) ∨
    (machine.Faces .store ∧ length = machine.wordHere.x.val + 1)

/-- A block of a length is to be read at the index. -/
def Reads (machine : Machine) (length : Nat) : Prop :=
  (machine.Faces .load ∧ length = machine.wordHere.x.val + 1) ∨
    (machine.Faces .draw ∧ length = machine.spriteLength machine.wordHere.n)

/-- The causes of faults, each with the fault it leads to. -/
inductive Meets (machine : Machine) : Fault → Prop where
  | misplaced (apart : machine.Misplaced) : Meets machine (.invalidFetch machine.registers.pc)
  /-- The word has the form of no operation that the machine's set has. -/
  | meaningless (placed : ¬machine.Misplaced)
      (formless : ∀ operation : Operation,
        (operation.isExtended = true → machine.dialect.extendedDisplay = true) →
          ¬operation.pattern.accepts machine.wordHere = true) :
      Meets machine (.unknownOpcode machine.wordHere machine.registers.pc.toNat)
  | underflow (faces : machine.Faces .ret) (empty : machine.registers.stack.entries = []) :
      Meets machine .stackUnderflow
  | overflow (faces : machine.Faces .call)
      (full : machine.registers.stack.entries.length = 16) : Meets machine (.stackOverflow 17)
  /-- One end of the block is outside of the program area. -/
  | store {length : Nat} (stores : machine.Stores length)
      (outside : machine.registers.index.toNat < 0x200 ∨
        0x1000 < machine.registers.index.toNat + length) :
      Meets machine
        (.memoryAccess
          (if 0x200 ≤ machine.registers.index.toNat ∧ machine.registers.index.toNat < 0x1000 then
            machine.registers.index.toNat + length - 1
          else machine.registers.index.toNat) true)
  /-- The block starts or ends beyond memory. -/
  | read {length : Nat} (reads : machine.Reads length)
      (outside : 0x1000 ≤ machine.registers.index.toNat ∨
        0x1000 < machine.registers.index.toNat + length) :
      Meets machine
        (.memoryAccess
          (if 0x1000 ≤ machine.registers.index.toNat then machine.registers.index.toNat
          else 0x1000) false)

/-- On a memory of standard size a fetch fails exactly where no instruction stands. -/
theorem WellFormed.fetch_eq (formed : machine.WellFormed) :
    (machine.Misplaced → machine.fetch.result = .error (.invalidFetch machine.registers.pc)) ∧
      (¬machine.Misplaced → machine.fetch.result = .ok machine.wordHere) := by
  have outside : (machine.registers.pc % 2 = 1 ∨
      machine.memory.size ≤ machine.registers.pc.toNat + 1) ↔ machine.Misplaced := by
    rw [formed.memorySize, ← UInt16.toNat_inj, UInt16.toNat_mod]
    simp only [Misplaced, Memory.standardSize]
    exact or_congr Iff.rfl (by omega)
  rw [fetch_result]
  exact ⟨fun apart => if_pos (outside.mpr apart), fun placed => if_neg (mt outside.mp placed)⟩

/-- What is fetched is the word at the program counter. -/
theorem WellFormed.placed_of_fetch (formed : machine.WellFormed)
    (fetched : machine.fetch.result = .ok word) :
    ¬machine.Misplaced ∧ word = machine.wordHere := by
  obtain ⟨failing, reading⟩ := formed.fetch_eq
  by_cases apart : machine.Misplaced
  · rw [failing apart] at fetched
    cases fetched
  · rw [reading apart] at fetched
    cases fetched
    exact ⟨apart, rfl⟩

/-- At a word with the form of an operation it is the operation that fails. -/
theorem WellFormed.step_eq_error_of_faces (formed : machine.WellFormed)
    (faces : machine.Faces operation) (fixed : operation ≠ .sys)
    (plain : operation.isExtended = false)
    (failed : (machine.carryOut machine.wordHere operation).result = .error fault) :
    machine.step.result = .error fault := by
  have known : Operation.ofWord? machine.dialect.extendedDisplay machine.wordHere =
      some operation := by
    apply Operation.ofWord_of_accepts faces.2 fixed
    simp [plain]
  exact step_eq_error.mpr
    (.inr ⟨machine.wordHere, formed.fetch_eq.2 faces.1, .inr ⟨operation, known, failed⟩⟩)

/-- A block to be stored is refused for an end outside of the program area. -/
theorem WellFormed.writeBlock_eq_error_iff (formed : machine.WellFormed) {values : List UInt8}
    {length : Nat} (measured : values.length = length) (filled : 0 < length) :
    (machine.memory.writeBlock machine.registers.index.toNat values).result = .error fault ↔
      (machine.registers.index.toNat < 0x200 ∨ 0x1000 < machine.registers.index.toNat + length) ∧
        fault = .memoryAccess
          (if 0x200 ≤ machine.registers.index.toNat ∧ machine.registers.index.toNat < 0x1000 then
            machine.registers.index.toNat + length - 1
          else machine.registers.index.toNat) true := by
  have first : machine.memory.writable machine.registers.index.toNat = true ↔
      0x200 ≤ machine.registers.index.toNat ∧ machine.registers.index.toNat < 0x1000 := by
    rw [Memory.writable_iff, formed.memorySize]
    simp only [Memory.programStart, Memory.standardSize]
    omega
  have both : (machine.memory.writable machine.registers.index.toNat = true ∧
      machine.memory.writable (machine.registers.index.toNat + values.length - 1) = true) ↔
        ¬(machine.registers.index.toNat < 0x200 ∨
          0x1000 < machine.registers.index.toNat + length) := by
    rw [first, Memory.writable_iff, formed.memorySize, measured]
    simp only [Memory.programStart, Memory.standardSize]
    omega
  have some : values.isEmpty = false := by
    rw [← measured] at filled
    simpa [List.length_pos_iff] using filled
  rw [Memory.writeBlock_eq_error some, both, Classical.not_not, measured]
  simp only [first]

/-- A block to be read is refused for reaching beyond memory, be it empty or not. -/
theorem WellFormed.readBlock_eq_error_iff (formed : machine.WellFormed) {length : Nat} :
    machine.memory.readBlock machine.registers.index.toNat length = .error fault ↔
      (0x1000 ≤ machine.registers.index.toNat ∨ 0x1000 < machine.registers.index.toNat + length) ∧
        fault = .memoryAccess
          (if 0x1000 ≤ machine.registers.index.toNat then machine.registers.index.toNat
          else 0x1000) false := by
  have first : machine.memory.readable machine.registers.index.toNat = true ↔
      ¬0x1000 ≤ machine.registers.index.toNat := by
    simp only [Memory.readable, formed.memorySize, Memory.standardSize, Bool.and_eq_true,
      decide_eq_true_eq]
    omega
  have within : (machine.memory.readable machine.registers.index.toNat = true ∧
      (machine.registers.index.toNat : Int) + length ≤ machine.memory.size) ↔
        ¬(0x1000 ≤ machine.registers.index.toNat ∨
          0x1000 < machine.registers.index.toNat + length) := by
    rw [first, formed.memorySize]
    simp only [Memory.standardSize]
    omega
  rw [Memory.readBlock_eq_error, within, Classical.not_not, formed.memorySize]
  simp only [first, ite_not]
  rfl

/-- A fault has one of the causes. -/
theorem WellFormed.meets_of_step (formed : machine.WellFormed)
    (failed : machine.step.result = .error fault) : machine.Meets fault := by
  rcases step_eq_error.mp failed with unfetched | ⟨word, fetched, ⟨meaningless, rfl⟩ | found⟩
  · by_cases apart : machine.Misplaced
    · rw [formed.fetch_eq.1 apart] at unfetched
      cases unfetched
      exact .misplaced apart
    · rw [formed.fetch_eq.2 apart] at unfetched
      cases unfetched
  · obtain ⟨placed, rfl⟩ := formed.placed_of_fetch fetched
    exact .meaningless placed (Operation.ofWord_eq_none_iff.mp meaningless)
  · obtain ⟨operation, known, refused⟩ := found
    obtain ⟨placed, rfl⟩ := formed.placed_of_fetch fetched
    have faces : machine.Faces operation := ⟨placed, Operation.accepts_of_ofWord known⟩
    have cause := carryOut_eq_error.mp refused
    cases operation
    case ret =>
      obtain ⟨empty, rfl⟩ := CallStack.pop_eq_error.mp cause
      exact .underflow faces empty
    case call =>
      obtain ⟨full, rfl⟩ := CallStack.push_eq_error.mp cause
      rw [formed.stackCapacity] at full
      have depth : machine.registers.stack.depth = 16 := Nat.le_antisymm formed.stackDepth full
      rw [depth]
      exact .overflow faces depth
    case storeDecimal =>
      have measured : (decimalDigits (machine.registers.get machine.wordHere.x)).length = 3 := rfl
      obtain ⟨outside, rfl⟩ :=
        (formed.writeBlock_eq_error_iff measured (by decide)).mp cause
      exact .store (.inl ⟨faces, rfl⟩) outside
    case store =>
      have measured := machine.registers.length_upTo machine.wordHere.x
      obtain ⟨outside, rfl⟩ :=
        (formed.writeBlock_eq_error_iff measured (Nat.succ_pos _)).mp cause
      exact .store (.inr ⟨faces, rfl⟩) outside
    case load =>
      obtain ⟨outside, rfl⟩ := formed.readBlock_eq_error_iff.mp cause
      exact .read (.inl ⟨faces, rfl⟩) outside
    case draw =>
      obtain ⟨outside, rfl⟩ := formed.readBlock_eq_error_iff.mp cause
      exact .read (.inr ⟨faces, rfl⟩) outside
    all_goals exact cause.elim

/-- A cause leads to its fault. -/
theorem WellFormed.step_of_meets (formed : machine.WellFormed) (meets : machine.Meets fault) :
    machine.step.result = .error fault := by
  cases meets with
  | misplaced apart => exact step_eq_error.mpr (.inl (formed.fetch_eq.1 apart))
  | meaningless placed formless =>
    have meaningless := Operation.ofWord_eq_none_iff.mpr formless
    exact step_eq_error.mpr
      (.inr ⟨machine.wordHere, formed.fetch_eq.2 placed, .inl ⟨meaningless, rfl⟩⟩)
  | underflow faces empty =>
    apply formed.step_eq_error_of_faces faces (by decide) rfl
    exact carryOut_eq_error.mpr (CallStack.pop_eq_error.mpr ⟨empty, rfl⟩)
  | overflow faces full =>
    apply formed.step_eq_error_of_faces faces (by decide) rfl
    have depth : machine.registers.stack.depth = 16 := full
    refine carryOut_eq_error.mpr (CallStack.push_eq_error.mpr ⟨?_, by rw [depth]⟩)
    rw [formed.stackCapacity, depth]
    exact Nat.le_refl _
  | store stores outside =>
    rcases stores with ⟨faces, rfl⟩ | ⟨faces, rfl⟩
    · apply formed.step_eq_error_of_faces faces (by decide) rfl
      have measured : (decimalDigits (machine.registers.get machine.wordHere.x)).length = 3 := rfl
      exact carryOut_eq_error.mpr
        ((formed.writeBlock_eq_error_iff measured (by decide)).mpr ⟨outside, rfl⟩)
    · apply formed.step_eq_error_of_faces faces (by decide) rfl
      have measured := machine.registers.length_upTo machine.wordHere.x
      exact carryOut_eq_error.mpr
        ((formed.writeBlock_eq_error_iff measured (Nat.succ_pos _)).mpr ⟨outside, rfl⟩)
  | read reads outside =>
    rcases reads with ⟨faces, rfl⟩ | ⟨faces, rfl⟩
    · apply formed.step_eq_error_of_faces faces (by decide) rfl
      exact carryOut_eq_error.mpr (formed.readBlock_eq_error_iff.mpr ⟨outside, rfl⟩)
    · apply formed.step_eq_error_of_faces faces (by decide) rfl
      exact carryOut_eq_error.mpr (formed.readBlock_eq_error_iff.mpr ⟨outside, rfl⟩)

/-- A step that ends as a step should: its instruction is complete, or waits for a key. -/
def Succeeds (machine : Machine) : Prop :=
  ∃ next, machine.step.result = .ok (.executed, next) ∨ machine.step.result = .ok (.waiting, next)

/-- A step succeeds if it neither fails nor loses the time. -/
theorem succeeds_iff :
    machine.Succeeds ↔
      (∀ fault, machine.step.result ≠ .error fault) ∧ ¬machine.LosesTime := by
  rw [losesTime_iff, Succeeds]
  cases machine.step.result with
  | error fault => simp
  | ok ended =>
    obtain ⟨progress, next⟩ := ended
    cases progress <;> simp

/-- On every reachable machine a step fails exactly for the causes of faults, each with its
fault. Where none is met it succeeds, unless the sound timer is set at a time that cannot
be told. -/
theorem Reachable.step_fails_iff (reached : Reachable machine) :
    (∀ fault, machine.step.result = .error fault ↔ machine.Meets fault) ∧
      (machine.Succeeds ↔ (∀ fault, ¬machine.Meets fault) ∧ ¬machine.LosesTime) := by
  have formed := reached.wellFormed
  have fails : ∀ fault, machine.step.result = .error fault ↔ machine.Meets fault :=
    fun _ => ⟨formed.meets_of_step, formed.step_of_meets⟩
  refine ⟨fails, ?_⟩
  rw [succeeds_iff]
  exact and_congr_left' (forall_congr' fun fault => not_congr (fails fault))

/-- A program that stores the digits of a register, where the index has not been set. -/
def digitsProgram : List UInt8 := [0xF0, 0x33]

/-- The index of a fresh machine lies in the reserved area, and the first step fails for it. -/
theorem step_fails_of_digitsProgram :
    let machine := (ofRate 700 .chip8 0 .mute).serveOne (.load digitsProgram none)
    Reachable machine ∧ machine.step.result = .error (.memoryAccess 0 true) := by
  intro machine
  have reached : Reachable machine := (Reachable.built (isBuilt_mute (by decide) .chip8 0)).serve _
  have fits : digitsProgram.length ≤ (ofRate 700 .chip8 0 .mute).memory.capacity := by
    decide +kernel
  obtain ⟨beeper, loaded⟩ := serveOne_load_eq fits none
  change machine = _ at loaded
  have installed :
      machine.memory = (ofRate 700 .chip8 0 .mute).memory.install digitsProgram := by
    rw [loaded]
  have pc : machine.registers.pc.toNat = Memory.programStart + 0 := by
    rw [loaded]
    rfl
  have index : machine.registers.index.toNat = 0 := by
    rw [loaded]
    rfl
  have fetched : machine.fetch.result = .ok 0xF033 :=
    fetch_installed installed (by decide +kernel) fits 0 pc rfl (by decide)
  obtain ⟨placed, word⟩ := reached.wellFormed.placed_of_fetch fetched
  have accepted : Operation.storeDecimal.pattern.accepts machine.wordHere = true := by
    rw [← word]
    rfl
  have below : machine.registers.index.toNat < 0x200 := by
    rw [index]
    decide
  have meets : machine.Meets (.memoryAccess 0 true) := by
    have cause := Meets.store (.inl ⟨⟨placed, accepted⟩, rfl⟩) (.inl below)
    simpa [index] using cause
  exact ⟨reached, (reached.step_fails_iff.1 _).mpr meets⟩

/-- At a time that cannot be told a step meets no cause of a fault, and does not succeed. -/
theorem not_succeeds_of_lateHistory :
    let machine := (ofRate 700 .chip8 0 .mute).serveAll (lateHistory endless)
    Reachable machine ∧ (∀ fault, ¬machine.Meets fault) ∧ ¬machine.Succeeds := by
  intro machine
  have reached : Reachable machine :=
    (Reachable.built (isBuilt_mute (by decide) .chip8 0)).serveAll _
  obtain ⟨beeper, late⟩ := serveAll_lateHistory endless (by decide +kernel)
  change machine = _ at late
  have lost : machine.clock.seconds = .error .largeQuotient := by
    rw [late]
    exact seconds_of_late
  have installed : machine.memory = Memory.standard.install lateProgram := by rw [late]
  have pc : machine.registers.pc.toNat = Memory.programStart + 2 := by
    rw [late]
    rfl
  have fetched : machine.fetch.result = .ok 0xF018 :=
    fetch_installed installed (by decide +kernel) (by decide +kernel) 2 pc rfl (by decide)
  obtain ⟨next, untimed⟩ := step_untimed_iff.mpr ⟨⟨0xF018, fetched, rfl⟩, lost⟩
  refine ⟨reached, ?_, ?_⟩
  · intro fault meets
    have failed := untimed.symm.trans (reached.wellFormed.step_of_meets meets)
    cases failed
  · rintro ⟨other, executed | waiting⟩
    · cases untimed.symm.trans executed
    · cases untimed.symm.trans waiting

end Machine

end Chip8
