import Chip8.Proofs.Faults
import Chip8.Proofs.Replaying
import Chip8.Proofs.Saving

/-!
# Overlooked reads

A step reads the two bytes of its word, and two operations read a block of memory after that:
one loads it into registers, the other draws it. The bytes of the word are read one by one and
reported as they are read. The block is read as a whole, and reported by nobody.

What is reported of the reads is therefore the same for all operations. It names all that a step
reads only where the block has no byte, or none but those of the word.
-/

namespace Chip8

namespace Memory

variable {memory : Memory} {address : Int}

/-- What is written is reported as written. -/
theorem write_of_writeBytes {values : List UInt8} {access : Access}
    (member : access ∈ (memory.writeBytes address values).accesses) :
    ∃ place value, access = .write place value := by
  induction values generalizing memory address with
  | nil => cases member
  | cons value rest inductionHypothesis =>
    rw [writeBytes, Traced.accesses_bind] at member
    rcases List.mem_append.mp member with head | tail
    · unfold writeByte at head
      split at head
      · unfold report at head
        split at head
        · exact ⟨_, _, List.eq_of_mem_singleton head⟩
        · cases head
      · cases head
    · split at tail
      · exact inductionHypothesis tail
      · cases tail

end Memory

namespace Machine

variable {machine next : Machine} {word : Word} {operation : Operation} {progress : Progress}

/-- The length of the block that an operation reads at the index. -/
def blockLength (machine : Machine) (word : Word) : Operation → Nat
  | .load => word.x.val + 1
  | .draw => machine.spriteLength word.n
  | _ => 0

/-- The addresses of the block. -/
def incoming (machine : Machine) (word : Word) (operation : Operation) : List Nat :=
  (List.range (machine.blockLength word operation)).map (machine.registers.index.toNat + ·)

/-- A step that succeeds at one of the two operations was handed the bytes at these addresses. -/
theorem Finds.block_read (finds : machine.Finds word operation)
    (stepped : machine.step.result = .ok (progress, next))
    (reads : operation = .load ∨ operation = .draw) :
    machine.memory.readBlock machine.registers.index.toNat
        (machine.blockLength word operation) =
      .ok ((machine.incoming word operation).map machine.memory.byteAt) := by
  obtain ⟨found, after, carried, _⟩ := finds.carried stepped
  cases read : machine.memory.readBlock machine.registers.index.toNat
      (machine.blockLength word operation) with
  | error fault =>
    -- The operation would have failed with the read.
    have failed : (machine.carryOut word operation).result = .error fault := by
      rcases reads with rfl | rfl
      · exact carryOut_eq_error.mpr read
      · exact carryOut_eq_error.mpr read
    cases carried.symm.trans failed
  | ok bytes =>
    rw [← (Memory.readBlock_eq_ok.mp read).2, incoming, List.map_map]
    rfl

/-- The step reports what it reads: there is a line for each byte of the word and for each byte
of the block, with the address and the value that was read. -/
def ShowsReads (machine : Machine) : Prop :=
  ∀ word operation, machine.Finds word operation →
    ∀ address ∈ [machine.registers.pc.toNat, machine.registers.pc.toNat + 1] ++
        machine.incoming word operation,
      (Access.read address (machine.memory.byteAt address)).line ∈
        machine.step.accesses.map Access.line

/-- A step that succeeds shows the reads of its two bytes, and no other. -/
theorem shown_iff (finds : machine.Finds word operation) (traced : machine.memory.traced = true)
    (stepped : machine.step.result = .ok (progress, next)) (address : Nat) (value : UInt8) :
    (Access.read address value).line ∈ machine.step.accesses.map Access.line ↔
      (address = machine.registers.pc.toNat ∨ address = machine.registers.pc.toNat + 1) ∧
        value = machine.memory.byteAt address := by
  obtain ⟨found, after, carried, _⟩ := finds.carried stepped
  have block : Access.read address value ∉ (machine.writing word operation).accesses := by
    intro member
    have written := (carryOut_footprint carried).written
    rw [writing, Memory.writeBlock_eq_of_ok written] at member
    obtain ⟨_, _, impossible⟩ := Memory.write_of_writeBytes member
    cases impossible
  rw [List.mem_map_of_injective Access.line_injective, finds.step_accesses, List.mem_append,
    fetch_accesses finds.1, Memory.report, Memory.report, if_pos traced, if_pos traced]
  simp only [List.cons_append, List.nil_append, List.mem_cons, List.not_mem_nil, or_false, block,
    Access.read.injEq]
  constructor
  · rintro (⟨rfl, rfl⟩ | ⟨rfl, rfl⟩)
    · exact ⟨.inl rfl, rfl⟩
    · exact ⟨.inr rfl, rfl⟩
  · rintro ⟨rfl | rfl, rfl⟩
    · exact .inl ⟨rfl, rfl⟩
    · exact .inr ⟨rfl, rfl⟩

/-- It shows all its reads exactly if it reads no block beside its word. -/
theorem showsReads_iff (finds : machine.Finds word operation)
    (traced : machine.memory.traced = true)
    (stepped : machine.step.result = .ok (progress, next)) :
    machine.ShowsReads ↔
      ∀ address ∈ machine.incoming word operation,
        address = machine.registers.pc.toNat ∨ address = machine.registers.pc.toNat + 1 := by
  have shown := shown_iff finds traced stepped
  constructor
  · intro shows address member
    have line := shows word operation finds address (List.mem_append_right _ member)
    exact ((shown _ _).mp line).1
  · intro within other meant found address member
    obtain rfl : other = word := Except.ok.inj (found.1.symm.trans finds.1)
    obtain rfl : meant = operation := Option.some.inj (found.2.symm.trans finds.2)
    apply (shown _ _).mpr
    refine ⟨?_, rfl⟩
    rcases List.mem_append.mp member with fetched | block
    · simpa using fetched
    · exact within address block

/-- A machine that reports its accesses finds what it found before. -/
theorem Finds.withTrace (finds : machine.Finds word operation) (on : Bool) :
    (machine.withTrace on).Finds word operation := by
  refine ⟨?_, finds.2⟩
  rw [← finds.1, fetch_result, fetch_result]
  rfl

/-- A program that loads the first byte of a glyph. -/
def peekProgram : List UInt8 := [0xA0, 0x50, 0xF0, 0x65]

/-- The machine with the program. -/
def peekStart : Machine := (ofRate 700 .chip8 0 .mute).serveOne (.load peekProgram none)

/-- The first step is made, and the reports are switched on. -/
def peekMachine : Machine := (peekStart.serveOne .step).withTrace true

theorem peekStart_stands : peekStart.Stands peekProgram 0 := by
  have fits : peekProgram.length ≤ Memory.standard.capacity := by
    rw [Memory.standard_capacity]
    decide
  exact (stands_of_load fits).1

/-- First the address of the glyph is loaded. -/
theorem peekStart_finds : peekStart.Finds 0xA050 .loadIndex :=
  peekStart_stands.finds (by decide) (by decide) (by decide)

/-- Then its byte is, with the address in the index. -/
theorem peekMachine_finds :
    peekMachine.Finds 0xF065 .load ∧ peekMachine.registers.pc.toNat = 0x202 ∧
      peekMachine.registers.index = 0x50 ∧ peekMachine.memory.size = 0x1000 := by
  obtain ⟨next, stepped, stands, index, _⟩ :=
    peekStart_stands.loadIndex peekStart_finds (by decide)
  have machine : peekMachine = next.withTrace true := by
    rw [peekMachine, serveOne_step, afterStep_of_ok stepped]
  have found : next.Finds 0xF065 .load := stands.finds (by decide) (by decide) (by decide)
  have size : next.memory.size = 0x1000 := by
    rw [stands.memory, (Memory.install_keeps (by decide +kernel) stands.fits).1,
      Memory.standard_size]
    rfl
  rw [machine]
  exact ⟨found.withTrace true, stands.pc, index, size⟩

/-- This step succeeds. -/
theorem peekMachine_step : ∃ next, peekMachine.step.result = .ok (.executed, next) := by
  obtain ⟨finds, _, index, size⟩ := peekMachine_finds
  obtain ⟨bytes, read⟩ : ∃ bytes, peekMachine.memory.readBlock
      peekMachine.registers.index.toNat ((0xF065 : Word).x.val + 1) = .ok bytes := by
    refine ⟨_, Memory.readBlock_eq_ok.mpr ⟨⟨Memory.readable_iff.mpr ?_, ?_⟩, rfl⟩⟩
    · rw [index, size]
      decide
    · rw [index, size]
      decide
  obtain ⟨next, stepped, _⟩ := finds.step_load read
  exact ⟨next, stepped⟩

/-- What the reports of a step tell about its reads, and when this is all. With reports switched
on, a step that succeeds has fetched a word and found its operation, and has read the block of the
operation. It reports as read the two bytes of the word and nothing else, so that it shows all its
reads exactly if its operation reads no block, or none beside the word. -/
theorem step_showsReads_iff (traced : machine.memory.traced = true)
    (stepped : machine.step.result = .ok (progress, next)) :
    ∃ word operation, machine.Finds word operation ∧
      (operation = .load ∨ operation = .draw →
        machine.memory.readBlock machine.registers.index.toNat
            (machine.blockLength word operation) =
          .ok ((machine.incoming word operation).map machine.memory.byteAt)) ∧
      (∀ address value,
        (Access.read address value).line ∈ machine.step.accesses.map Access.line ↔
          (address = machine.registers.pc.toNat ∨ address = machine.registers.pc.toNat + 1) ∧
            value = machine.memory.byteAt address) ∧
      (machine.ShowsReads ↔
        ∀ address ∈ machine.incoming word operation,
          address = machine.registers.pc.toNat ∨ address = machine.registers.pc.toNat + 1) := by
  obtain ⟨word, operation, fetched, known, _⟩ := step_eq_ok.mp stepped
  have finds : machine.Finds word operation := ⟨fetched, known⟩
  exact ⟨word, operation, finds, finds.block_read stepped, shown_iff finds traced stepped,
    showsReads_iff finds traced stepped⟩

/-- The step that loads the address reads no block, and shows all its reads. -/
theorem showsReads_of_plain :
    let machine := peekStart.withTrace true
    machine.memory.traced = true ∧ (∃ next, machine.step.result = .ok (.executed, next)) ∧
      machine.ShowsReads := by
  intro machine
  have finds : machine.Finds 0xA050 .loadIndex := peekStart_finds.withTrace true
  obtain ⟨next, stepped⟩ : ∃ next, machine.step.result = .ok (.executed, next) :=
    ⟨_, finds.step rfl⟩
  obtain ⟨word, operation, found, _, _, exact⟩ := step_showsReads_iff rfl stepped
  refine ⟨rfl, ⟨next, stepped⟩, exact.mpr ?_⟩
  obtain rfl : word = 0xA050 := Except.ok.inj (found.1.symm.trans finds.1)
  obtain rfl : operation = .loadIndex := Option.some.inj (found.2.symm.trans finds.2)
  intro address member
  cases member

/-- The step that loads the byte of the glyph succeeds, and does not show that it has read it. -/
theorem not_showsReads_of_peek :
    peekMachine.memory.traced = true ∧
      (∃ next, peekMachine.step.result = .ok (.executed, next)) ∧
      "read: addr=050 val=F0" ∉ peekMachine.step.accesses.map Access.line ∧
      ¬peekMachine.ShowsReads := by
  obtain ⟨finds, pc, index, _⟩ := peekMachine_finds
  obtain ⟨next, stepped⟩ := peekMachine_step
  have apart : ¬(0x50 = peekMachine.registers.pc.toNat ∨
      0x50 = peekMachine.registers.pc.toNat + 1) := by
    rw [pc]
    decide
  refine ⟨rfl, ⟨next, stepped⟩, ?_, ?_⟩
  · have line : "read: addr=050 val=F0" = (Access.read 0x50 0xF0).line := by decide +kernel
    rw [line, shown_iff finds rfl stepped]
    intro shown
    exact apart shown.1
  · rw [showsReads_iff finds rfl stepped]
    intro within
    have glyph : 0x50 ∈ peekMachine.incoming 0xF065 .load := by
      rw [incoming, index]
      decide
    exact apart (within 0x50 glyph)

end Machine

end Chip8
