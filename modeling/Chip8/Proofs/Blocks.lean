import Chip8.Proofs.InPlace

/-!
# Blocks in place

An address moves on or off the stack, or nothing happens. Bytes and registers that are
written one after the other come to the same as the block that is written at once. A
block of memory that is refused is refused before its first byte, since between two
addresses of the program area there are only addresses of that area.
-/

namespace Chip8

/-- The index may move before or after registers are loaded. -/
theorem Registers.moveIndex_loadFrom (registers : Registers) (offset first : Nat)
    (bytes : List UInt8) :
    (registers.moveIndex offset).loadFrom first bytes =
      (registers.loadFrom first bytes).moveIndex offset := by
  induction bytes generalizing registers first with
  | nil => rfl
  | cons value rest inductionHypothesis =>
    exact inductionHypothesis { registers with v := registers.v.setIfInBounds first value } _

namespace InPlace

variable {machine : Machine}

/-- The top address is there, or nothing is taken. -/
theorem run_popStack (machine : Machine) :
    popStack.run machine =
      match machine.registers.stack.pop with
      | .ok (address, stack) =>
        .ok address { machine with registers := { machine.registers with stack } }
      | .error fault => .error (.fault fault) machine := by
  cases entries : machine.registers.stack.entries with
  | nil =>
    simp only [popStack, run_get_bind, CallStack.pop, entries]
    rfl
  | cons address rest =>
    simp only [popStack, run_get_bind, CallStack.pop, entries]
    rfl

/-- There is room for an address, or nothing is put down. -/
theorem run_pushStack (machine : Machine) (address : UInt16) :
    (pushStack address).run machine =
      match machine.registers.stack.push address with
      | .ok stack => .ok () { machine with registers := { machine.registers with stack } }
      | .error fault => .error (.fault fault) machine := by
  by_cases full : machine.registers.stack.capacity ≤ machine.registers.stack.depth
  · simp only [pushStack, run_get_bind, CallStack.push, full, if_true]
    rfl
  · simp only [pushStack, run_get_bind, CallStack.push, full, if_false]
    rfl

/-- A look at an address that can be written changes nothing. -/
theorem run_checkWritable {address : Int} (inside : machine.memory.writable address = true) :
    (checkWritable address).run machine = .ok () machine := by
  change (if machine.memory.writable address = true then _ else _ : InPlace Unit).run machine = _
  rw [if_pos inside]
  rfl

/-- An address that cannot be written breaks off. -/
theorem run_checkWritable_of_not {address : Int}
    (outside : ¬machine.memory.writable address = true) :
    (checkWritable address).run machine = .error (.fault (.memoryAccess address true)) machine := by
  change (if machine.memory.writable address = true then _ else _ : InPlace Unit).run machine = _
  rw [if_neg outside]
  rfl

/-- Bytes that can be written one after the other are written one after the other. -/
theorem run_writeBytes {values : List UInt8} {address : Int} {next : Memory}
    (written : (machine.memory.writeBytes address values).result = .ok next) :
    (writeBytes address values).run machine = .ok () { machine with memory := next } := by
  induction values generalizing machine address with
  | nil =>
    cases written
    rfl
  | cons value rest inductionHypothesis =>
    obtain ⟨first, head, tail⟩ := Traced.result_bind_eq_ok.mp written
    obtain ⟨inside, rfl⟩ := Memory.writeByte_eq_ok.mp head
    have wrote : (writeByte address value).run machine = .ok ()
        { machine with
          memory := { machine.memory with
            bytes := machine.memory.bytes.setIfInBounds address.toNat value } } :=
      run_bind_of_ok (run_checkWritable inside)
    exact (run_bind_of_ok wrote).trans (inductionHypothesis tail)

/-- No byte of a block is written before both of its ends were found writable, and then
no byte fails. -/
theorem run_writeBlock (machine : Machine) (values : List UInt8) (address : Int) :
    (writeBlock address values).run machine =
      match (machine.memory.writeBlock address values).result with
      | .ok next => .ok () { machine with memory := next }
      | .error fault => .error (.fault fault) machine := by
  by_cases filled : values.isEmpty = false
  case neg =>
    have empty : values = [] := by simpa using filled
    rw [empty]
    rfl
  have written : writeBlock address values = (do
      checkWritable address
      checkWritable (address + values.length - 1)
      writeBytes address values) := by
    rw [writeBlock, filled]
    rfl
  rw [written]
  by_cases first : machine.memory.writable address = true
  case neg =>
    rw [Memory.writeBlock_eq_fail_first filled first]
    exact run_bind_of_error (run_checkWritable_of_not first)
  rw [run_bind_of_ok (run_checkWritable first)]
  by_cases last : machine.memory.writable (address + values.length - 1) = true
  case neg =>
    rw [Memory.writeBlock_eq_fail_last filled first last]
    exact run_bind_of_error (run_checkWritable_of_not last)
  rw [run_bind_of_ok (run_checkWritable last),
    Memory.writeBlock_eq_writeBytes filled first last]
  obtain ⟨next, complete⟩ :=
    Memory.writeBytes_succeeds fun _ bound => Memory.writable_between first last bound
  rw [complete]
  exact run_writeBytes complete

/-- Registers that exist are loaded one after the other. -/
theorem run_loadFrom (machine : Machine) {bytes : List UInt8} {first : Nat}
    (fits : first + bytes.length ≤ 16) :
    (loadFrom first bytes).run machine =
      .ok () { machine with registers := machine.registers.loadFrom first bytes } := by
  induction bytes generalizing machine first with
  | nil => rfl
  | cons value rest inductionHypothesis =>
    have named : first < 16 := by
      simp only [List.length_cons] at fits
      omega
    have loaded : (setNumbered first value).run machine = .ok ()
        { machine with
          registers := { machine.registers with
            v := machine.registers.v.setIfInBounds first value } } := by
      have same : machine.registers.v.set first value named =
          machine.registers.v.setIfInBounds first value := by
        simp [Vector.setIfInBounds, Vector.set, Array.setIfInBounds, named]
      rw [setNumbered, dif_pos named, ← same]
      rfl
    refine (run_bind_of_ok loaded).trans (inductionHypothesis _ ?_)
    simp only [List.length_cons] at fits
    omega

end InPlace

end Chip8
