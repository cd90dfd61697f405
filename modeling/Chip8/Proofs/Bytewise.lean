import Chip8.Proofs.Blocks

/-!
# Blocks byte by byte

A block of memory is checked at its ends only, and read or written as a whole. All the same it
comes to as many accesses of single bytes: it succeeds exactly if each of these would, and then
hands out the same bytes or leaves the same memory. The area of an access has no gaps, so its
ends decide about all of it, be the block below memory, across its end, or longer than it.

A block that is refused is refused before its first byte. So neither a block nor a byte that is
refused changes anything.
-/

namespace Chip8

namespace Memory

variable {memory next : Memory} {address : Int} {values : List UInt8} {length offset : Nat}

/-- Write consecutive bytes, each by a call of its own. -/
def writeEach (memory : Memory) (address : Int) (values : List UInt8) : Traced Memory :=
  values.zipIdx.foldlM (fun memory entry => memory.writeByte (address + entry.2) entry.1) memory

/-- The calls are those that a block makes after its ends were checked. -/
theorem writeEach_eq_writeBytes (memory : Memory) (address : Int) (values : List UInt8) :
    memory.writeEach address values = memory.writeBytes address values := by
  have behind (start : Nat) (memory : Memory) :
      (values.zipIdx start).foldlM
          (fun memory entry => memory.writeByte (address + entry.2) entry.1) memory =
        memory.writeBytes (address + start) values := by
    induction values generalizing start memory with
    | nil => rfl
    | cons value rest inductionHypothesis =>
      rw [List.zipIdx_cons, List.foldlM_cons, writeBytes]
      refine congrArg (memory.writeByte (address + start) value >>= ·) (funext fun next => ?_)
      rw [inductionHypothesis, Int.natCast_succ, Int.add_assoc]
  have whole := behind 0 memory
  rw [Int.natCast_zero, Int.add_zero] at whole
  exact whole

/-- Bytes that were written one after the other are there. -/
theorem byteAt_of_writeBytes (written : (memory.writeBytes address values).result = .ok next)
    (inside : offset < values.length) :
    next.byteAt (address.toNat + offset) = values[offset] := by
  induction values generalizing memory address offset with
  | nil => cases inside
  | cons value rest inductionHypothesis =>
    obtain ⟨first, head, tail⟩ := Traced.result_bind_eq_ok.mp written
    have low := (writable_iff.mp (writeByte_eq_ok.mp head).1).1
    simp only [programStart] at low
    cases offset with
    | zero =>
      -- The bytes behind it are written elsewhere.
      have kept : next.byteAt address.toNat = first.byteAt address.toNat := by
        refine Classical.byContradiction fun changed => ?_
        have := within_of_writeBytes tail changed
        omega
      rw [Nat.add_zero, kept, byteAt_of_writeByte head, if_pos rfl]
      rfl
    | succ offset =>
      have behind : address.toNat + (offset + 1) = (address + 1).toNat + offset := by omega
      rw [behind]
      exact inductionHypothesis tail (Nat.lt_of_succ_lt_succ inside)

/-- Bytes beside those that were written are as before. -/
theorem byteAt_beside_writeBytes (written : (memory.writeBytes address values).result = .ok next)
    {other : Nat} (beside : (other : Int) < address ∨ address + values.length ≤ other) :
    next.byteAt other = memory.byteAt other := by
  refine Classical.byContradiction fun changed => ?_
  have := within_of_writeBytes written changed
  omega

/-- A block that was written is there, and the bytes beside it are as before. -/
theorem byteAt_of_writeBlock {start : Nat}
    (written : (memory.writeBlock start values).result = .ok next)
    (inside : offset < values.length) :
    next.byteAt (start + offset) = values[offset] :=
  byteAt_of_writeBytes (writeBytes_of_writeBlock written) inside

theorem byteAt_beside_writeBlock {start other : Nat}
    (written : (memory.writeBlock start values).result = .ok next)
    (beside : other < start ∨ start + values.length ≤ other) :
    next.byteAt other = memory.byteAt other :=
  byteAt_beside_writeBytes (writeBytes_of_writeBlock written) (by omega)

/-- A block is written exactly if each of its addresses lies in the program area. -/
theorem writeBlock_succeeds_iff :
    (∃ next, (memory.writeBlock address values).result = .ok next) ↔
      ∀ offset : Nat, offset < values.length → memory.writable (address + offset) = true := by
  by_cases filled : values.isEmpty = false
  case neg =>
    have empty : values = [] := by simpa using filled
    rw [empty]
    exact ⟨fun _ _ inside => absurd inside (Nat.not_lt_zero _), fun _ => ⟨memory, rfl⟩⟩
  have positive : 0 < values.length := List.length_pos_iff.mpr (by simpa using filled)
  constructor
  · rintro ⟨next, written⟩ offset inside
    by_cases first : memory.writable address = true
    case neg =>
      rw [writeBlock_eq_fail_first filled first] at written
      cases written
    by_cases last : memory.writable (address + values.length - 1) = true
    case neg =>
      rw [writeBlock_eq_fail_last filled first last] at written
      cases written
    exact writable_between first last inside
  · intro inside
    have first : memory.writable address = true := by simpa using inside 0 positive
    have last : memory.writable (address + values.length - 1) = true := by
      have end_ : address + ((values.length - 1 : Nat) : Int) = address + values.length - 1 := by
        omega
      rw [← end_]
      exact inside _ (Nat.sub_lt positive Nat.one_pos)
    rw [writeBlock_eq_writeBytes filled first last]
    exact writeBytes_succeeds inside

/-- A byte is written exactly in the program area. -/
theorem writeByte_succeeds_iff {value : UInt8} :
    (∃ next, (memory.writeByte address value).result = .ok next) ↔
      memory.writable address = true := by
  constructor
  · rintro ⟨next, written⟩
    exact (writeByte_eq_ok.mp written).1
  · intro inside
    exact ⟨_, writeByte_eq_ok.mpr ⟨inside, rfl⟩⟩

/-- The byte of a number is its remainder. -/
theorem toNat_ofInt (number : Int) : ((UInt8.ofInt number).toNat : Int) = number % 256 := by
  unfold UInt8.ofInt
  rw [UInt8.toNat_ofNat']
  omega

/-- Writing a block comes to the same as writing its bytes. Numbers are reduced to bytes first. -/
structure WritesBytewise (memory : Memory) (address : Int) (numbers : List Int) : Prop where
  succeeds_iff :
    (∃ next, (memory.writeBlock address (numbers.map UInt8.ofInt)).result = .ok next) ↔
      ∀ (offset : Nat) (inside : offset < numbers.length), ∃ next,
        (memory.writeByte (address + offset) (UInt8.ofInt numbers[offset])).result = .ok next
  /-- Where it succeeds, it leaves the memory that the bytes leave, with the same reports. -/
  same : ∀ next, (memory.writeBlock address (numbers.map UInt8.ofInt)).result = .ok next →
    memory.writeEach address (numbers.map UInt8.ofInt) =
      memory.writeBlock address (numbers.map UInt8.ofInt)
  stored : ∀ next, (memory.writeBlock address (numbers.map UInt8.ofInt)).result = .ok next →
    ∀ (offset : Nat) (inside : offset < numbers.length),
      ((next.byteAt (address.toNat + offset)).toNat : Int) = numbers[offset] % 256
  kept : ∀ next, (memory.writeBlock address (numbers.map UInt8.ofInt)).result = .ok next →
    next.size = memory.size ∧
      ∀ other : Nat, (other : Int) < address ∨ address + numbers.length ≤ other →
        next.byteAt other = memory.byteAt other
  empty : numbers = [] →
    (memory.writeBlock address (numbers.map UInt8.ofInt)).result = .ok memory

/-- Reading a block comes to the same as reading its bytes. -/
structure ReadsBytewise (memory : Memory) (address : Int) (length : Nat) : Prop where
  succeeds_iff :
    (∃ bytes, memory.readBlock address length = .ok bytes) ↔
      ∀ offset : Nat, offset < length →
        ∃ byte, (memory.readByte (address + offset)).result = .ok byte
  same : ∀ bytes, memory.readBlock address length = .ok bytes →
    bytes.length = length ∧ ∀ (offset : Nat) (inside : offset < bytes.length),
      (memory.readByte (address + offset)).result = .ok bytes[offset]

end Memory

namespace InPlace

variable {α : Type} {machine : Machine} {address : Int}

/-- Read one byte of memory. -/
def readByte (address : Int) : InPlace UInt8 := do
  taking ((← get).memory.readByte address).result

/-- Read a block of memory. -/
def readBlock (address : Int) (length : Nat) : InPlace (List UInt8) := do
  taking ((← get).memory.readBlock address length)

/-- Where the access breaks off, it has changed nothing. -/
def Harmless (access : InPlace α) : Prop :=
  ∀ machine reason after, access.run machine = .error reason after → after = machine

/-- A look at a result changes nothing. -/
theorem run_taking (result : Except Fault α) (machine : Machine) :
    (taking result).run machine =
      match result with
      | .ok value => .ok value machine
      | .error fault => .error (.fault fault) machine := by
  cases result <;> rfl

/-- A byte that is read is taken from the memory of the machine. -/
theorem run_readByte (machine : Machine) (address : Int) :
    (readByte address).run machine =
      match (machine.memory.readByte address).result with
      | .ok value => .ok value machine
      | .error fault => .error (.fault fault) machine := by
  rw [readByte, run_get_bind, run_taking]
  cases (machine.memory.readByte address).result <;> rfl

theorem run_readBlock (machine : Machine) (address : Int) (length : Nat) :
    (readBlock address length).run machine =
      match machine.memory.readBlock address length with
      | .ok bytes => .ok bytes machine
      | .error fault => .error (.fault fault) machine := by
  rw [readBlock, run_get_bind, run_taking]
  cases machine.memory.readBlock address length <;> rfl

/-- A byte is written, or nothing happens. -/
theorem run_writeByte (machine : Machine) (address : Int) (value : UInt8) :
    (writeByte address value).run machine =
      match (machine.memory.writeByte address value).result with
      | .ok next => .ok () { machine with memory := next }
      | .error fault => .error (.fault fault) machine := by
  by_cases inside : machine.memory.writable address = true
  · rw [Memory.writeByte, if_pos inside]
    exact run_bind_of_ok (run_checkWritable inside)
  · rw [Memory.writeByte, if_neg inside]
    exact run_bind_of_error (run_checkWritable_of_not inside)

/-- A byte that is not written leaves the machine as it was. -/
theorem harmless_writeByte (address : Int) (value : UInt8) :
    (writeByte address value).Harmless := by
  intro machine reason after broke
  rw [run_writeByte] at broke
  split at broke
  · cases broke
  · cases broke
    rfl

/-- Neither does a block that is not written change anything. -/
theorem harmless_writeBlock (address : Int) (values : List UInt8) :
    (writeBlock address values).Harmless := by
  intro machine reason after broke
  rw [run_writeBlock] at broke
  split at broke
  · cases broke
  · cases broke
    rfl

theorem harmless_readByte (address : Int) : (readByte address).Harmless := by
  intro machine reason after broke
  rw [run_readByte] at broke
  split at broke
  · cases broke
  · cases broke
    rfl

theorem harmless_readBlock (address : Int) (length : Nat) :
    (readBlock address length).Harmless := by
  intro machine reason after broke
  rw [run_readBlock] at broke
  split at broke
  · cases broke
  · cases broke
    rfl

end InPlace

namespace Memory

variable {memory next : Memory} {address : Int} {length : Nat}

/-- Whatever the memory, the address and the numbers are: a block is written as its bytes are. -/
theorem writesBytewise (memory : Memory) (address : Int) (numbers : List Int) :
    memory.WritesBytewise address numbers := by
  have bytes : (numbers.map UInt8.ofInt).length = numbers.length := List.length_map ..
  constructor
  case succeeds_iff =>
    rw [writeBlock_succeeds_iff, bytes]
    exact forall₂_congr fun _ _ => writeByte_succeeds_iff.symm
  case same =>
    intro next written
    rw [writeEach_eq_writeBytes, writeBlock_eq_of_ok written]
  case stored =>
    intro next written offset inside
    rw [byteAt_of_writeBytes (writeBytes_of_writeBlock written) (bytes ▸ inside),
      List.getElem_map, toNat_ofInt]
  case kept =>
    intro next written
    refine ⟨(writeBlock_keeps written).1, fun other beside => ?_⟩
    exact byteAt_beside_writeBytes (writeBytes_of_writeBlock written) (by rwa [bytes])
  case empty =>
    rintro rfl
    rfl

/-- A block that is not empty is read as its bytes are. -/
theorem readsBytewise (memory : Memory) (address : Int) (filled : 0 < length) :
    memory.ReadsBytewise address length := by
  constructor
  case succeeds_iff =>
    constructor
    · rintro ⟨bytes, read⟩ offset inside
      obtain ⟨⟨first, room⟩, _⟩ := readBlock_eq_ok.mp read
      have low := (readable_iff.mp first).1
      exact ⟨_, readByte_eq_ok.mpr ⟨readable_iff.mpr (by omega), rfl⟩⟩
    · intro each
      obtain ⟨_, head⟩ := each 0 filled
      obtain ⟨_, tail⟩ := each (length - 1) (Nat.sub_lt filled Nat.one_pos)
      have first := readable_iff.mp (readByte_eq_ok.mp head).1
      have last := readable_iff.mp (readByte_eq_ok.mp tail).1
      exact ⟨_, readBlock_eq_ok.mpr ⟨⟨readable_iff.mpr (by omega), by omega⟩, rfl⟩⟩
  case same =>
    intro bytes read
    have whole := length_of_readBlock read
    obtain ⟨⟨first, room⟩, rfl⟩ := readBlock_eq_ok.mp read
    refine ⟨whole, fun offset inside => ?_⟩
    rw [whole] at inside
    have low := (readable_iff.mp first).1
    have place : (address + offset).toNat = address.toNat + offset := by omega
    rw [List.getElem_map, List.getElem_range]
    exact readByte_eq_ok.mpr ⟨readable_iff.mpr (by omega), by rw [place]⟩

/-- A block is written as its bytes are, each of them with the number that is meant for it, and
read as its bytes are. The write changes the memory of a machine where it succeeds. Neither a
block nor a byte that is refused changes anything, whether it is written or read. -/
theorem blocks_bytewise (memory : Memory) (address : Int) (numbers : List Int)
    (filled : 0 < length) :
    memory.WritesBytewise address numbers ∧ memory.ReadsBytewise address length ∧
      (∀ machine : Machine, machine.memory = memory →
        (InPlace.writeBlock address (numbers.map UInt8.ofInt)).run machine =
          match (memory.writeBlock address (numbers.map UInt8.ofInt)).result with
          | .ok next => .ok () { machine with memory := next }
          | .error fault => .error (.fault fault) machine) ∧
      (InPlace.writeBlock address (numbers.map UInt8.ofInt)).Harmless ∧
      (∀ value, (InPlace.writeByte address value).Harmless) ∧
      (InPlace.readBlock address length).Harmless ∧ (InPlace.readByte address).Harmless := by
  refine ⟨writesBytewise memory address numbers, readsBytewise memory address filled, ?_,
    InPlace.harmless_writeBlock _ _, InPlace.harmless_writeByte address,
    InPlace.harmless_readBlock address length, InPlace.harmless_readByte address⟩
  rintro machine rfl
  exact InPlace.run_writeBlock machine _ address

/-- Two bytes can be written at the end of a standard memory, where three cannot be read. -/
theorem blocks_bytewise_of_end :
    0 < 3 ∧
      (∃ next, (standard.writeBlock 0xFFE ([0x1FF, -2].map UInt8.ofInt)).result = .ok next ∧
        (next.byteAt 0xFFE).toNat = 255 ∧ (next.byteAt 0xFFF).toNat = 254) ∧
      ¬∃ bytes, standard.readBlock 0xFFE 3 = .ok bytes := by
  have filled : 0 < 3 := by decide
  obtain ⟨writes, reads, _⟩ := blocks_bytewise standard 0xFFE [0x1FF, -2] filled
  refine ⟨filled, ?_, ?_⟩
  · obtain ⟨next, written⟩ := writes.succeeds_iff.mpr fun offset inside =>
      writeByte_succeeds_iff.mpr (writable_iff.mpr (by
        have two : offset < 2 := inside
        rw [standard_size]
        simp only [programStart, standardSize]
        omega))
    have first := writes.stored next written 0 (by decide)
    have second := writes.stored next written 1 (by decide)
    exact ⟨next, written, Int.ofNat.inj first, Int.ofNat.inj second⟩
  · rw [reads.succeeds_iff]
    intro each
    obtain ⟨_, third⟩ := each 2 (by decide)
    have beyond := (readable_iff.mp (readByte_eq_ok.mp third).1).2
    rw [standard_size] at beyond
    exact absurd beyond (by decide)

end Memory

end Chip8
