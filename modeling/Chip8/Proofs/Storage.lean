import Chip8.Proofs.Footprint
import Chip8.Rom

/-!
# Stored bytes

Writes reach the program area only, so that the reserved area stays as it was laid
out, and no access changes the size of a memory. A block is written as a whole or
not at all: its two ends are checked first, and between two addresses of the program
area there are only addresses of the program area.

A glyph that the reserved area holds is found at its address, and an instruction of an
installed image is fetched as it stands there.
-/

namespace Chip8

namespace Memory

variable {memory next : Memory} {address : Int}

/-- What a byte's write leaves behind. -/
theorem writeByte_eq_ok {value : UInt8} :
    (memory.writeByte address value).result = .ok next ↔
      memory.writable address = true ∧
        next = { memory with bytes := memory.bytes.setIfInBounds address.toNat value } := by
  unfold writeByte
  split
  case isTrue inside => simp only [inside, Except.ok.injEq, true_and, eq_comm]
  case isFalse outside => simp [outside, Traced.fail]

/-- The addresses of the program area, in numbers. -/
theorem writable_iff : memory.writable address = true ↔
    programStart ≤ address ∧ address < memory.size := by
  simp only [writable, Bool.and_eq_true, decide_eq_true_eq]

/-- The addresses of a memory, in numbers. -/
theorem readable_iff : memory.readable address = true ↔ 0 ≤ address ∧ address < memory.size := by
  simp only [readable, Bool.and_eq_true, decide_eq_true_eq]

/-- What a byte's read hands out. -/
theorem readByte_eq_ok {value : UInt8} :
    (memory.readByte address).result = .ok value ↔
      memory.readable address = true ∧ memory.byteAt address.toNat = value := by
  unfold readByte
  split
  case isTrue inside => simp only [inside, Except.ok.injEq, true_and]
  case isFalse outside => simp [outside, Traced.fail]

/-- What is made of a block that is read is made of the bytes from its address on, and all of
them are there. -/
theorem map_readBlock_eq_ok {length : Nat} {α : Type} {make : List UInt8 → α} {made : α} :
    (memory.readBlock address length).map make = .ok made ↔
      (memory.readable address = true ∧ address + length ≤ memory.size) ∧
        make ((List.range length).map fun offset => memory.byteAt (address.toNat + offset)) =
          made := by
  unfold readBlock
  by_cases first : memory.readable address = true
  case neg => simp [first, Except.map]
  by_cases beyond : memory.size < address + length
  · simp [first, beyond, Int.not_le.mpr beyond, Except.map]
  · simp [first, beyond, Int.not_lt.mp beyond, Except.map]

/-- A block is read exactly if it begins in memory and does not reach beyond its end. -/
theorem readBlock_eq_ok {length : Nat} {bytes : List UInt8} :
    memory.readBlock address length = .ok bytes ↔
      (memory.readable address = true ∧ address + length ≤ memory.size) ∧
        (List.range length).map (fun offset => memory.byteAt (address.toNat + offset)) = bytes := by
  have whole := @map_readBlock_eq_ok memory address length _ id bytes
  rwa [Except.map_id] at whole

/-- A block that is read has its length. -/
theorem length_of_readBlock {length : Nat} {bytes : List UInt8}
    (read : memory.readBlock address length = .ok bytes) : bytes.length = length := by
  rw [← (readBlock_eq_ok.mp read).2, List.length_map, List.length_range]

/-- Between two addresses of the program area there are only addresses of that area. -/
theorem writable_between {length offset : Nat} (first : memory.writable address = true)
    (last : memory.writable (address + length - 1) = true) (bound : offset < length) :
    memory.writable (address + offset) = true := by
  have low := writable_iff.mp first
  have high := writable_iff.mp last
  rw [writable_iff]
  omega

/-- The bytes of the reserved area. -/
def reservedBytes (memory : Memory) : List UInt8 := memory.bytes.toList.take programStart

/-- A byte that is written lies above the reserved area. -/
theorem reservedBytes_of_writeByte {value : UInt8}
    (written : (memory.writeByte address value).result = .ok next) :
    next.reservedBytes = memory.reservedBytes := by
  obtain ⟨inside, rfl⟩ := writeByte_eq_ok.mp written
  have above : programStart ≤ address.toNat := by
    have := (writable_iff.mp inside).1
    omega
  unfold reservedBytes
  rw [Array.toList_setIfInBounds, List.take_set_of_le above]

/-- Bytes written one after the other keep size and reserved area. -/
theorem writeBytes_keeps {values : List UInt8}
    (written : (memory.writeBytes address values).result = .ok next) :
    next.size = memory.size ∧ next.reservedBytes = memory.reservedBytes := by
  induction values generalizing memory address with
  | nil =>
    cases written
    exact ⟨rfl, rfl⟩
  | cons value rest inductionHypothesis =>
    obtain ⟨first, head, tail⟩ := Traced.result_bind_eq_ok.mp written
    obtain ⟨size, kept⟩ := inductionHypothesis tail
    exact ⟨size.trans (size_of_writeByte head), kept.trans (reservedBytes_of_writeByte head)⟩

/-- A block that is written is written byte by byte, with the reports of its bytes. -/
theorem writeBlock_eq_of_ok {values : List UInt8}
    (written : (memory.writeBlock address values).result = .ok next) :
    memory.writeBlock address values = memory.writeBytes address values := by
  simp only [writeBlock] at written ⊢
  split at written
  case isTrue empty =>
    rw [if_pos empty, List.isEmpty_iff.mp empty]
    rfl
  case isFalse filled =>
    rw [if_neg filled]
    split at written
    case isTrue => cases written
    case isFalse first =>
      rw [if_neg first]
      split at written
      case isTrue => cases written
      case isFalse last => rw [if_neg last]

theorem writeBytes_of_writeBlock {values : List UInt8}
    (written : (memory.writeBlock address values).result = .ok next) :
    (memory.writeBytes address values).result = .ok next :=
  writeBlock_eq_of_ok written ▸ written

/-- A block that is written keeps size and reserved area. -/
theorem writeBlock_keeps {values : List UInt8}
    (written : (memory.writeBlock address values).result = .ok next) :
    next.size = memory.size ∧ next.reservedBytes = memory.reservedBytes :=
  writeBytes_keeps (writeBytes_of_writeBlock written)

/-- Bytes written one after the other change nothing beside them. -/
theorem within_of_writeBytes {values : List UInt8} {other : Nat}
    (written : (memory.writeBytes address values).result = .ok next)
    (changed : next.byteAt other ≠ memory.byteAt other) :
    address ≤ other ∧ other < address + values.length := by
  induction values generalizing memory address with
  | nil =>
    cases written
    exact absurd rfl changed
  | cons value rest inductionHypothesis =>
    obtain ⟨first, head, tail⟩ := Traced.result_bind_eq_ok.mp written
    rw [List.length_cons]
    by_cases later : next.byteAt other = first.byteAt other
    case neg =>
      have bounds := inductionHypothesis tail later
      omega
    case pos =>
      rw [later, byteAt_of_writeByte head] at changed
      have here : other = address.toNat :=
        Classical.byContradiction fun apart => changed (if_neg apart)
      have inside := writable_iff.mp (writeByte_eq_ok.mp head).1
      omega

/-- Within the program area no write fails. -/
theorem writeBytes_succeeds {values : List UInt8}
    (inside : ∀ offset : Nat, offset < values.length → memory.writable (address + offset) = true) :
    ∃ next, (memory.writeBytes address values).result = .ok next := by
  induction values generalizing memory address with
  | nil => exact ⟨memory, rfl⟩
  | cons value rest inductionHypothesis =>
    have headInside : memory.writable address = true := by
      simpa using inside 0 (by simp)
    obtain ⟨first, head⟩ : ∃ first, (memory.writeByte address value).result = .ok first :=
      ⟨_, writeByte_eq_ok.mpr ⟨headInside, rfl⟩⟩
    have tailInside : ∀ offset : Nat, offset < rest.length →
        first.writable (address + 1 + offset) = true := by
      intro offset bound
      have further := writable_iff.mp (inside (offset + 1) (by simpa using bound))
      rw [writable_iff, size_of_writeByte head]
      omega
    obtain ⟨next, tail⟩ := inductionHypothesis tailInside
    exact ⟨next, Traced.result_bind_eq_ok.mpr ⟨first, head, tail⟩⟩

/-- The two ends of a block decide about all of it. -/
theorem writeBlock_eq_writeBytes {values : List UInt8} (filled : values.isEmpty = false)
    (first : memory.writable address = true)
    (last : memory.writable (address + values.length - 1) = true) :
    memory.writeBlock address values = memory.writeBytes address values := by
  simp [writeBlock, filled, first, last]

/-- A block whose first byte cannot be written is refused for it. -/
theorem writeBlock_eq_fail_first {values : List UInt8} (filled : values.isEmpty = false)
    (outside : ¬memory.writable address = true) :
    memory.writeBlock address values = .fail (.memoryAccess address true) := by
  simp [writeBlock, filled, outside]

/-- A block whose last byte alone cannot be written is refused for that one. -/
theorem writeBlock_eq_fail_last {values : List UInt8} (filled : values.isEmpty = false)
    (first : memory.writable address = true)
    (outside : ¬memory.writable (address + values.length - 1) = true) :
    memory.writeBlock address values =
      .fail (.memoryAccess (address + values.length - 1) true) := by
  simp [writeBlock, filled, first, outside]

/-- A standard memory has its size and its reserved area. -/
theorem standard_size : standard.size = standardSize := by decide +kernel

theorem standard_reservedBytes : standard.reservedBytes = reserved := by decide +kernel

/-- The reserved area is whole in a memory that reaches beyond it. -/
theorem length_reservedBytes (area : programStart ≤ memory.size) :
    memory.reservedBytes.length = programStart := by
  rw [reservedBytes, List.length_take]
  exact Nat.min_eq_left area

/-- The bytes of a memory after an image was installed. -/
theorem install_toList (memory : Memory) (image : List UInt8) :
    (memory.install image).bytes.toList =
      memory.reservedBytes ++ (image ++ List.replicate (memory.capacity - image.length) 0) := by
  simp [install, reservedBytes]

/-- An image that fits takes its place above the reserved area. -/
theorem install_keeps {image : List UInt8} (area : programStart ≤ memory.size)
    (fits : image.length ≤ memory.capacity) :
    (memory.install image).size = memory.size ∧
      (memory.install image).reservedBytes = memory.reservedBytes := by
  have length := length_reservedBytes area
  constructor
  · change (memory.install image).bytes.toList.length = memory.size
    rw [install_toList]
    simp only [List.length_append, List.length_replicate, length, capacity] at fits ⊢
    omega
  · change (memory.install image).bytes.toList.take programStart = _
    rw [install_toList, List.take_append_of_le_length (Nat.le_of_eq length.symm)]
    exact List.take_of_length_le (Nat.le_of_eq length)

/-- The bytes of an installed image stand behind the reserved area. -/
theorem byteAt_install {image : List UInt8} (area : programStart ≤ memory.size) {offset : Nat}
    (inside : offset < image.length) :
    (memory.install image).byteAt (programStart + offset) = image[offset] := by
  have length := length_reservedBytes area
  have stored : (memory.install image).bytes.toList[programStart + offset]? =
      some image[offset] := by
    rw [install_toList, List.getElem?_append_right (by omega), length,
      Nat.add_sub_cancel_left, List.getElem?_append_left inside]
    exact List.getElem?_eq_getElem inside
  rw [byteAt, Array.getD_eq_getD_getElem?, ← Array.getElem?_toList, stored]
  rfl

/-- A file is read as a program only if its image fits. -/
theorem fits_of_read {disk : Disk} {path : Disk.Path} {capacity : Int} {rom : Rom}
    (found : Rom.read disk path capacity = .ok rom) : rom.image.length ≤ capacity := by
  unfold Rom.read at found
  split at found
  · cases found
  · split at found
    · cases found
    · split at found
      · cases found
      · split at found
        · cases found
        case isFalse fits =>
          cases found
          exact Int.not_lt.mp fits

/-- A byte of the reserved area. -/
theorem byteAt_reserved (laidOut : memory.reservedBytes = reserved) {address : Nat}
    (below : address < programStart) : memory.byteAt address = reserved.getD address 0 := by
  rw [← laidOut, reservedBytes, List.getD_eq_getElem?_getD, List.getElem?_take_of_lt below]
  simp [byteAt, Array.getD_eq_getD_getElem?]

/-- Sixteen glyphs of five rows stand one behind the other in the reserved area. -/
theorem reserved_glyph (digit : Fin 16) :
    ((List.range Font.glyphHeight).map fun row =>
      reserved.getD (fontStart + digit.val * Font.glyphHeight + row) 0) = Font.glyph digit := by
  revert digit
  decide +kernel

/-- The rows of a digit's glyph stand at its address. -/
theorem glyph_at_address (laidOut : memory.reservedBytes = reserved) (value : UInt8) :
    ((List.range Font.glyphHeight).map fun row =>
      memory.byteAt (glyphAddress value.toNat + row)) =
        Font.glyph (Fin.ofNat 16 value.toNat) := by
  have address : glyphAddress value.toNat =
      fontStart + (Fin.ofNat 16 value.toNat).val * Font.glyphHeight := by
    simp only [glyphAddress, Fin.ofNat, Font.glyphHeight]
    omega
  rw [← reserved_glyph, address]
  apply List.map_congr_left
  intro row member
  apply byteAt_reserved laidOut
  have rows : row < Font.glyphHeight := List.mem_range.mp member
  have digit : (Fin.ofNat 16 value.toNat).val < 16 := Fin.isLt _
  simp only [Font.glyphHeight, fontStart, programStart] at rows ⊢
  omega

end Memory

namespace Machine

variable {machine : Machine}

/-- What a fetch reads, where there is something to fetch. -/
theorem fetch_result (machine : Machine) :
    machine.fetch.result =
      if machine.registers.pc % 2 = 1 ∨ machine.memory.size ≤ machine.registers.pc.toNat + 1 then
        .error (.invalidFetch machine.registers.pc)
      else .ok (Word.ofBytes (machine.memory.byteAt machine.registers.pc.toNat)
        (machine.memory.byteAt (machine.registers.pc.toNat + 1))) := by
  by_cases outside :
    machine.registers.pc % 2 = 1 ∨ machine.memory.size ≤ machine.registers.pc.toNat + 1
  · simp only [fetch, outside, if_true]
    rfl
  · have bound := Nat.lt_of_not_le (not_or.mp outside).2
    have high : machine.memory.readable machine.registers.pc.toNat = true := by
      simp only [Memory.readable, Bool.and_eq_true, decide_eq_true_eq]
      omega
    have low : machine.memory.readable (machine.registers.pc.toNat + 1) = true := by
      simp only [Memory.readable, Bool.and_eq_true, decide_eq_true_eq]
      omega
    simp only [fetch, outside, if_false, Memory.readWord, Memory.readByte, high, low, if_true]
    rfl

/-- An instruction of an installed image is fetched as it stands there. -/
theorem fetch_installed {memory : Memory} {image : List UInt8}
    (installed : machine.memory = memory.install image) (area : Memory.programStart ≤ memory.size)
    (fits : image.length ≤ memory.capacity) (offset : Nat)
    (pc : machine.registers.pc.toNat = Memory.programStart + offset) (aligned : offset % 2 = 0)
    (inside : offset + 1 < image.length) :
    machine.fetch.result = .ok (Word.ofBytes image[offset] image[offset + 1]) := by
  have even : ¬machine.registers.pc % 2 = 1 := by
    intro odd
    have number := congrArg UInt16.toNat odd
    rw [UInt16.toNat_mod, pc] at number
    simp only [Memory.programStart] at number
    change (512 + offset) % 2 = 1 at number
    omega
  have bound : ¬machine.memory.size ≤ machine.registers.pc.toNat + 1 := by
    rw [installed, pc, (Memory.install_keeps area fits).1]
    simp only [Memory.capacity] at fits
    omega
  rw [fetch_result, if_neg (not_or.mpr ⟨even, bound⟩), installed, pc,
    Memory.byteAt_install area (Nat.lt_of_succ_lt inside), Nat.add_assoc,
    Memory.byteAt_install area inside]

end Machine

end Chip8
