import Chip8.Proofs.Bytewise
import Chip8.Proofs.Effects

/-!
# Saved registers

Registers are saved to the bytes at the index, one behind the other, and restored from there.
Nothing is said of what happens in between: where the bytes are still there and the index has
come back to them, the registers come back as they were. The flag is a register like the others
here, and the registers behind the last that is meant are left alone.

A block that is saved lies in the program area, so that the index behind it is an address of at
most sixteen bits and never wraps around.

The decimal digits of a register are written in the same way. They make up its number again.
-/

namespace Chip8

namespace Registers

variable {registers : Registers} {x register : Fin 16}

/-- The registers from V0 to VX, one by one. -/
theorem getElem_upTo {offset : Nat} (inside : offset < (registers.upTo x).length)
    (named : offset < 16) : (registers.upTo x)[offset] = registers.get ⟨offset, named⟩ := by
  simp only [upTo, List.getElem_take, Vector.getElem_toList]
  rfl

/-- Bytes are loaded into registers one behind the other. -/
theorem get_loadFrom {first offset : Nat} {bytes : List UInt8} (inside : offset < bytes.length)
    (named : first + offset < 16) :
    (registers.loadFrom first bytes).get ⟨first + offset, named⟩ = bytes[offset] := by
  induction bytes generalizing registers first offset with
  | nil => cases inside
  | cons value rest inductionHypothesis =>
    cases offset with
    | zero =>
      let loaded : Registers := { registers with v := registers.v.setIfInBounds first value }
      -- The bytes behind it go elsewhere.
      have kept : (loaded.loadFrom (first + 1) rest).get ⟨first, named⟩ =
          loaded.get ⟨first, named⟩ := by
        refine Classical.byContradiction fun changed => ?_
        exact absurd (within_of_loadFrom_ne changed).1 (Nat.not_succ_le_self first)
      exact kept.trans (Vector.getElem_setIfInBounds_self named)
    | succ offset =>
      have behind : first + (offset + 1) = first + 1 + offset := by omega
      have same : (⟨first + (offset + 1), named⟩ : Fin 16) = ⟨first + 1 + offset, behind ▸ named⟩ :=
        Fin.ext behind
      rw [same]
      exact inductionHypothesis (Nat.lt_of_succ_lt_succ inside) _

/-- A register behind the bytes is left alone. -/
theorem get_loadFrom_of_le {bytes : List UInt8} (behind : bytes.length ≤ register.val) :
    (registers.loadFrom 0 bytes).get register = registers.get register := by
  refine Classical.byContradiction fun changed => ?_
  have bounds := within_of_loadFrom_ne changed
  omega

end Registers

namespace Machine

variable {machine next later last : Machine} {word again : Word} {x : Fin 16}
  {progress : Progress}

/-- Where the index stands after a block of registers. -/
def pastBlock (machine : Machine) (x : Fin 16) : Nat :=
  machine.registers.index.toNat +
    if machine.dialect.storeLoadIncrementsIndex then x.val + 1 else 0

/-- The registers from V0 to VX have been saved at the index. -/
structure Saves (machine : Machine) (x : Fin 16) (next : Machine) : Prop where
  saved : ∀ register : Fin 16, register ≤ x →
    next.memory.byteAt (machine.registers.index.toNat + register.val) =
      machine.registers.get register
  beside : ∀ address,
    address < machine.registers.index.toNat ∨
      machine.registers.index.toNat + x.val < address →
    next.memory.byteAt address = machine.memory.byteAt address
  size : next.memory.size = machine.memory.size
  registers : next.registers.v = machine.registers.v
  index : next.registers.index.toNat = machine.pastBlock x

/-- The registers of another machine stand in memory where they were saved, and the index has
come back to them. -/
structure Recalls (later machine : Machine) (x : Fin 16) : Prop where
  size : later.memory.size = machine.memory.size
  index : later.registers.index = machine.registers.index
  bytes : ∀ register : Fin 16, register ≤ x →
    later.memory.byteAt (machine.registers.index.toNat + register.val) =
      machine.registers.get register

/-- The registers from V0 to VX have become those of another machine again. -/
structure Restores (later machine : Machine) (x : Fin 16) (last : Machine) : Prop where
  restored : ∀ register, register ≤ x → last.registers.get register = machine.registers.get register
  others : ∀ register, x < register → last.registers.get register = later.registers.get register
  index : last.registers.index.toNat = later.pastBlock x
  memory : last.memory = later.memory

/-- The decimal digits of a register stand at the index. -/
structure TellsDigits (machine : Machine) (x : Fin 16) (next : Machine) : Prop where
  digits : ∀ place, place < 3 →
    (next.memory.byteAt (machine.registers.index.toNat + place)).toNat ≤ 9
  number :
    100 * (next.memory.byteAt machine.registers.index.toNat).toNat +
        10 * (next.memory.byteAt (machine.registers.index.toNat + 1)).toNat +
        (next.memory.byteAt (machine.registers.index.toNat + 2)).toNat =
      (machine.registers.get x).toNat
  beside : ∀ address,
    address < machine.registers.index.toNat ∨ machine.registers.index.toNat + 2 < address →
    next.memory.byteAt address = machine.memory.byteAt address
  size : next.memory.size = machine.memory.size
  registers : next.registers.v = machine.registers.v
  index : next.registers.index = machine.registers.index

/-- Behind a block that ends below the last address the index does not wrap around. -/
theorem passBlock_index (room : machine.registers.index.toNat + x.val < 0xFFFF) :
    (machine.passBlock x).index.toNat = machine.pastBlock x := by
  have low := x.isLt
  unfold passBlock pastBlock
  split
  case isTrue =>
    change (machine.registers.index + UInt16.ofNat (x.val + 1)).toNat = _
    rw [UInt16.toNat_add, UInt16.toNat_ofNat']
    omega
  case isFalse => rfl

/-- A block of a standard memory is written exactly if it lies in the program area. -/
theorem writeBlock_index_succeeds_iff (size : machine.memory.size = Memory.standardSize)
    {values : List UInt8} {length : Nat} (known : values.length = length + 1) :
    (∃ memory,
        (machine.memory.writeBlock machine.registers.index.toNat values).result = .ok memory) ↔
      0x200 ≤ machine.registers.index.toNat ∧ machine.registers.index.toNat + length ≤ 0xFFF := by
  simp only [Memory.writeBlock_succeeds_iff, Memory.writable_iff, size, known, Memory.programStart,
    Memory.standardSize]
  constructor
  · intro inside
    have first := inside 0 (Nat.succ_pos _)
    have last := inside length (Nat.lt_succ_self _)
    omega
  · intro bounds offset inside
    omega

/-- An operation that writes a block is complete exactly if the block is written. -/
theorem Finds.step_writes {operation : Operation} {values : List UInt8} {registers : Registers}
    (finds : machine.Finds word operation) (unsettled : operation ≠ .setSound)
    (writes : machine.carryOut word operation = do
      let memory ← machine.memory.writeBlock machine.registers.index.toNat values
      { machine with memory }.complete registers) :
    machine.step.result = .ok (progress, next) ↔
      ∃ memory,
        (machine.memory.writeBlock machine.registers.index.toNat values).result = .ok memory ∧
        progress = .executed ∧
        next = { machine with memory, registers }.note ⟨operation, word⟩ .executed := by
  rw [finds.step_iff, writes]
  constructor
  · rintro ⟨found, after, carried, ended⟩
    obtain ⟨memory, written, complete⟩ := Traced.result_bind_eq_ok.mp carried
    cases complete
    rw [conclude, if_neg unsettled] at ended
    cases ended
    exact ⟨memory, written, rfl, rfl⟩
  · rintro ⟨memory, written, rfl, rfl⟩
    refine ⟨.executed, _, Traced.result_bind_eq_ok.mpr ⟨memory, written, rfl⟩, ?_⟩
    rw [conclude, if_neg unsettled]

/-- So it is complete exactly if its block lies in the program area. -/
theorem Finds.writes_iff {operation : Operation} {values : List UInt8} {registers : Registers}
    {length : Nat} (finds : machine.Finds word operation) (unsettled : operation ≠ .setSound)
    (writes : machine.carryOut word operation = do
      let memory ← machine.memory.writeBlock machine.registers.index.toNat values
      { machine with memory }.complete registers)
    (size : machine.memory.size = Memory.standardSize) (known : values.length = length + 1) :
    (∃ ended, machine.step.result = .ok ended) ↔
      0x200 ≤ machine.registers.index.toNat ∧
        machine.registers.index.toNat + length ≤ 0xFFF := by
  rw [← writeBlock_index_succeeds_iff size known]
  constructor
  · rintro ⟨⟨progress, next⟩, stepped⟩
    obtain ⟨memory, written, _⟩ := (finds.step_writes unsettled writes).mp stepped
    exact ⟨memory, written⟩
  · rintro ⟨memory, written⟩
    exact ⟨_, (finds.step_writes unsettled writes).mpr ⟨memory, written, rfl, rfl⟩⟩

/-- To save registers is to write a block, and to move past it. -/
theorem Finds.step_store (finds : machine.Finds word .store) :
    machine.step.result = .ok (progress, next) ↔
      ∃ memory,
        (machine.memory.writeBlock machine.registers.index.toNat
          (machine.registers.upTo word.x)).result = .ok memory ∧
        progress = .executed ∧
        next = { machine with memory, registers := (machine.passBlock word.x).advance }.note
          ⟨.store, word⟩ .executed :=
  finds.step_writes (by decide) rfl

/-- The digits of a register are a block as well, and the index stays before it. -/
theorem Finds.step_storeDecimal (finds : machine.Finds word .storeDecimal) :
    machine.step.result = .ok (progress, next) ↔
      ∃ memory,
        (machine.memory.writeBlock machine.registers.index.toNat
          (decimalDigits (machine.registers.get word.x))).result = .ok memory ∧
        progress = .executed ∧
        next = { machine with memory, registers := machine.registers.advance }.note
          ⟨.storeDecimal, word⟩ .executed :=
  finds.step_writes (by decide) rfl

/-- Registers that were loaded from a block that could be read. -/
theorem Finds.step_load (finds : machine.Finds word .load) {bytes : List UInt8}
    (read : machine.memory.readBlock machine.registers.index.toNat (word.x.val + 1) = .ok bytes) :
    ∃ last, machine.step.result = .ok (.executed, last) ∧
      last.registers = ((machine.passBlock word.x).loadFrom 0 bytes).advance ∧
      last.memory = machine.memory := by
  have carried : (machine.carryOut word .load).result = .ok (.executed,
      { machine with registers := ((machine.passBlock word.x).loadFrom 0 bytes).advance }) := by
    simp only [carryOut, read]
    rfl
  exact ⟨_, finds.step carried, rfl, rfl⟩

/-- Where a block of registers is written, the registers are saved. -/
theorem saves_of_writeBlock {memory : Memory}
    (size : machine.memory.size = Memory.standardSize)
    (written : (machine.memory.writeBlock machine.registers.index.toNat
      (machine.registers.upTo x)).result = .ok memory)
    (wrote : next.memory = memory) (registers : next.registers = (machine.passBlock x).advance) :
    machine.Saves x next := by
  have length : (machine.registers.upTo x).length = x.val + 1 := Registers.length_upTo ..
  have bounds := (writeBlock_index_succeeds_iff size length).mp ⟨memory, written⟩
  subst wrote
  constructor
  case saved =>
    intro register low
    have inside : register.val < (machine.registers.upTo x).length := by
      rw [length]
      exact Nat.lt_succ_of_le low
    rw [Memory.byteAt_of_writeBlock written inside, Registers.getElem_upTo inside register.isLt]
  case beside =>
    intro address beside
    exact Memory.byteAt_beside_writeBlock written (by omega)
  case size => exact (Memory.writeBlock_keeps written).1
  case registers =>
    rw [registers]
    exact (passBlock_keeps machine x).1
  case index =>
    rw [registers]
    exact passBlock_index (by omega)

/-- Registers that are recalled can be read, as they were saved. -/
theorem Recalls.read (recalls : later.Recalls machine x)
    (inside : machine.registers.index.toNat + x.val < machine.memory.size) :
    ∃ bytes,
      later.memory.readBlock later.registers.index.toNat (x.val + 1) = .ok bytes ∧
      bytes.length = x.val + 1 ∧
      ∀ (register : Fin 16) (member : register.val < bytes.length),
        bytes[register.val] = machine.registers.get register := by
  have readable : later.memory.readable later.registers.index.toNat = true := by
    rw [Memory.readable_iff, recalls.index, recalls.size]
    omega
  have room : (later.registers.index.toNat : Int) + (x.val + 1 : Nat) ≤ later.memory.size := by
    rw [recalls.index, recalls.size]
    omega
  have read := Memory.readBlock_eq_ok.mpr ⟨⟨readable, room⟩, rfl⟩
  have length := Memory.length_of_readBlock read
  refine ⟨_, read, length, fun register member => ?_⟩
  rw [length] at member
  rw [List.getElem_map, List.getElem_range, recalls.index]
  exact recalls.bytes register (Nat.le_of_lt_succ member)

/-- Registers that are recalled are restored. -/
theorem Recalls.restores (recalls : later.Recalls machine word.x)
    (size : machine.memory.size = Memory.standardSize)
    (inside : machine.registers.index.toNat + word.x.val < machine.memory.size)
    (finds : later.Finds word .load) :
    ∃ last, later.step.result = .ok (.executed, last) ∧ later.Restores machine word.x last := by
  obtain ⟨bytes, read, length, same⟩ := recalls.read inside
  obtain ⟨last, loaded, registers, memory⟩ := finds.step_load read
  refine ⟨last, loaded, ?_⟩
  constructor
  case restored =>
    intro register low
    have member : register.val < bytes.length := by
      rw [length]
      exact Nat.lt_succ_of_le low
    have zeroth : (⟨0 + register.val, by omega⟩ : Fin 16) = register :=
      Fin.ext (Nat.zero_add _)
    have found := @Registers.get_loadFrom (later.passBlock word.x) 0 _ _ member (by omega)
    rw [zeroth, same register member] at found
    rw [registers]
    exact found
  case others =>
    intro register behind
    have passed : (later.passBlock word.x).get register = later.registers.get register :=
      congrArg (·.get register) (passBlock_keeps later word.x).1
    rw [registers, ← passed]
    exact Registers.get_loadFrom_of_le (by omega)
  case index =>
    have room : later.registers.index.toNat + word.x.val < 0xFFFF := by
      rw [recalls.index]
      simp only [Memory.standardSize] at size
      omega
    rw [registers]
    change ((later.passBlock word.x).loadFrom 0 bytes).index.toNat = _
    rw [(Registers.loadFrom_keeps ..).1]
    exact passBlock_index room
  case memory => exact memory

/-- The digits of a byte, in numbers. -/
theorem decimalDigits_toNat (value : UInt8) :
    (value / 100).toNat ≤ 9 ∧ (value / 10 % 10).toNat ≤ 9 ∧ (value % 10).toNat ≤ 9 ∧
      100 * (value / 100).toNat + 10 * (value / 10 % 10).toNat + (value % 10).toNat =
        value.toNat := by
  have small := UInt8.toNat_lt value
  simp only [UInt8.toNat_div, UInt8.toNat_mod]
  change value.toNat / 100 ≤ 9 ∧ value.toNat / 10 % 10 ≤ 9 ∧ value.toNat % 10 ≤ 9 ∧
    100 * (value.toNat / 100) + 10 * (value.toNat / 10 % 10) + value.toNat % 10 = value.toNat
  omega

/-- Where the digits of a register are written, they tell its number. -/
theorem tellsDigits_of_writeBlock {memory : Memory}
    (written : (machine.memory.writeBlock machine.registers.index.toNat
      (decimalDigits (machine.registers.get x))).result = .ok memory)
    (wrote : next.memory = memory) (registers : next.registers = machine.registers.advance) :
    machine.TellsDigits x next := by
  obtain ⟨hundreds, tens, ones, number⟩ := decimalDigits_toNat (machine.registers.get x)
  have digit (place : Nat) (inside : place < 3) :
      next.memory.byteAt (machine.registers.index.toNat + place) =
        (decimalDigits (machine.registers.get x))[place] := by
    rw [wrote]
    exact Memory.byteAt_of_writeBlock written inside
  constructor
  case digits =>
    intro place inside
    rw [digit place inside]
    match place, inside with
    | 0, _ => exact hundreds
    | 1, _ => exact tens
    | 2, _ => exact ones
  case number =>
    have first : next.memory.byteAt machine.registers.index.toNat = _ := digit 0 (by decide)
    rw [first, digit 1 (by decide), digit 2 (by decide)]
    exact number
  case beside =>
    intro address beside
    rw [wrote]
    exact Memory.byteAt_beside_writeBlock written (beside.imp id Nat.succ_le_of_lt)
  case size =>
    rw [wrote]
    exact (Memory.writeBlock_keeps written).1
  case registers =>
    rw [registers]
    rfl
  case index =>
    rw [registers]
    rfl

/-- Registers are saved and restored. -/
theorem Finds.saves (finds : machine.Finds word .store)
    (size : machine.memory.size = Memory.standardSize)
    (stepped : machine.step.result = .ok (progress, next)) :
    progress = .executed ∧ machine.Saves word.x next ∧
      ∀ (later : Machine) (again : Word), later.Recalls machine word.x →
        later.Finds again .load → again.x = word.x →
          ∃ last, later.step.result = .ok (.executed, last) ∧
            later.Restores machine word.x last := by
  have length : (machine.registers.upTo word.x).length = word.x.val + 1 := Registers.length_upTo ..
  obtain ⟨memory, written, executed, rfl⟩ := finds.step_store.mp stepped
  refine ⟨executed, saves_of_writeBlock size written rfl rfl, ?_⟩
  intro later again recalls loads same
  have bounds := (writeBlock_index_succeeds_iff size length).mp ⟨memory, written⟩
  rw [← same] at recalls bounds ⊢
  refine recalls.restores size ?_ loads
  rw [size]
  exact Nat.lt_succ_of_le bounds.2

/-- Digits are written, and tell their number. -/
theorem Finds.tellsDigits (finds : machine.Finds word .storeDecimal)
    (stepped : machine.step.result = .ok (progress, next)) :
    progress = .executed ∧ machine.TellsDigits word.x next := by
  obtain ⟨memory, written, executed, rfl⟩ := finds.step_storeDecimal.mp stepped
  exact ⟨executed, tellsDigits_of_writeBlock written rfl rfl⟩

/-- Saving registers is complete exactly if their block lies in the program area. Then they
stand there, and nothing beside them has changed. Whatever machine comes to a load of the same
registers, with the bytes still in its memory and its index back at them, the load is complete
and restores the registers. Digits are written to such a block as well, and tell the number of
their register. -/
theorem registers_saved (machine : Machine) (word : Word)
    (size : machine.memory.size = Memory.standardSize) :
    (machine.Finds word .store →
      ((∃ ended, machine.step.result = .ok ended) ↔
        0x200 ≤ machine.registers.index.toNat ∧
          machine.registers.index.toNat + word.x.val ≤ 0xFFF) ∧
      ∀ progress next, machine.step.result = .ok (progress, next) →
        progress = .executed ∧ machine.Saves word.x next ∧
          ∀ (later : Machine) (again : Word), later.Recalls machine word.x →
            later.Finds again .load → again.x = word.x →
              ∃ last, later.step.result = .ok (.executed, last) ∧
                later.Restores machine word.x last) ∧
    (machine.Finds word .storeDecimal →
      ((∃ ended, machine.step.result = .ok ended) ↔
        0x200 ≤ machine.registers.index.toNat ∧
          machine.registers.index.toNat + 2 ≤ 0xFFF) ∧
      ∀ progress next, machine.step.result = .ok (progress, next) →
        progress = .executed ∧ machine.TellsDigits word.x next) := by
  constructor
  · intro finds
    have length : (machine.registers.upTo word.x).length = word.x.val + 1 :=
      Registers.length_upTo ..
    exact ⟨finds.writes_iff (by decide) rfl size length,
      fun _ _ stepped => finds.saves size stepped⟩
  · intro finds
    have length : (decimalDigits (machine.registers.get word.x)).length = 2 + 1 := rfl
    exact ⟨finds.writes_iff (by decide) rfl size length,
      fun _ _ stepped => finds.tellsDigits stepped⟩

/-- Instructions below the saved bytes are found as before. -/
theorem Saves.finds (saves : machine.Saves x next) (same : later.memory = next.memory)
    (below : later.registers.pc.toNat + 1 < machine.registers.index.toNat)
    {operation : Operation}
    (found : { later with memory := machine.memory }.Finds word operation) :
    later.Finds word operation := by
  have high := saves.beside later.registers.pc.toNat (.inl (Nat.lt_of_succ_lt below))
  have low := saves.beside (later.registers.pc.toNat + 1) (.inl below)
  have fetched : later.fetch.result = { later with memory := machine.memory }.fetch.result := by
    rw [fetch_result, fetch_result, same, saves.size, high, low]
  exact ⟨fetched.trans found.1, found.2⟩

/-- A program that saves a register, clears it, and restores it. Behind it are its digits. -/
def saveProgram : List UInt8 :=
  [0x60, 0xC8, 0xA3, 0x00, 0xF0, 0x55, 0x60, 0x00, 0xA3, 0x00, 0xF0, 0x65, 0xF0, 0x33]

/-- After two steps of it there is something to save, and a place to save it. -/
theorem stands_of_saveProgram :
    ∃ machine,
      (ofRate 700 .chip8 0 .mute).serveAll [.load saveProgram none, .step, .step] = machine ∧
        machine.Stands saveProgram 4 ∧ machine.registers.get 0 = 200 ∧
        machine.registers.index.toNat = 0x300 := by
  obtain ⟨standing, _⟩ := @stands_of_load saveProgram (by decide +kernel)
  have first : Finds _ 0x60C8 .loadByte := standing.finds rfl (by decide) rfl
  obtain ⟨loaded, loads, further, full⟩ := standing.loadByte first (by decide)
  have second : loaded.Finds 0xA300 .loadIndex := further.finds rfl (by decide) rfl
  obtain ⟨machine, indexed, stands, index, kept, _⟩ := further.loadIndex second (by decide)
  have kept' : machine.registers.get 0 = loaded.registers.get 0 := congrArg (·.get 0) kept
  have target : (Word.nnn 0xA300).toNat = 0x300 := by decide
  refine ⟨machine, ?_, stands, kept'.trans full, index ▸ target⟩
  rw [serveAll_cons, serveAll_cons, serveAll_cons, serveAll_nil, serveOne_step, serveOne_step,
    afterStep_of_ok loads, afterStep_of_ok indexed]

/-- The register is cleared after it was saved, and comes back. A machine that goes for its
digits instead finds them where the index is. -/
theorem registers_saved_of_saveProgram :
    let machine := (ofRate 700 .chip8 0 .mute).serveAll [.load saveProgram none, .step, .step]
    let asked := { machine with registers := machine.registers.jump 0x20C }
    ∃ next later last told : Machine, machine.memory.size = Memory.standardSize ∧
      machine.Finds 0xF055 .store ∧ machine.step.result = .ok (.executed, next) ∧
      next.memory.byteAt 0x300 = 200 ∧ next.serveAll [.step, .step] = later ∧
      later.registers.get 0 = 0 ∧ later.Recalls machine 0 ∧
      later.Finds 0xF065 .load ∧ later.step.result = .ok (.executed, last) ∧
      last.registers.get 0 = 200 ∧ last.registers.index.toNat = 0x301 ∧
      asked.Finds 0xF033 .storeDecimal ∧ asked.step.result = .ok (.executed, told) ∧
      (told.memory.byteAt 0x300).toNat = 2 ∧ (told.memory.byteAt 0x301).toNat = 0 ∧
      (told.memory.byteAt 0x302).toNat = 0 := by
  obtain ⟨machine, reached, stands, full, start⟩ := stands_of_saveProgram
  rw [reached]
  have size : machine.memory.size = Memory.standardSize := by
    have area : Memory.programStart ≤ Memory.standard.size := by decide +kernel
    rw [stands.memory, (Memory.install_keeps area stands.fits).1, Memory.standard_size]
  have saving : machine.Finds 0xF055 .store := stands.finds rfl (by decide) rfl
  obtain ⟨succeeds, saved⟩ := (registers_saved machine 0xF055 size).1 saving
  obtain ⟨⟨progress, next⟩, stepped⟩ := succeeds.mpr (by rw [start]; decide)
  obtain ⟨rfl, saves, restores⟩ := saved progress next stepped
  have there : next.memory.byteAt 0x300 = 200 := by
    have first := saves.saved 0 (Nat.zero_le _)
    rw [start, full] at first
    exact first
  -- The instructions that follow are where they were.
  obtain ⟨memory, written, _, same⟩ := saving.step_store.mp stepped
  have standing : ({ next with memory := machine.memory } : Machine).Stands saveProgram 6 := by
    have pc : next.registers.pc = machine.registers.pc + 2 := by
      rw [same]
      exact congrArg (· + 2) (passBlock_keeps machine (Word.x 0xF055)).2.1
    refine ⟨stands.fits, stands.memory, ?_, ?_⟩
    · rw [same]
      exact stands.dialect
    · rw [pc]
      exact stands.behind (by decide)
  have clears : next.Finds 0x6000 .loadByte :=
    saves.finds rfl (by rw [standing.pc, start]; decide) (standing.finds rfl (by decide) rfl)
  obtain ⟨second, cleared, kept, low, further⟩ : ∃ second : Machine,
      next.step.result = .ok (.executed, second) ∧ second.memory = next.memory ∧
        second.registers.get 0 = 0 ∧
        ({ second with memory := machine.memory } : Machine).Stands saveProgram 8 :=
    ⟨_, clears.step rfl, rfl, Registers.get_set ..,
      { standing with pc := standing.behind (by decide) }⟩
  have returns : second.Finds 0xA300 .loadIndex :=
    saves.finds kept (by rw [further.pc, start]; decide) (further.finds rfl (by decide) rfl)
  obtain ⟨later, returned, kept, low, index, further⟩ : ∃ later : Machine,
      second.step.result = .ok (.executed, later) ∧ later.memory = next.memory ∧
        later.registers.get 0 = 0 ∧ later.registers.index.toNat = 0x300 ∧
        ({ later with memory := machine.memory } : Machine).Stands saveProgram 10 :=
    ⟨_, returns.step rfl, kept, low, rfl, { further with pc := further.behind (by decide) }⟩
  have loads : later.Finds 0xF065 .load :=
    saves.finds kept (by rw [further.pc, start]; decide) (further.finds rfl (by decide) rfl)
  have recalls : later.Recalls machine 0 := by
    refine ⟨by rw [kept, saves.size], UInt16.toNat_inj.mp (index.trans start.symm), ?_⟩
    rw [kept]
    exact saves.saved
  obtain ⟨last, loaded, restored⟩ := restores later 0xF065 recalls loads rfl
  have behind : last.registers.index.toNat = 0x301 := by
    have dialect : later.dialect = .chip8 := further.dialect
    rw [restored.index, pastBlock, index, dialect]
    rfl
  -- Its digits are asked for in its place.
  let asked : Machine := { machine with registers := machine.registers.jump 0x20C }
  have elsewhere : asked.Stands saveProgram 12 := { stands with pc := rfl }
  have asking : asked.Finds 0xF033 .storeDecimal := elsewhere.finds rfl (by decide) rfl
  obtain ⟨succeeds, tells⟩ := (registers_saved asked 0xF033 size).2 asking
  have place : asked.registers.index.toNat = 0x300 := start
  obtain ⟨⟨progress, told⟩, answered⟩ := succeeds.mpr (by rw [place]; decide)
  obtain ⟨rfl, digits⟩ := tells progress told answered
  have value : (asked.registers.get (Word.x 0xF033)).toNat = 200 := congrArg UInt8.toNat full
  have number := digits.number
  have tens := digits.digits 1 (by decide)
  have ones := digits.digits 2 (by decide)
  rw [place] at number tens ones
  rw [value] at number
  change 100 * (told.memory.byteAt 0x300).toNat + 10 * (told.memory.byteAt 0x301).toNat +
    (told.memory.byteAt 0x302).toNat = 200 at number
  change (told.memory.byteAt 0x301).toNat ≤ 9 at tens
  change (told.memory.byteAt 0x302).toNat ≤ 9 at ones
  refine ⟨next, later, last, told, size, saving, stepped, there, ?_, low, recalls, loads, loaded,
    (restored.restored 0 (Nat.zero_le _)).trans full, behind, asking, answered, ?_, ?_, ?_⟩
  · rw [serveAll_cons, serveAll_cons, serveAll_nil, serveOne_step, serveOne_step,
      afterStep_of_ok cleared, afterStep_of_ok returned]
  all_goals omega

end Machine

end Chip8
