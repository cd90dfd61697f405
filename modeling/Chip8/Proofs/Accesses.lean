import Chip8.Proofs.Finding
import Chip8.Proofs.Makeup
import Chip8.Proofs.Numerals

/-!
# Reported accesses

An access is reported in a line of three words: its kind, the address and the byte. The numbers
are printed without a blank, so that the line can be taken apart and the access told again; two
accesses never share a line.

What a step reports is told exactly: the two bytes of its word as they are fetched, and then the
block that its operation writes, byte by byte. Only two operations write one. A fetch that fails
reports nothing, and neither does an operation that fails.
-/

namespace Chip8

namespace Access

/-- The number behind a mark. -/
def number? (mark : String) (word : List Char) : Option Nat := do
  let digits ← word.dropPrefix? mark.toList
  let number ← Text.Numeral.hexInteger? digits
  pure number.toNat

/-- The access that a line reports. -/
def ofLine? (line : String) : Option Access :=
  match line.toList.splitOn ' ' with
  | [kind, place, content] => do
    let address ← number? "addr=" place
    let value ← number? "val=" content
    if kind = "read:".toList then some (.read address (UInt8.ofNat value))
    else if kind = "write:".toList then some (.write address (UInt8.ofNat value))
    else none
  | _ => none

/-- The words of a line. -/
def words (kind : String) (address : Nat) (value : UInt8) : List (List Char) :=
  [kind.toList, "addr=".toList ++ (Hex.padded 3 address).toList,
    "val=".toList ++ (Hex.padded 2 value.toNat).toList]

/-- A number is read behind its mark. -/
theorem number_padded (mark : String) (width number : Nat) :
    number? mark (mark.toList ++ (Hex.padded width number).toList) = some number := by
  obtain ⟨shown, filled, same, value⟩ := Hex.padded_eq_printed width number
  have digits : (mark.toList ++ Hex.printed shown).dropPrefix? mark.toList =
      some (Hex.printed shown) :=
    List.dropPrefix?_append_of_beq _ (beq_self_eq_true mark.toList)
  rw [same, number?, digits]
  change (Text.Numeral.hexInteger? (Hex.printed shown) >>= fun number => pure number.toNat) = _
  rw [Text.Numeral.hexInteger_printed filled, value]
  rfl

/-- A line is taken apart into its words. -/
theorem splitOn_words {kind : String} (plain : ' ' ∉ kind.toList) (address : Nat)
    (value : UInt8) : ([' '].intercalate (words kind address value)).splitOn ' ' =
      words kind address value := by
  have solid (mark : String) (width number : Nat) (free : ' ' ∉ mark.toList) :
      ' ' ∉ mark.toList ++ (Hex.padded width number).toList := by
    obtain ⟨shown, _, same, _⟩ := Hex.padded_eq_printed width number
    rw [same]
    intro member
    rcases List.mem_append.mp member with inMark | inDigits
    · exact free inMark
    · exact Hex.not_mem_printed (by decide) shown inDigits
  apply List.splitOn_intercalate
  · intro word member
    simp only [words, List.mem_cons, List.not_mem_nil, or_false] at member
    rcases member with rfl | rfl | rfl
    · exact plain
    · exact solid "addr=" 3 address (by decide)
    · exact solid "val=" 2 value.toNat (by decide)
  · exact List.cons_ne_nil _ _

/-- The line of an access tells it. -/
theorem ofLine_line (access : Access) : ofLine? access.line = some access := by
  cases access with
  | read address value =>
    have line : (Access.line (.read address value)).toList =
        [' '].intercalate (words "read:" address value) := by
      simp [Access.line, words]
    rw [ofLine?, line, splitOn_words (by decide), words]
    dsimp only
    rw [number_padded, number_padded]
    change some (Access.read address (UInt8.ofNat value.toNat)) = _
    rw [UInt8.ofNat_toNat]
  | write address value =>
    have line : (Access.line (.write address value)).toList =
        [' '].intercalate (words "write:" address value) := by
      simp [Access.line, words]
    rw [ofLine?, line, splitOn_words (by decide), words]
    dsimp only
    rw [number_padded, number_padded]
    change some (Access.write address (UInt8.ofNat value.toNat)) = _
    rw [UInt8.ofNat_toNat]

/-- No two accesses share a line. -/
theorem line_injective : Function.Injective Access.line := by
  intro first second same
  have told := ofLine_line first
  rw [same, ofLine_line second] at told
  exact (Option.some.inj told).symm

end Access

/-- What is reported of two parts, one after the other. -/
theorem Traced.accesses_bind {α β : Type} (first : Traced α) (next : α → Traced β) :
    (first >>= next).accesses =
      first.accesses ++
        match first.result with
        | .ok value => (next value).accesses
        | .error _ => [] := by
  obtain ⟨accesses, result⟩ := first
  cases result with
  | ok value => rfl
  | error fault => exact (List.append_nil accesses).symm

/-- A block that is refused reports nothing. -/
theorem Memory.accesses_of_refused {memory : Memory} {address : Int} {values : List UInt8}
    {fault : Fault} (refused : (memory.writeBlock address values).result = .error fault) :
    (memory.writeBlock address values).accesses = [] := by
  simp only [writeBlock] at refused ⊢
  split at refused
  case isTrue => cases refused
  case isFalse filled =>
    rw [if_neg filled]
    split at refused
    case isTrue outside => rw [if_pos outside]; rfl
    case isFalse first =>
      rw [if_neg first]
      split at refused
      case isTrue outside => rw [if_pos outside]; rfl
      case isFalse last =>
        -- Between the two ends every byte can be written.
        have begins : memory.writable address = true := by simpa using first
        have ends : memory.writable (address + values.length - 1) = true := by simpa using last
        obtain ⟨next, written⟩ := writeBytes_succeeds fun offset bound =>
          writable_between begins ends bound
        rw [written] at refused
        cases refused

namespace Machine

variable {machine next : Machine} {word : Word} {operation : Operation} {progress : Progress}

/-- The bytes that an operation writes at the index. -/
def outgoing (machine : Machine) (word : Word) : Operation → List UInt8
  | .storeDecimal => decimalDigits (machine.registers.get word.x)
  | .store => machine.registers.upTo word.x
  | _ => []

/-- The block that an operation writes, which may be empty. -/
def writing (machine : Machine) (word : Word) (operation : Operation) : Traced Memory :=
  machine.memory.writeBlock machine.registers.index.toNat (machine.outgoing word operation)

/-- An operation leaves the memory that its block makes. -/
theorem Footprint.written (left : Footprint machine word operation next) :
    (machine.writing word operation).result = .ok next.memory := by
  have memory := left.memory
  cases operation
  case store | storeDecimal => exact memory
  all_goals exact congrArg Except.ok memory.symm

/-- An operation reports the block that it writes, and nothing else. -/
theorem carryOut_accesses (machine : Machine) (word : Word) (operation : Operation) :
    (machine.carryOut word operation).accesses = (machine.writing word operation).accesses := by
  cases operation
  case store | storeDecimal =>
    rw [carryOut, Traced.accesses_bind]
    split
    · exact List.append_nil _
    · exact List.append_nil _
  case ret | call | draw | load =>
    rw [carryOut, Traced.accesses_bind]
    split
    · rfl
    · rfl
  case awaitKey =>
    simp only [carryOut]
    split
    · rfl
    · rfl
  all_goals rfl

/-- An operation that fails reports nothing. -/
theorem carryOut_accesses_of_failed {fault : Fault}
    (failed : (machine.carryOut word operation).result = .error fault) :
    (machine.carryOut word operation).accesses = [] := by
  rw [carryOut_accesses]
  cases operation
  case store | storeDecimal =>
    rcases Traced.result_bind_eq_error.mp failed with refused | ⟨_, _, impossible⟩
    · exact Memory.accesses_of_refused refused
    · cases impossible
  all_goals rfl

/-- A word that is fetched is reported by its two bytes. -/
theorem fetch_accesses (fetched : machine.fetch.result = .ok word) :
    machine.fetch.accesses =
      machine.memory.report (.read machine.registers.pc.toNat
        (machine.memory.byteAt machine.registers.pc.toNat)) ++
      machine.memory.report (.read (machine.registers.pc.toNat + 1)
        (machine.memory.byteAt (machine.registers.pc.toNat + 1))) := by
  rw [fetch_result] at fetched
  split at fetched
  case isTrue => cases fetched
  case isFalse inside =>
    have bound := Nat.lt_of_not_le (not_or.mp inside).2
    have high : machine.memory.readable machine.registers.pc.toNat = true :=
      Memory.readable_iff.mpr (by omega)
    have low : machine.memory.readable (machine.registers.pc.toNat + 1) = true :=
      Memory.readable_iff.mpr (by omega)
    simp only [fetch, inside, if_false, Memory.readWord, Memory.readByte, high, low, if_true]
    change _ ++ (_ ++ []) = _
    rw [List.append_nil]
    rfl

/-- A fetch that fails reports nothing. -/
theorem fetch_accesses_of_failed {fault : Fault} (failed : machine.fetch.result = .error fault) :
    machine.fetch.accesses = [] := by
  rw [fetch_result] at failed
  split at failed
  case isTrue outside =>
    rw [fetch, if_pos outside]
    rfl
  case isFalse => cases failed

/-- A step reports what it fetches, and the block that its operation writes. -/
theorem Finds.step_accesses (finds : machine.Finds word operation) :
    machine.step.accesses =
      machine.fetch.accesses ++ (machine.writing word operation).accesses := by
  have decoded : Instruction.decode machine.dialect.extendedDisplay
      machine.registers.pc.toNat word = .ok ⟨operation, word⟩ :=
    Instruction.decode_eq_ok.mpr ⟨operation, finds.2, rfl⟩
  rw [Machine.step, Traced.accesses_bind, finds.1, ← carryOut_accesses]
  dsimp only
  rw [Traced.accesses_bind, Traced.ofExcept, decoded]
  dsimp only
  rw [List.nil_append, Traced.accesses_bind]
  split
  · exact congrArg (_ ++ ·) (List.append_nil _)
  · exact congrArg (_ ++ ·) (List.append_nil _)

/-- A step that finds no operation reports what it fetches. -/
theorem step_accesses_of_lost (lost : ∀ word operation, ¬machine.Finds word operation) :
    machine.step.accesses = machine.fetch.accesses := by
  rw [step, Traced.accesses_bind]
  cases fetched : machine.fetch.result with
  | error fault => exact List.append_nil _
  | ok word =>
    have none : Operation.ofWord? machine.dialect.extendedDisplay word = none := by
      cases known : Operation.ofWord? machine.dialect.extendedDisplay word with
      | none => rfl
      | some operation => exact absurd ⟨fetched, known⟩ (lost word operation)
    dsimp only
    rw [Traced.accesses_bind, Traced.ofExcept, Instruction.decode, none]
    exact List.append_nil _

/-- A step that fails reports what it fetches, if anything. -/
theorem step_accesses_of_failed {fault : Fault} (failed : machine.step.result = .error fault) :
    machine.step.accesses = machine.fetch.accesses := by
  rcases step_eq_error.mp failed with
    unfetched | ⟨word, fetched, ⟨unknown, _⟩ | ⟨operation, known, refused⟩⟩
  · apply step_accesses_of_lost
    intro word operation finds
    cases finds.1.symm.trans unfetched
  · apply step_accesses_of_lost
    intro other operation finds
    obtain rfl : other = word := Except.ok.inj (finds.1.symm.trans fetched)
    cases finds.2.symm.trans unknown
  · have finds : machine.Finds word operation := ⟨fetched, known⟩
    rw [finds.step_accesses, ← carryOut_accesses, carryOut_accesses_of_failed refused,
      List.append_nil]

end Machine

end Chip8
