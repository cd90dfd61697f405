import Chip8.HexDump
import Chip8.Proofs.Merging
import Chip8.Proofs.Storage

/-!
# Ranges within memory

A range as typed has its ends in order, and both within a standard memory. Sorting and joining
ranges keeps them so. What a dump reads is therefore always there: whole rows as well, since the
size of a standard memory is a multiple of the length of a row.
-/

namespace Chip8

namespace AddressRange

variable {range first second : AddressRange} {ranges : List AddressRange}

/-- The ends are in order, and addresses of a standard memory. -/
structure Within (range : AddressRange) : Prop where
  low : 0 ≤ range.first
  ordered : range.first ≤ range.last
  high : range.last ≤ 0xFFF

/-- A number that is accepted lies between zero and the limit. -/
theorem readHex_within {limit value : Int} {typed : String}
    (accepted : readHex limit typed = .ok value) : 0 ≤ value ∧ value ≤ limit := by
  unfold readHex at accepted
  dsimp only at accepted
  split at accepted
  · cases accepted
  · split at accepted
    case isTrue => cases accepted
    case isFalse inside =>
      cases accepted
      omega

/-- A range that is accepted lies within a standard memory. -/
theorem ofText_within {typed : String} (accepted : ofText typed = .ok range) : range.Within := by
  unfold ofText at accepted
  split at accepted
  · cases accepted
  case h_2 left right _ =>
    cases low : readAddress (String.ofList left) with
    | error misuse =>
      rw [low] at accepted
      cases accepted
    | ok first =>
      cases high : readAddress (String.ofList right) with
      | error misuse =>
        rw [low, high] at accepted
        cases accepted
      | ok last =>
        rw [low, high] at accepted
        change (if last < first then .error .reversed else .ok ⟨first, last⟩ :
          Except Misuse AddressRange) = _ at accepted
        split at accepted
        case isTrue => cases accepted
        case isFalse ordered =>
          cases accepted
          exact ⟨(readHex_within low).1, Int.not_lt.mp ordered, (readHex_within high).2⟩

/-- Merged ranges lie within memory, since they cover nothing that the given ones do not. -/
theorem merge_within (all : ∀ range ∈ ranges, range.Within) :
    ∀ range ∈ merge ranges, range.Within := by
  intro range member
  by_cases empty : ranges = []
  · rw [empty] at member
    obtain rfl := List.mem_singleton.mp member
    exact ⟨by decide, by decide, by decide⟩
  · obtain ⟨separated, covers⟩ := separated_merge empty fun given found => (all given found).ordered
    have ordered : range.first ≤ range.last := separated.proper range member
    have inside : ∀ address, range.first ≤ address → address ≤ range.last →
        0 ≤ address ∧ address ≤ 0xFFF := by
      intro address above below
      obtain ⟨given, found, holds⟩ :=
        (covers address).mp ⟨range, member, holds_iff.mpr ⟨above, below⟩⟩
      obtain ⟨low, _, high⟩ := all given found
      rw [holds_iff] at holds
      omega
    exact ⟨(inside _ (Int.le_refl _) ordered).1, ordered, (inside _ ordered (Int.le_refl _)).2⟩

end AddressRange

namespace Memory

variable {memory : Memory} {address : Int} {length : Nat}

/-- The bytes from an address on. -/
def block (memory : Memory) (address : Int) (length : Nat) : List UInt8 :=
  (List.range length).map fun offset => memory.byteAt (address.toNat + offset)

/-- A block within a standard memory can be read. -/
theorem readBlock_of_within (size : memory.size = 0x1000) (low : 0 ≤ address)
    (start : address ≤ 0xFFF) (stop : address + length ≤ 0x1000) :
    memory.readBlock address length = .ok (memory.block address length) := by
  apply readBlock_eq_ok.mpr
  refine ⟨⟨readable_iff.mpr ?_, ?_⟩, rfl⟩
  · omega
  · omega

end Memory

namespace HexDump

variable {memory : Memory} {range : AddressRange} {ranges : List AddressRange}

/-- Results that are all there are there as a whole. -/
theorem mapM_of_pure {m : Type → Type} [Monad m] [LawfulMonad m] {α β : Type} {f : α → m β}
    {g : α → β} {inputs : List α} (all : ∀ input ∈ inputs, f input = pure (g input)) :
    inputs.mapM f = pure (inputs.map g) := by
  induction inputs with
  | nil => exact List.mapM_nil
  | cons input rest inductionHypothesis =>
    have first := all input List.mem_cons_self
    have further :=
      inductionHypothesis fun other member => all other (List.mem_cons_of_mem _ member)
    rw [List.mapM_cons, first, further, pure_bind, pure_bind]
    rfl

/-- The row of a table as it is shown. -/
def rowText (memory : Memory) (address : Int) : String :=
  Hex.paddedInt 4 address ++ " " ++
    " ".intercalate ((memory.block address AddressRange.rowLength).map fun value =>
      Hex.padded 2 value.toNat)

/-- Rows follow one another without a gap. -/
theorem mem_rowsFrom {base address : Int} {count : Nat}
    (member : address ∈ AddressRange.rowsFrom base count) :
    base ≤ address ∧ address + 16 ≤ base + 16 * count := by
  induction count generalizing base with
  | zero => cases member
  | succ count inductionHypothesis =>
    rcases List.mem_cons.mp member with rfl | later
    · omega
    · have further := inductionHypothesis later
      simp only [AddressRange.rowLength] at further
      omega

/-- The rows of a range lie within memory as a whole. -/
theorem row_of_within (size : memory.size = 0x1000) (within : range.Within) {address : Int}
    (member : address ∈ range.rows) : row memory address = .ok (rowText memory address) := by
  obtain ⟨low, ordered, high⟩ := within
  obtain ⟨above, below⟩ := mem_rowsFrom member
  simp only [AddressRange.rowCount, AddressRange.base, AddressRange.rowLength] at above below
  have read := @Memory.readBlock_of_within memory address 16 size (by omega) (by omega) (by omega)
  simp only [row, AddressRange.rowLength, read]
  rfl

/-- The table of a range as it is shown. -/
def tableText (memory : Memory) (range : AddressRange) : String :=
  "\n".intercalate (header :: range.rows.map (rowText memory))

/-- The table of a range can be made. -/
theorem table_of_within (size : memory.size = 0x1000) (within : range.Within) :
    table memory range = .ok (tableText memory range) := by
  have rows : rowsFrom memory range.base range.rowCount =
      .ok (range.rows.map (rowText memory)) := by
    rw [rowsFrom_eq_mapM]
    exact mapM_of_pure fun _ => row_of_within size within
  rw [table, rows]
  rfl

/-- The dump of ranges as tables can be made. -/
theorem text_of_within (size : memory.size = 0x1000) (all : ∀ range ∈ ranges, range.Within) :
    text memory ranges = .ok ("\n\n".intercalate (ranges.map (tableText memory))) := by
  have tables : ranges.mapM (table memory) = .ok (ranges.map (tableText memory)) :=
    mapM_of_pure fun range member => table_of_within size (all range member)
  rw [text, tables]
  rfl

/-- The bytes of ranges can be handed out. -/
theorem bytes_of_within (size : memory.size = 0x1000) (all : ∀ range ∈ ranges, range.Within) :
    bytes memory ranges =
      .ok (ranges.map fun range => memory.block range.first range.length.toNat).flatten := by
  have blocks : (ranges.mapM fun range => memory.readBlock range.first range.length.toNat) =
      .ok (ranges.map fun range => memory.block range.first range.length.toNat) := by
    apply mapM_of_pure
    intro range member
    obtain ⟨low, ordered, high⟩ := all range member
    apply Memory.readBlock_of_within size low
    · omega
    · rw [AddressRange.length]
      omega
  rw [bytes, blocks]
  rfl

end HexDump

end Chip8
