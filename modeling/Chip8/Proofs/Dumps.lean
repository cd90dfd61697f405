import Chip8.Proofs.Numerals
import Chip8.Proofs.Ranges
import Chip8.Runner
import Mathlib.Data.List.Sort

/-!
# Dumps are read back

A dump is asked for by ranges as they are typed, or of all addresses if there are none. The
ranges are merged first, and merged ranges lie within memory, so that every dump can be made.

The bytes that are handed out are those at the addresses asked for, in ascending order. A
table can be taken apart again: an empty line ends a table, a blank a label or a byte, and the
numbers are read by the reader of typed addresses. What is read are the rows of each merged
range, sixteen bytes behind each label. Rows begin at multiples of sixteen, so that two tables
may share a row, and every address asked for is found in the row that its label is
made of.
-/

namespace Chip8

namespace AddressRange

variable {range : AddressRange} {ranges : List AddressRange} {address : Int}

/-- The ranges that are dumped: those given, or all addresses. -/
def asked (ranges : List AddressRange) : List AddressRange :=
  if ranges = [] then [full] else ranges

theorem full_within : full.Within := ⟨by decide, by decide, by decide⟩

/-- Ranges that are accepted ask for ranges within memory. -/
theorem asked_within (all : ∀ range ∈ ranges, range.Within) :
    ∀ range ∈ asked ranges, range.Within := by
  unfold asked
  split
  · intro range member
    exact List.mem_singleton.mp member ▸ full_within
  · exact all

/-- Merging separates the ranges that are dumped, and covers what is asked for. -/
theorem separated_asked (all : ∀ range ∈ ranges, range.Within) :
    Separated (merge ranges) ∧
      ∀ address, Covers (merge ranges) address ↔ Covers (asked ranges) address := by
  by_cases none : ranges = []
  · subst none
    refine ⟨⟨?_, List.pairwise_singleton ..⟩, fun _ => Iff.rfl⟩
    intro range member
    exact List.mem_singleton.mp member ▸ full_within.ordered
  · rw [asked, if_neg none]
    exact separated_merge none fun range member => (all range member).ordered

/-- Something is always dumped. -/
theorem merge_ne_nil (all : ∀ range ∈ ranges, range.Within) : merge ranges ≠ [] := by
  intro none
  have some : asked ranges ≠ [] := by
    unfold asked
    split
    · exact List.cons_ne_nil _ _
    · assumption
  obtain ⟨range, member⟩ := List.exists_mem_of_ne_nil _ some
  have inside : range.holds range.first = true :=
    holds_iff.mpr ⟨Int.le_refl _, (asked_within all range member).ordered⟩
  have covered := ((separated_asked all).2 range.first).mpr ⟨range, member, inside⟩
  rw [none] at covered
  exact not_covers_nil _ covered

/-- The addresses of a range. -/
def addresses (range : AddressRange) : List Nat :=
  (List.range range.length.toNat).map (range.first.toNat + ·)

theorem mem_addresses (within : range.Within) {address : Nat} :
    address ∈ range.addresses ↔ range.holds address = true := by
  obtain ⟨low, ordered, high⟩ := within
  simp only [addresses, length, List.mem_map, List.mem_range, holds_iff]
  constructor
  · rintro ⟨offset, small, rfl⟩
    omega
  · intro inside
    exact ⟨address - range.first.toNat, by omega, by omega⟩

/-- One after the other, separated ranges have the addresses that they cover in ascending order,
each once. -/
theorem Separated.flatMap_addresses (separated : Separated ranges)
    (all : ∀ range ∈ ranges, range.Within) :
    ranges.flatMap addresses =
      (List.range 0x1000).filter fun address : Nat => ranges.any (·.holds address) := by
  have ascending : (ranges.flatMap addresses).Pairwise (· < ·) := by
    rw [List.pairwise_flatMap]
    constructor
    · intro range _
      exact List.pairwise_lt_range.map _ fun _ _ less => Nat.add_lt_add_left less _
    · refine separated.apart.imp_of_mem ?_
      intro lower upper lowerMember upperMember apart first inLower second inUpper
      rw [mem_addresses (all lower lowerMember), holds_iff] at inLower
      rw [mem_addresses (all upper upperMember), holds_iff] at inUpper
      simp only [Apart] at apart
      omega
  refine ascending.eq_of_mem_iff (List.pairwise_lt_range.filter _) fun address => ?_
  simp only [List.mem_flatMap, List.mem_filter, List.mem_range, List.any_eq_true]
  constructor
  · rintro ⟨range, member, inside⟩
    rw [mem_addresses (all range member)] at inside
    have high := (all range member).high
    have bounds := holds_iff.mp inside
    exact ⟨by omega, range, member, inside⟩
  · rintro ⟨_, range, member, inside⟩
    exact ⟨range, member, (mem_addresses (all range member)).mpr inside⟩

/-- Rows start at the multiples of their length from the base on. -/
theorem rowsFrom_eq_map (base : Int) (count : Nat) :
    rowsFrom base count =
      (List.range count).map fun index : Nat => base + rowLength * (index : Int) := by
  induction count generalizing base with
  | zero => rfl
  | succ count inductionHypothesis =>
    rw [rowsFrom, inductionHypothesis, List.range_succ_eq_map, List.map_cons, List.map_map]
    refine congrArg₂ List.cons (by simp) (List.map_congr_left fun index _ => ?_)
    simp only [Function.comp_apply, Nat.succ_eq_add_one, rowLength]
    omega

/-- Every address of a range is in one of its rows. -/
theorem mem_rows (inside : range.holds address = true) :
    address - address % rowLength ∈ range.rows := by
  rw [holds_iff] at inside
  rw [rows, rowsFrom_eq_map, List.mem_map]
  refine ⟨((address - address % rowLength - range.base) / rowLength).toNat, ?_, ?_⟩
  · rw [List.mem_range]
    simp only [rowCount, base, rowLength]
    omega
  · simp only [base, rowLength]
    omega

end AddressRange

namespace HexDump

open AddressRange

/-- A row of a table as it is read: its label, and the bytes behind it. -/
structure Row where
  label : Int
  bytes : List Int
deriving DecidableEq, Repr

/-- Read a row: a label and bytes, with blanks between them. -/
def Row.ofLine? (line : List Char) : Option Row :=
  match line.splitOn ' ' with
  | [] => none
  | label :: values => do
    let label ← (readAddress (String.ofList label)).toOption
    let bytes ← values.mapM fun value => (readHex 0xFF (String.ofList value)).toOption
    pure ⟨label, bytes⟩

/-- Read a table: its head, and then its rows. -/
def readTable? : List (List Char) → Option (List Row)
  | [] => none
  | head :: lines => if head = header.toList then lines.mapM Row.ofLine? else none

/-- Read a dump: tables, with an empty line between two of them. -/
def read? (text : String) : Option (List (List Row)) :=
  ((text.toList.splitOn '\n').splitOn []).mapM readTable?

/-- Look for the byte of an address in a dump: the row is that of the address with the last digit
cleared, and the column the last digit. -/
def byteIn? (text : String) (address : Int) : Option Int := do
  let tables ← read? text
  let row ← tables.flatten.find? (·.label == address - address % 16)
  row.bytes[(address % 16).toNat]?

section Text

variable {α : Type} {memory : Memory} {range : AddressRange} {address : Int}

/-- To put lines together in two steps is to put them together at once. -/
theorem intercalate_append (separator : α) {first second : List (List α)} (filled : first ≠ [])
    (filledToo : second ≠ []) :
    [separator].intercalate (first ++ second) =
      [separator].intercalate first ++ separator :: [separator].intercalate second := by
  induction first with
  | nil => exact absurd rfl filled
  | cons line rest inductionHypothesis =>
    by_cases last : rest = []
    · subst last
      simp [List.intercalate_cons_of_ne_nil filledToo]
    · have more : rest ++ second ≠ [] := by simp [last]
      rw [List.cons_append, List.intercalate_cons_of_ne_nil more,
        List.intercalate_cons_of_ne_nil last, inductionHypothesis last]
      simp

/-- Lists that are not empty are not empty when they are put together. -/
theorem intercalate_ne_nil {between : List α} {lists : List (List α)} (some : lists ≠ [])
    (filled : ∀ list ∈ lists, list ≠ []) : between.intercalate lists ≠ [] := by
  obtain ⟨list, rest, rfl⟩ := List.exists_cons_of_ne_nil some
  have begun := filled list List.mem_cons_self
  cases rest <;> simp [List.intercalate_cons_cons, begun]

/-- Blocks of lines with two separators between them are lines with one separator between them,
where an empty line follows every block but the last. -/
theorem intercalate_blocks (separator : α) {blocks : List (List (List α))}
    (filled : ∀ block ∈ blocks, block ≠ []) :
    [separator, separator].intercalate (blocks.map [separator].intercalate) =
      [separator].intercalate ([[]].intercalate blocks) := by
  induction blocks with
  | nil => rfl
  | cons block rest inductionHypothesis =>
    obtain ⟨here, further⟩ := List.forall_mem_cons.mp filled
    by_cases last : rest = []
    · subst last
      simp
    · have more : rest.map [separator].intercalate ≠ [] := by simp [last]
      have lines : [[]].intercalate rest ≠ [] := intercalate_ne_nil last further
      rw [List.map_cons, List.intercalate_cons_of_ne_nil more, inductionHypothesis further,
        List.intercalate_cons_of_ne_nil last, List.append_assoc block,
        intercalate_append separator here (by simp),
        intercalate_append separator (List.cons_ne_nil [] []) lines]
      simp

/-- What separates lists that are put together is between them, or in one of them. -/
theorem mem_intercalate {between : List α} {lists : List (List α)} {value : α}
    (member : value ∈ between.intercalate lists) :
    value ∈ between ∨ ∃ list ∈ lists, value ∈ list := by
  induction lists with
  | nil => cases member
  | cons list rest inductionHypothesis =>
    by_cases last : rest = []
    · subst last
      rw [List.intercalate_singleton] at member
      exact .inr ⟨list, List.mem_cons_self, member⟩
    · rw [List.intercalate_cons_of_ne_nil last] at member
      rcases List.mem_append.mp member with before | later
      · rcases List.mem_append.mp before with here | separates
        · exact .inr ⟨list, List.mem_cons_self, here⟩
        · exact .inl separates
      · rcases inductionHypothesis later with separates | ⟨other, found, inside⟩
        · exact .inl separates
        · exact .inr ⟨other, List.mem_cons_of_mem _ found, inside⟩

/-- Blocks of lines are taken apart again, if their lines are not empty and do not go on. -/
theorem splitOn_blocks {blocks : List (List (List Char))} (some : blocks ≠ [])
    (filled : ∀ block ∈ blocks, block ≠ [])
    (plain : ∀ block ∈ blocks, ∀ line ∈ block, line ≠ [] ∧ '\n' ∉ line) :
    ((['\n', '\n'].intercalate (blocks.map ['\n'].intercalate)).splitOn '\n').splitOn [] =
      blocks := by
  have lines : ∀ line ∈ [[]].intercalate blocks, '\n' ∉ line := by
    intro line member
    rcases mem_intercalate member with between | ⟨block, found, inside⟩
    · rw [List.mem_singleton.mp between]
      exact List.not_mem_nil
    · exact (plain block found line inside).2
  rw [intercalate_blocks '\n' filled,
    List.splitOn_intercalate '\n' lines (intercalate_ne_nil some filled)]
  exact List.splitOn_intercalate []
    (fun block found empty => (plain block found [] empty).1 rfl) some

end Text

section Rows

variable {memory : Memory} {range : AddressRange} {ranges : List AddressRange} {address : Int}

/-- The row of a memory at an address. -/
def Row.of (memory : Memory) (address : Int) : Row :=
  ⟨address, (memory.block address rowLength).map fun value => (value.toNat : Int)⟩

/-- A row as it is shown, label and bytes with blanks between them. -/
def Row.words (memory : Memory) (address : Int) : List (List Char) :=
  (Hex.padded 4 address.toNat).toList ::
    (memory.block address rowLength).map fun value => (Hex.padded 2 value.toNat).toList

theorem toList_rowText (low : 0 ≤ address) :
    (rowText memory address).toList = [' '].intercalate (Row.words memory address) := by
  have label : Hex.paddedInt 4 address = Hex.padded 4 address.toNat := by
    obtain ⟨number, rfl⟩ := Int.eq_ofNat_of_zero_le low
    rfl
  have some : ((memory.block address rowLength).map fun value =>
      (Hex.padded 2 value.toNat).toList) ≠ [] := by
    simp [Memory.block, rowLength]
  rw [Row.words, List.intercalate_cons_of_ne_nil some, rowText, label]
  simp [String.toList_intercalate, Function.comp_def]

/-- What stands in a row are printed digits. -/
theorem Row.words_plain {char : Char} (foreign : ∀ value : Fin 16, Hex.digit value.val ≠ char)
    (memory : Memory) (address : Int) :
    ∀ word ∈ Row.words memory address, word ≠ [] ∧ char ∉ word := by
  have plain (width number : Nat) :
      (Hex.padded width number).toList ≠ [] ∧ char ∉ (Hex.padded width number).toList := by
    obtain ⟨shown, filled, same, _⟩ := Hex.padded_eq_printed width number
    rw [same]
    exact ⟨fun empty => filled (List.map_eq_nil_iff.mp empty), Hex.not_mem_printed foreign shown⟩
  intro word member
  rcases List.mem_cons.mp member with rfl | behind
  · exact plain 4 _
  · obtain ⟨value, _, rfl⟩ := List.mem_map.mp behind
    exact plain 2 _

/-- A row is read back as it is. -/
theorem Row.ofLine_rowText (low : 0 ≤ address) (high : address ≤ 0xFFF) :
    Row.ofLine? (rowText memory address).toList = some (Row.of memory address) := by
  have label : readAddress (Hex.padded 4 address.toNat) = .ok (address.toNat : Int) := by
    apply readHex_padded
    simp only [highest]
    omega
  have byte (value : UInt8) :
      readHex 0xFF (Hex.padded 2 value.toNat) = .ok (value.toNat : Int) := by
    have bound : value.toNat < 256 := value.toNat_lt
    apply readHex_padded
    omega
  have taken : (rowText memory address).toList.splitOn ' ' = Row.words memory address := by
    rw [toList_rowText low]
    exact List.splitOn_intercalate ' '
      (fun word member => (Row.words_plain (by decide) memory address word member).2)
      (List.cons_ne_nil _ _)
  have bytes : (((memory.block address rowLength).map fun value =>
        (Hex.padded 2 value.toNat).toList).mapM fun value =>
          (readHex 0xFF (String.ofList value)).toOption) =
      some ((memory.block address rowLength).map fun value => (value.toNat : Int)) := by
    rw [List.mapM_map]
    apply mapM_of_pure
    intro value _
    simp only [Function.comp_apply, String.ofList_toList, byte]
    rfl
  rw [Row.ofLine?, taken, Row.words]
  dsimp only
  rw [String.ofList_toList, label, bytes, Row.of, Int.toNat_of_nonneg low]
  rfl

/-- The lines of a table. -/
def tableLines (memory : Memory) (range : AddressRange) : List (List Char) :=
  header.toList :: range.rows.map fun address => (rowText memory address).toList

theorem toList_tableText (memory : Memory) (range : AddressRange) :
    (tableText memory range).toList = ['\n'].intercalate (tableLines memory range) := by
  simp [tableText, tableLines, String.toList_intercalate, Function.comp_def]

/-- Rows of a range lie within memory. -/
theorem bounds_of_mem_rows (within : range.Within) (member : address ∈ range.rows) :
    0 ≤ address ∧ address + 16 ≤ 0x1000 := by
  obtain ⟨low, ordered, high⟩ := within
  obtain ⟨above, below⟩ := mem_rowsFrom member
  simp only [rowCount, base, rowLength] at above below
  omega

/-- No line of a table is empty or goes on. -/
theorem tableLines_plain (within : range.Within) :
    ∀ line ∈ tableLines memory range, line ≠ [] ∧ '\n' ∉ line := by
  intro line member
  rcases List.mem_cons.mp member with rfl | row
  · decide
  · obtain ⟨address, found, rfl⟩ := List.mem_map.mp row
    have plain := @Row.words_plain '\n' (by decide) memory address
    rw [toList_rowText (bounds_of_mem_rows within found).1]
    refine ⟨intercalate_ne_nil (List.cons_ne_nil _ _) fun word shown => (plain word shown).1, ?_⟩
    intro goesOn
    rcases mem_intercalate goesOn with blank | ⟨word, shown, inside⟩
    · cases List.mem_singleton.mp blank
    · exact (plain word shown).2 inside

/-- A table is read back row by row. -/
theorem readTable_tableLines (within : range.Within) :
    readTable? (tableLines memory range) = some (range.rows.map (Row.of memory)) := by
  rw [tableLines, readTable?.eq_def]
  dsimp only
  rw [if_pos rfl, List.mapM_map]
  apply mapM_of_pure
  intro address member
  obtain ⟨low, high⟩ := bounds_of_mem_rows within member
  exact Row.ofLine_rowText low (by omega)

/-- A dump is read back table by table. -/
theorem read_text (some : ranges ≠ []) (all : ∀ range ∈ ranges, range.Within) :
    read? ("\n\n".intercalate (ranges.map (tableText memory))) =
      .some (ranges.map fun range => range.rows.map (Row.of memory)) := by
  have lines : ("\n\n".intercalate (ranges.map (tableText memory))).toList =
      ['\n', '\n'].intercalate ((ranges.map (tableLines memory)).map ['\n'].intercalate) := by
    rw [String.toList_intercalate, List.map_map, List.map_map]
    refine congrArg _ (List.map_congr_left fun range _ => toList_tableText memory range)
  have apart : (((['\n', '\n'].intercalate
      ((ranges.map (tableLines memory)).map ['\n'].intercalate)).splitOn '\n').splitOn []) =
        ranges.map (tableLines memory) := by
    apply splitOn_blocks (by simp [some])
    · intro block member
      obtain ⟨range, _, rfl⟩ := List.mem_map.mp member
      exact List.cons_ne_nil _ _
    · intro block member
      obtain ⟨range, found, rfl⟩ := List.mem_map.mp member
      exact tableLines_plain (all range found)
  rw [read?, lines, apart, List.mapM_map]
  exact mapM_of_pure fun range member => readTable_tableLines (all range member)

end Rows

section Tables

variable {memory : Memory} {range : AddressRange} {ranges : List AddressRange} {address : Int}

/-- What a table shows: rows of sixteen bytes of memory at labels that follow one another in steps
of sixteen, and in them every address of a range. -/
structure Tabulates (memory : Memory) (range : AddressRange) (table : List Row) : Prop where
  aligned : ∀ row ∈ table, row.label % 16 = 0
  consecutive : (table.map Row.label).IsChain fun label next => next = label + 16
  full : ∀ row ∈ table, row.bytes.length = 16
  faithful : ∀ row ∈ table, ∀ column : Nat, column < 16 →
    0 ≤ row.label ∧ row.label + column ≤ 0xFFF ∧
      row.bytes[column]? = some ((memory.byteAt (row.label + column).toNat).toNat : Int)
  shown : ∀ address, range.holds address = true → ∃ row ∈ table,
    row.label = address - address % 16 ∧
      row.bytes[(address % 16).toNat]? = some ((memory.byteAt address.toNat).toNat : Int)

/-- Every column of a row has its byte. -/
theorem Row.bytes_of (low : 0 ≤ address) {column : Nat} (small : column < 16) :
    (Row.of memory address).bytes[column]? =
      some ((memory.byteAt (address + column).toNat).toNat : Int) := by
  have place : address.toNat + column = (address + column).toNat := by omega
  have inside : column < AddressRange.rowLength := small
  simp [Row.of, Memory.block, inside, place]

/-- The row of an address has its byte at the last digit. -/
theorem Row.bytes_of_row (low : 0 ≤ address) :
    (Row.of memory (address - address % 16)).bytes[(address % 16).toNat]? =
      some ((memory.byteAt address.toNat).toNat : Int) := by
  have place : address - address % 16 + (address % 16).toNat = address := by omega
  rw [Row.bytes_of (by omega) (by omega), place]

/-- Rows follow one another in steps of sixteen. -/
theorem isChain_rowsFrom (base : Int) (count : Nat) :
    (AddressRange.rowsFrom base count).IsChain fun label next => next = label + 16 := by
  induction count generalizing base with
  | zero => exact .nil
  | succ count inductionHypothesis =>
    cases count with
    | zero => exact .singleton _
    | succ count => exact .cons_cons rfl (inductionHypothesis _)

/-- The rows of a range are a table of it. -/
theorem tabulates_rows (within : range.Within) :
    Tabulates memory range (range.rows.map (Row.of memory)) where
  aligned := by
    intro row member
    obtain ⟨address, found, rfl⟩ := List.mem_map.mp member
    rw [rows, rowsFrom_eq_map] at found
    obtain ⟨index, _, rfl⟩ := List.mem_map.mp found
    simp only [Row.of, base, rowLength]
    omega
  consecutive := by
    have labels : (range.rows.map (Row.of memory)).map Row.label = range.rows := by
      rw [List.map_map]
      exact List.map_id _
    rw [labels]
    exact isChain_rowsFrom _ _
  full := by
    intro row member
    obtain ⟨address, _, rfl⟩ := List.mem_map.mp member
    simp [Row.of, Memory.block, rowLength]
  faithful := by
    intro row member column small
    obtain ⟨address, found, rfl⟩ := List.mem_map.mp member
    obtain ⟨low, high⟩ := bounds_of_mem_rows within found
    refine ⟨low, ?_, Row.bytes_of low small⟩
    simp only [Row.of]
    omega
  shown := by
    intro address inside
    have low : 0 ≤ address := Int.le_trans within.low (holds_iff.mp inside).1
    exact ⟨_, List.mem_map_of_mem (mem_rows inside), rfl, Row.bytes_of_row low⟩

/-- The byte of an address that is covered is found, in whichever table its row comes first. -/
theorem byteIn_text (all : ∀ range ∈ ranges, range.Within) (covered : Covers ranges address) :
    byteIn? ("\n\n".intercalate (ranges.map (tableText memory))) address =
      some ((memory.byteAt address.toNat).toNat : Int) := by
  obtain ⟨range, member, inside⟩ := covered
  have low : 0 ≤ address := Int.le_trans (all range member).low (holds_iff.mp inside).1
  have rows : (ranges.map fun range => range.rows.map (Row.of memory)).flatten =
      (ranges.flatMap rows).map (Row.of memory) := by
    rw [List.flatMap_def, List.map_flatten, List.map_map]
    rfl
  have present : address - address % 16 ∈ ranges.flatMap AddressRange.rows :=
    List.mem_flatMap.mpr ⟨range, member, mem_rows inside⟩
  have first : ((ranges.flatMap AddressRange.rows).map (Row.of memory)).find?
      (·.label == address - address % 16) = some (Row.of memory (address - address % 16)) := by
    rw [List.find?_map]
    cases found : (ranges.flatMap AddressRange.rows).find?
        ((·.label == address - address % 16) ∘ Row.of memory) with
    | none => exact absurd (beq_self_eq_true _) (List.find?_eq_none.mp found _ present)
    | some label =>
      have same := List.find?_some found
      exact congrArg (fun address => some (Row.of memory address)) (eq_of_beq same)
  rw [byteIn?, read_text (List.ne_nil_of_mem member) all]
  dsimp only [bind, Option.bind]
  rw [rows, first]
  exact Row.bytes_of_row low

/-- Ranges that are accepted lie within memory. -/
theorem within_of_accepted {typed : List String}
    (accepted : List.Forall₂ (fun text range => ofText text = .ok range) typed ranges) :
    ∀ range ∈ ranges, range.Within := by
  induction accepted with
  | nil => nofun
  | cons found _ inductionHypothesis =>
    exact List.forall_mem_cons.mpr ⟨ofText_within found, inductionHypothesis⟩

/-- The bytes of separated ranges are those of the addresses that they cover, in ascending order. -/
theorem bytes_of_separated (size : memory.size = 0x1000) (separated : Separated ranges)
    (all : ∀ range ∈ ranges, range.Within) :
    bytes memory ranges = .ok (((List.range 0x1000).filter fun address : Nat =>
      ranges.any (·.holds address)).map memory.byteAt) := by
  have block (range : AddressRange) :
      memory.block range.first range.length.toNat = range.addresses.map memory.byteAt := by
    rw [Memory.block, addresses, List.map_map]
    rfl
  rw [bytes_of_within size all, ← separated.flatMap_addresses all, List.map_flatMap]
  simp only [block, List.flatMap_def]

/-- The addresses whose bytes are dumped, in ascending order. -/
def dumpedAddresses (ranges : List AddressRange) : List Nat :=
  (List.range 0x1000).filter fun address : Nat => (asked ranges).any (·.holds address)

/-- The bytes of merged ranges are those of the addresses asked for. -/
theorem bytes_merge (size : memory.size = 0x1000) (all : ∀ range ∈ ranges, range.Within) :
    bytes memory (merge ranges) = .ok ((dumpedAddresses ranges).map memory.byteAt) := by
  obtain ⟨separated, covers⟩ := separated_asked all
  have same (address : Nat) : (merge ranges).any (·.holds address) =
      (asked ranges).any (·.holds address) := by
    rw [Bool.eq_iff_iff, List.any_eq_true, List.any_eq_true]
    exact covers address
  rw [bytes_of_separated size separated (merge_within all)]
  simp only [same, dumpedAddresses]

/-- A dump of ranges that are accepted is made, whatever memory holds. The bytes are those of the
addresses asked for, each once and in ascending order. The text is read back as one table for each
merged range, and the byte of every address asked for is found in it. -/
theorem dump_reads_back {typed : List String} (size : memory.size = 0x1000)
    (accepted : List.Forall₂ (fun text range => ofText text = .ok range) typed ranges) :
    (Separated (merge ranges) ∧
      ∀ address, Covers (merge ranges) address ↔ Covers (asked ranges) address) ∧
    (∃ content, bytes memory (merge ranges) = .ok content ∧
      Runner.dump memory (merge ranges) .bytes = some (.bytes content) ∧
      content = ((List.range 0x1000).filter fun address : Nat =>
        (asked ranges).any (·.holds address)).map memory.byteAt) ∧
    ∃ shown tables, text memory (merge ranges) = .ok shown ∧
      Runner.dump memory (merge ranges) .table = some (.text shown) ∧
      read? shown = some tables ∧ List.Forall₂ (Tabulates memory) (merge ranges) tables ∧
      ∀ address, Covers (asked ranges) address →
        byteIn? shown address = some ((memory.byteAt address.toNat).toNat : Int) := by
  have all := within_of_accepted accepted
  have inside := merge_within all
  obtain ⟨separated, covers⟩ := separated_asked all
  have content := bytes_merge size all
  have shown := text_of_within size inside
  have read := @read_text memory _ (merge_ne_nil all) inside
  refine ⟨⟨separated, covers⟩, ⟨_, content, ?_, rfl⟩, _, _, shown, ?_, read, ?_, ?_⟩
  · rw [Runner.dump, content]
    rfl
  · rw [Runner.dump, shown]
    rfl
  · rw [List.forall₂_map_right_iff, List.forall₂_same]
    exact fun range member => tabulates_rows (inside range member)
  · exact fun address covered => byteIn_text inside ((covers address).mpr covered)

/-- Two ranges of the font, typed with and without blanks and marks: their tables have one row,
which both show. -/
theorem dump_reads_back_of_sharedRow :
    Memory.standard.size = 0x1000 ∧
      List.Forall₂ (fun text range => ofText text = .ok range) ["5a:0x5F", " 50 : 51"]
        [⟨0x5A, 0x5F⟩, ⟨0x50, 0x51⟩] ∧
      bytes .standard (merge [⟨0x5A, 0x5F⟩, ⟨0x50, 0x51⟩]) =
        .ok [0xF0, 0x90, 0xF0, 0x10, 0xF0, 0x80, 0xF0, 0xF0] ∧
      ∃ shown tables, text .standard (merge [⟨0x5A, 0x5F⟩, ⟨0x50, 0x51⟩]) = .ok shown ∧
        read? shown = some tables ∧ tables.length = 2 ∧ byteIn? shown 0x5B = some 0x10 := by
  have typed : List.Forall₂ (fun text range => ofText text = .ok range) ["5a:0x5F", " 50 : 51"]
      [⟨0x5A, 0x5F⟩, ⟨0x50, 0x51⟩] := .cons (by decide +kernel) (.cons (by decide +kernel) .nil)
  obtain ⟨_, _, shown, tables, made, _, read, tabulated, found⟩ :=
    dump_reads_back Memory.standard_size typed
  have merged : merge [⟨0x5A, 0x5F⟩, ⟨0x50, 0x51⟩] = [⟨0x50, 0x51⟩, ⟨0x5A, 0x5F⟩] := by
    simp [merge, List.mergeSort, List.MergeSort.Internal.splitInTwo, le, join]
  refine ⟨Memory.standard_size, typed, ?_, shown, tables, made, read, ?_, ?_⟩
  · rw [merged]
    decide +kernel
  · rw [← tabulated.length_eq, merged]
    rfl
  · rw [found 0x5B ⟨⟨0x5A, 0x5F⟩, List.mem_cons_self, by decide⟩]
    decide +kernel

end Tables
end HexDump
end Chip8
