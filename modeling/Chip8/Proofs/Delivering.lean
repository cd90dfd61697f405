import Chip8.Proofs.Conduct
import Chip8.Proofs.Dumps

/-!
# What is handed over

After a session the screen and the registers are printed, if this is asked for, and then the
dump. A dump that is given a file replaces it, and nothing is printed of it. The path leads to
the file afterwards, because the directories on the way stand as they stood.

A table is printed behind what is shown. Bytes are passed on at once and overtake what is
still waiting to be printed, which is less than a block.
-/

namespace Chip8

namespace Disk

variable {disk after : Disk} {path : Path} {chain other : List String} {content : List UInt8}
  {components : List String} {place : Place}

/-- The chain at which a file can be written. -/
def Place.target? : Place → Option (List String)
  | .file chain _ | .vacant chain => some chain
  | .folder _ => none

/-- One file is written: its path leads to it afterwards, and every other chain stays. -/
structure Rewrites (before : Disk) (path : Path) (content : List UInt8) (after : Disk) : Prop where
  reads : after.read path = .ok content
  home : after.home = before.home
  elsewhere : ∃ place chain, before.locate path = .ok place ∧ place.target? = some chain ∧
    after.entry? chain = some (.file content) ∧
    ∀ other, other ≠ chain → after.entry? other = before.entry? other

/-- Without the entries of a chain, every other chain has its entry still. -/
theorem lookup_filter_ne (entries : List (List String × Entry)) (differs : other ≠ chain) :
    (entries.filter fun old => old.1 != chain).lookup other = entries.lookup other := by
  induction entries with
  | nil => rfl
  | cons old rest inductionHypothesis =>
    obtain ⟨found, entry⟩ := old
    by_cases here : found = chain
    · subst here
      have passed : (other == found) = false := beq_false_of_ne differs
      rw [List.filter_cons_of_neg (by simp), inductionHypothesis, List.lookup_cons, passed]
    · rw [List.filter_cons_of_pos (by simpa using here), List.lookup_cons, List.lookup_cons,
        inductionHypothesis]

theorem lookup_filter_self (entries : List (List String × Entry)) (chain : List String) :
    (entries.filter fun old => old.1 != chain).lookup chain = none := by
  rw [List.lookup_eq_none_iff]
  rintro ⟨found, entry⟩ kept
  have differs : found ≠ chain := bne_iff_ne.mp (List.mem_filter.mp kept).2
  exact bne_iff_ne.mpr differs.symm

/-- What is put at a chain stands there. -/
theorem entry_put_self (disk : Disk) (below : chain ≠ []) (entry : Entry) :
    Disk.entry? (disk.put chain entry) chain = some entry := by
  have filled : chain.isEmpty = false := List.isEmpty_eq_false_iff.mpr below
  unfold Disk.entry? put
  rw [filled, List.lookup_append, lookup_filter_self, List.lookup_cons, beq_self_eq_true]
  rfl

/-- What stands elsewhere stays. -/
theorem entry_put_of_ne (disk : Disk) (differs : other ≠ chain) (entry : Entry) :
    Disk.entry? (disk.put chain entry) other = disk.entry? other := by
  have passed : (other == chain) = false := beq_false_of_ne differs
  unfold Disk.entry? put
  rw [List.lookup_append, lookup_filter_ne _ differs, List.lookup_cons, passed, List.lookup_nil,
    Option.or_none]

/-- A file can be written where no directory stands. -/
theorem target_placeAt (vacates : disk.entry? chain ≠ some .folder) :
    (disk.placeAt chain).target? = some chain := by
  unfold placeAt
  cases found : disk.entry? chain with
  | none => rfl
  | some entry =>
    cases entry with
    | file old => rfl
    | folder => exact absurd found vacates

/-- Nothing leads on from there. -/
theorem follow_of_target {final : Place} (settled : place.target? = some chain)
    (leads : disk.follow place components = .ok final) : components = [] ∧ final = place := by
  cases components with
  | nil =>
    cases leads
    exact ⟨rfl, rfl⟩
  | cons name rest =>
    cases place with
    | folder => cases settled
    | file | vacant => cases leads

/-- A file is written at a chain where no directory stands, and the components that led there
lead to the file. Those on the way are directories, and none of them is written. -/
theorem follow_put {start : List String}
    (leads : disk.follow (.folder start) components = .ok place)
    (target : place.target? = some chain) (content : List UInt8) :
    disk.entry? chain ≠ some .folder ∧
      (disk.put chain (.file content)).follow (.folder start) components =
        .ok (.file chain content) := by
  induction components generalizing start with
  | nil =>
    cases leads
    cases target
  | cons name rest inductionHypothesis =>
    rw [follow] at leads ⊢
    split at leads
    case isTrue => cases leads
    case isFalse short =>
      rw [if_neg short]
      generalize extend start name = next at leads ⊢
      by_cases found : disk.entry? next = some .folder
      · rw [placeAt, found] at leads
        obtain ⟨vacates, led⟩ := inductionHypothesis leads
        refine ⟨vacates, ?_⟩
        have differs : next ≠ chain := by
          rintro rfl
          exact vacates found
        rw [placeAt, entry_put_of_ne disk differs, found]
        exact led
      · have settled := target_placeAt found
        obtain ⟨rfl, rfl⟩ := follow_of_target settled leads
        cases settled.symm.trans target
        have below : chain ≠ [] := by
          rintro rfl
          exact found rfl
        refine ⟨found, ?_⟩
        rw [placeAt, entry_put_self disk below]
        rfl

/-- A file is written where its path leads to one, or to nothing. -/
theorem write_eq_ok :
    disk.write path content = .ok after ↔
      ∃ place chain, disk.locate path = .ok place ∧ place.target? = some chain ∧
        after = disk.put chain (.file content) := by
  unfold write
  cases disk.locate path with
  | error failure => simp
  | ok place => cases place <;> simp [Place.target?, eq_comm]

/-- To write a file is to rewrite it, and nothing else. -/
theorem rewrites_of_write (written : disk.write path content = .ok after) :
    disk.Rewrites path content after := by
  obtain ⟨place, chain, located, target, rfl⟩ := write_eq_ok.mp written
  have short : ¬longestPath < path.text.utf8ByteSize := by
    intro long
    rw [locate, if_pos long] at located
    cases located
  have leads := located
  rw [locate, if_neg short] at leads
  obtain ⟨vacates, led⟩ := follow_put leads target content
  have below : chain ≠ [] := by
    rintro rfl
    exact vacates rfl
  refine ⟨?_, rfl, place, chain, located, target, entry_put_self disk below _, ?_⟩
  · have found : (disk.put chain (.file content)).locate path = .ok (.file chain content) := by
      rw [locate, if_neg short]
      exact led
    rw [read, found]
  · exact fun other differs => entry_put_of_ne disk differs _

end Disk

namespace Runner

open Output (utf8)
open AddressRange (merge merge_within)

variable {options : Options} {plan : Plan} {ranges : List AddressRange} {machine : Machine}
  {before after : Disk} {output : Output}

/-- The lines on the machine, if they are asked for. -/
def Options.lines (options : Options) (machine : Machine) : List String :=
  if options.showDisplay then machine.screen.plainText :: (Snapshot.ofMachine machine).lines else []

/-- What is dumped of a memory: a table for each merged range, the bytes of the addresses asked
for, or nothing. Naming a file asks for tables, if nothing else does. -/
def Options.dumped (options : Options) (ranges : List AddressRange) (memory : Memory) :
    Option Output.Piece :=
  match options.dumpFormat, options.dump with
  | .none, none => none
  | .bytes, _ => some (.bytes ((HexDump.dumpedAddresses ranges).map memory.byteAt))
  | .table, _ | .none, some _ =>
    some (.text ("\n\n".intercalate ((merge ranges).map (HexDump.tableText memory)) ++ "\n"))

/-- What is printed of a machine, and the disk as it is left. -/
inductive Delivered (options : Options) (ranges : List AddressRange) (machine : Machine)
    (before : Disk) : List UInt8 → Disk → Prop where
  | undumped (unasked : options.dumped ranges machine.memory = none) :
      Delivered options ranges machine before (utf8 (unlines (options.lines machine))) before
  | tables {tables : String} (asked : options.dumped ranges machine.memory = some (.text tables))
      (unnamed : options.dump = none) :
      Delivered options ranges machine before
        (utf8 (unlines (options.lines machine)) ++ utf8 tables) before
  /-- Less than a block of the lines comes after the bytes. -/
  | bytes {bytes early late : List UInt8}
      (asked : options.dumped ranges machine.memory = some (.bytes bytes))
      (unnamed : options.dump = none)
      (lines : early ++ late = utf8 (unlines (options.lines machine)))
      (overtaken : late.length < Output.blockSize) :
      Delivered options ranges machine before (early ++ bytes ++ late) before
  | filed {piece : Output.Piece} {name : String} {after : Disk}
      (asked : options.dumped ranges machine.memory = some piece)
      (named : options.dump = some (some name))
      (rewrites : before.Rewrites (.ofText name) piece.content after) :
      Delivered options ranges machine before (utf8 (unlines (options.lines machine))) after

/-- Lines are printed one after the other. -/
theorem content_foldl_print (lines : List String) (output : Output) :
    (lines.foldl Output.print output).content = output.content ++ utf8 (unlines lines) := by
  induction lines generalizing output with
  | nil => exact (List.append_nil _).symm
  | cons line rest inductionHypothesis =>
    have joined : unlines (line :: rest) = (line ++ "\n") ++ unlines rest := by
      rw [← unlines_singleton, ← unlines_append]
      rfl
    rw [List.foldl_cons, inductionHypothesis, Output.content_print, joined,
      Output.utf8_append (line ++ "\n"), List.append_assoc]

/-- After lines were printed, less than a block is waiting. -/
theorem waiting_foldl_print (lines : List String) :
    (utf8 (lines.foldl Output.print .empty).waiting).length < Output.blockSize := by
  rcases List.eq_nil_or_concat lines with rfl | ⟨early, line, rfl⟩
  · decide
  · rw [List.concat_eq_append, List.foldl_append, List.foldl_cons, List.foldl_nil, Output.print]
    exact Output.waiting_write _ _

/-- What is shown of a machine is its lines. -/
theorem shown_eq (options : Options) (machine : Machine) :
    options.shown machine = (options.lines machine).foldl Output.print .empty := by
  unfold Options.shown Options.lines
  split <;> rfl

theorem content_shown (options : Options) (machine : Machine) :
    (options.shown machine).content = utf8 (unlines (options.lines machine)) := by
  rw [shown_eq, content_foldl_print]
  rfl

/-- The dump that is made is the one that is asked for; the end of a table's last line is printed
or written with it. -/
theorem dump_cases (size : machine.memory.size = 0x1000) (all : ∀ range ∈ ranges, range.Within) :
    (dump machine.memory (merge ranges) options.dumpForm = none ∧
      options.dumped ranges machine.memory = none) ∨
    (∃ tables, dump machine.memory (merge ranges) options.dumpForm = some (.text tables) ∧
      options.dumped ranges machine.memory = some (.text (tables ++ "\n"))) ∨
    ∃ bytes, dump machine.memory (merge ranges) options.dumpForm = some (.bytes bytes) ∧
      options.dumped ranges machine.memory = some (.bytes bytes) := by
  have tables : dump machine.memory (merge ranges) .table = some (.text
      ("\n\n".intercalate ((merge ranges).map (HexDump.tableText machine.memory)))) := by
    rw [dump, HexDump.text_of_within size (merge_within all)]
    rfl
  have bytes : dump machine.memory (merge ranges) .bytes =
      some (.bytes ((HexDump.dumpedAddresses ranges).map machine.memory.byteAt)) := by
    rw [dump, HexDump.bytes_merge size all]
    rfl
  unfold Options.dumpForm Options.dumped
  cases options.dumpFormat with
  | table => exact .inr (.inl ⟨_, tables, rfl⟩)
  | bytes => exact .inr (.inr ⟨_, bytes, rfl⟩)
  | none =>
    cases options.dump with
    | none => exact .inl ⟨rfl, rfl⟩
    | some entry => exact .inr (.inl ⟨_, tables, rfl⟩)

/-- A dump is printed, or written to the file that is named. -/
theorem place_eq_ok {piece : Output.Piece} {printed : Output} :
    place before output options.dump piece = .ok (printed, after) ↔
      (options.dump = none ∧ printDump output piece = printed ∧ before = after) ∨
      ∃ name, options.dump = some (some name) ∧ (Disk.Path.ofText name).isPlain = true ∧
        output = printed ∧ before.write (.ofText name) (fileContent piece) = .ok after := by
  unfold place
  cases options.dump with
  | none => simp
  | some entry =>
    cases entry with
    | none => simp
    | some name =>
      cases plain : (Disk.Path.ofText name).isPlain with
      | false => simp [plain]
      | true =>
        cases wrote : before.write (.ofText name) (fileContent piece) <;> simp [plain, wrote]

/-- What is handed over of a machine is the lines and the dump that are asked for. -/
theorem delivered_of_handOver (size : machine.memory.size = 0x1000)
    (within : ∀ range ∈ plan.dumpRanges, range.Within)
    (handed : handOver options plan machine before = .ok (output, after)) :
    Delivered options plan.dumpRanges machine before output.content after := by
  have shown := content_shown options machine
  rw [handOver] at handed
  rcases dump_cases size within with ⟨made, unasked⟩ | ⟨tables, made, asked⟩ | ⟨bytes, made, asked⟩
  · rw [made] at handed
    cases handed
    rw [shown]
    exact .undumped unasked
  · rw [made] at handed
    rcases place_eq_ok.mp handed with ⟨unnamed, rfl, rfl⟩ | ⟨name, named, _, rfl, written⟩
    · rw [printDump, Output.content_print, shown]
      exact .tables asked unnamed
    · rw [shown]
      exact .filed asked named (Disk.rewrites_of_write written)
  · rw [made] at handed
    rcases place_eq_ok.mp handed with ⟨unnamed, rfl, rfl⟩ | ⟨name, named, _, rfl, written⟩
    · rw [printDump, Output.content_put]
      refine .bytes asked unnamed ?_ ?_
      · rw [← shown, Output.content_eq]
      · rw [shown_eq]
        exact waiting_foldl_print _
    · rw [shown]
      exact .filed asked named (Disk.rewrites_of_write written)

end Runner

end Chip8
