import Chip8.Dialect
import Chip8.Proofs.Numerals
import Mathlib.Data.List.DropRight
import Mathlib.Data.List.Nodup

/-!
# Presets with overrides

A dialect is chosen by the name of a preset and a list of overrides, all typed by a user. An
override is the name of a switch, alone or with a position behind the first equals sign. Blanks
around a name and around a position do not matter, nor does the case of a position, and a hyphen
in the name of a switch is as good as an underscore: a switch can be named in many ways.

The overrides are applied one after the other, so that of several for a switch only the last one
counts, however each of them spells its name. What no override names stays as it is in the preset.
A choice is refused exactly for what is wrong with the preset or with one of the overrides by
itself; so overrides for different switches can change places.

Capital letters count as small ones in ASCII only. Of the characters beyond it just the Kelvin
sign has a small form in ASCII, a `k`, and that letter is in no position and in no name of a preset.
-/

namespace Chip8

namespace Text

/-- A text spells a word if, between blanks, it is the word up to a folding of its characters. -/
def Spells (fold : Char → Char) (typed word : List Char) : Prop :=
  ∃ before shown behind, typed = before ++ shown ++ behind ∧
    (∀ char ∈ before ++ behind, isBlank char = true) ∧ shown.map fold = word

/-- No character of a text is a blank. -/
def isSolid (text : List Char) : Bool := text.all fun char => !isBlank char

variable {fold : Char → Char} {typed word : List Char}

/-- What is trimmed off a text was to be dropped. -/
theorem exists_trimBy (drop : Char → Bool) (typed : List Char) :
    ∃ before behind, typed = before ++ trimBy drop typed ++ behind ∧
      ∀ char ∈ before ++ behind, drop char = true := by
  let rest := typed.dropWhile drop
  refine ⟨typed.takeWhile drop, rest.rtakeWhile drop, ?_, ?_⟩
  · have ends : trimBy drop typed ++ rest.rtakeWhile drop = rest :=
      List.rdropWhile_append_rtakeWhile
    rw [List.append_assoc, ends, List.takeWhile_append_dropWhile]
  · intro char member
    rcases List.mem_append.mp member with before | behind
    · exact List.mem_takeWhile_imp before
    · exact List.mem_rtakeWhile_imp behind

/-- Trimmed and folded, a text is the word that it spells. -/
theorem fold_trim_eq_iff (kept : ∀ char, isBlank char = true → fold char = char)
    (solid : isSolid word = true) :
    (trim typed).map fold = word ↔ Spells fold typed word := by
  constructor
  · intro same
    obtain ⟨before, behind, whole, blank⟩ := exists_trimBy isBlank typed
    exact ⟨before, trim typed, behind, whole, blank, same⟩
  · rintro ⟨before, shown, behind, rfl, blank, rfl⟩
    -- A blank within would pass the folding unchanged, and the word has none.
    have solidShown : ∀ char ∈ shown, isBlank char = false := by
      intro char member
      rw [Bool.eq_false_iff]
      intro isBlankChar
      have folded := List.all_eq_true.mp solid (fold char) (List.mem_map_of_mem member)
      rw [kept char isBlankChar, isBlankChar] at folded
      cases folded
    rw [trim, trimBy_between (fun char member => blank char (List.mem_append_left _ member))
      solidShown (fun char member => blank char (List.mem_append_right _ member))]

/-- No blank is a capital letter. -/
theorem toLower_of_blank (char : Char) (blank : isBlank char = true) : char.toLower = char := by
  have outside : char.toNat < 65 ∨ 90 < char.toNat := by
    simp only [isBlank, blankRanges, List.any_cons, List.any_nil, Bool.or_false, Bool.or_eq_true,
      Bool.and_eq_true, decide_eq_true_eq] at blank
    omega
  refine dif_neg fun capital => ?_
  have low : 65 ≤ char.toNat := capital.1
  have high : char.toNat ≤ 90 := capital.2
  omega

end Text

namespace Dialect

open Text (Spells)

variable {item : String} {key : List Char} {position : Option (List Char)} {switch : Switch}
  {on : Bool} {dialect result : Dialect}

/-- A hyphen counts as an underscore. -/
def joined (char : Char) : Char := if char = '-' then '_' else char

/-- An override is a name alone, or a name and a position with the first equals sign between
them. -/
inductive Parts : List Char → List Char → Option (List Char) → Prop
  | bare {key : List Char} (plain : '=' ∉ key) : Parts key key none
  | assigned {key raw : List Char} (plain : '=' ∉ key) : Parts (key ++ '=' :: raw) key (some raw)

/-- The words for a position. -/
def wordsFor : Bool → List String
  | true => ["1", "true", "on"]
  | false => ["0", "false", "off"]

/-- A bare name turns its switch on. Else the position is given by a word, in capital or small
letters. -/
def IsPosition : Option (List Char) → Bool → Prop
  | none, on => on = true
  | some raw, on => ∃ word ∈ wordsFor on, Spells Char.toLower raw word.toList

/-- An override names a switch by what stands before the first equals sign. -/
def Names (item : String) (switch : Switch) : Prop :=
  ∃ key position, Parts item.toList key position ∧ Spells joined key switch.name.toList

/-- An override gives a position, whatever switch it names. -/
def Gives (item : String) (on : Bool) : Prop :=
  ∃ key position, Parts item.toList key position ∧ IsPosition position on

/-- A preset goes by its name, in capital or small letters. -/
def IsPreset (name : String) (dialect : Dialect) : Prop :=
  ∃ key, (key, dialect) ∈ presets ∧ Spells Char.toLower name.toList key.toList

/-- How overrides settle a switch: in the position that the last one gives of those that name it,
and as it was before if there is none. -/
inductive Settles (overrides : List String) (switch : Switch) (before : Bool) : Bool → Prop
  | named (earlier : List String) (item : String) (later : List String) {on : Bool}
      (split : overrides = earlier ++ item :: later) (names : Names item switch)
      (gives : Gives item on) (last : ∀ other ∈ later, ¬Names other switch) :
      Settles overrides switch before on
  | unnamed (others : ∀ item ∈ overrides, ¬Names item switch) :
      Settles overrides switch before before

/-- To put one switch into a position leaves the others as they are. -/
theorem get_set (dialect : Dialect) (switch other : Switch) (on : Bool) :
    (dialect.set switch on).get other = if switch = other then on else dialect.get other := by
  cases switch <;> cases other <;> rfl

/-- A dialect is told by its switches. -/
theorem ext_get {other : Dialect} (same : ∀ switch, dialect.get switch = other.get switch) :
    dialect = other := by
  cases dialect
  cases other
  rw [mk.injEq]
  exact ⟨same .shiftUsesVy, same .jumpWithOffsetUsesVx, same .storeLoadIncrementsIndex,
    same .clipSpritesVertically, same .clipSpritesHorizontally, same .logicResetsVf,
    same .extendedDisplay⟩

/-- It does not matter which of two switches is set first. -/
theorem set_comm (dialect : Dialect) {switch other : Switch} (apart : switch ≠ other)
    (on off : Bool) :
    (dialect.set switch on).set other off = (dialect.set other off).set switch on := by
  refine ext_get fun third => ?_
  simp only [get_set]
  by_cases first : switch = third
  · have second : other ≠ third := fun same => apart (first.trans same.symm)
    rw [if_neg second, if_pos first, if_pos first]
  · rw [if_neg first, if_neg first]

/-- A switch is found by its name. -/
theorem Switch.ofName?_eq_some {name : String} :
    ofName? name = some switch ↔ name = switch.name := by
  constructor
  · intro found
    have shown := List.find?_some found
    exact (eq_of_beq shown).symm
  · rintro rfl
    cases switch <;> decide

/-- In a table that has each key once, a value is found by its key. -/
theorem lookup_eq_some_iff_mem {α : Type} {table : List (String × α)}
    (distinct : (table.map Prod.fst).Nodup) {key : String} {value : α} :
    table.lookup key = some value ↔ (key, value) ∈ table := by
  rw [List.lookup_eq_some_iff]
  constructor
  · rintro ⟨earlier, later, rfl, _⟩
    exact List.mem_append_right _ List.mem_cons_self
  · intro member
    obtain ⟨earlier, later, rfl⟩ := List.append_of_mem member
    refine ⟨earlier, later, rfl, fun entry before => ?_⟩
    rw [bne_iff_ne]
    rw [List.map_append, List.map_cons, List.nodup_append] at distinct
    exact (distinct.2.2 entry.1 (List.mem_map_of_mem before) key List.mem_cons_self).symm

/-- A name is that of a switch exactly if it spells it. -/
theorem ofName?_joined :
    Switch.ofName? (String.ofList ((Text.trim key).map joined)) = some switch ↔
      Spells joined key switch.name.toList := by
  have kept (char : Char) (blank : Text.isBlank char = true) : joined char = char := by
    refine if_neg ?_
    rintro rfl
    exact absurd blank (by decide)
  have solid : Text.isSolid switch.name.toList = true := by
    cases switch <;> decide
  rw [Switch.ofName?_eq_some, ← Text.fold_trim_eq_iff kept solid, ← String.toList_inj,
    String.toList_ofList]

/-- A word is looked up by what it spells. -/
theorem lookup_lowered {α : Type} {table : List (String × α)} {typed : List Char} {value : α}
    (distinct : (table.map Prod.fst).Nodup)
    (solid : (table.all fun entry => Text.isSolid entry.1.toList) = true) :
    table.lookup (String.ofList ((Text.trim typed).map Char.toLower)) = some value ↔
      ∃ word, (word, value) ∈ table ∧ Spells Char.toLower typed word.toList := by
  have spelled {word : String} (listed : (word, value) ∈ table) :
      (Text.trim typed).map Char.toLower = word.toList ↔ Spells Char.toLower typed word.toList :=
    Text.fold_trim_eq_iff Text.toLower_of_blank (List.all_eq_true.mp solid _ listed)
  rw [lookup_eq_some_iff_mem distinct]
  constructor
  · intro found
    refine ⟨_, found, (spelled found).mp ?_⟩
    rw [String.toList_ofList]
  · rintro ⟨word, listed, spells⟩
    rwa [(spelled listed).mpr spells, String.ofList_toList]

/-- A position is looked up by its words. -/
theorem lookup_positions {raw : List Char} :
    positions.lookup (String.ofList ((Text.trim raw).map Char.toLower)) = some on ↔
      IsPosition (some raw) on := by
  have listed (word : String) : (word, on) ∈ positions ↔ word ∈ wordsFor on := by
    cases on <;> simp [positions, wordsFor]
  rw [lookup_lowered (by decide) (by decide)]
  simp only [listed]
  rfl

/-- A preset is looked up by its name. -/
theorem ofPreset?_eq_ok {name : String} :
    ofPreset? name = .ok dialect ↔ IsPreset name dialect := by
  have found : presets.lookup (String.ofList ((Text.trim name.toList).map Char.toLower)) =
      some dialect ↔ IsPreset name dialect :=
    lookup_lowered (by decide) (by decide)
  rw [← found, ofPreset?]
  cases presets.lookup _ <;> simp

/-- Every text has its parts as an override. -/
theorem exists_parts (typed : List Char) : ∃ key position, Parts typed key position := by
  by_cases plain : '=' ∈ typed
  · obtain ⟨key, raw, rfl, first⟩ := List.eq_append_cons_of_mem plain
    exact ⟨key, some raw, .assigned first⟩
  · exact ⟨typed, none, .bare plain⟩

/-- The name is cut off where the parts have it end. -/
theorem Parts.cut {typed : List Char} (parts : Parts typed key position) :
    typed.takeWhile (· != '=') = key ∧
      typed.drop key.length = position.elim [] fun raw => '=' :: raw := by
  cases parts with
  | bare plain =>
    exact ⟨List.takeWhile_eq_self_iff.mpr (Text.bne_of_not_mem plain), List.drop_length⟩
  | assigned plain =>
    refine ⟨?_, List.drop_left⟩
    rw [List.takeWhile_append_of_pos (Text.bne_of_not_mem plain)]
    simp

/-- No text has other parts besides. -/
theorem Parts.unique {typed other : List Char} {beside : Option (List Char)}
    (parts : Parts typed key position) (others : Parts typed other beside) :
    key = other ∧ position = beside := by
  obtain ⟨rfl, behind⟩ := parts.cut
  obtain ⟨rfl, same⟩ := others.cut
  refine ⟨rfl, ?_⟩
  rw [behind] at same
  cases position <;> cases beside <;> simp_all

/-- An override is read as what its parts say. -/
theorem Parts.readOverride_eq_ok (parts : Parts item.toList key position) :
    readOverride item = .ok (switch, on) ↔
      Spells joined key switch.name.toList ∧ IsPosition position on := by
  obtain ⟨name, behind⟩ := parts.cut
  have hyphens : (fun char => if char = '-' then '_' else char) = joined := rfl
  rw [readOverride]
  dsimp only
  rw [name, behind, hyphens, ← ofName?_joined]
  cases Switch.ofName? (String.ofList ((Text.trim key).map joined)) with
  | none => simp
  | some found =>
    cases position with
    | none =>
      change Except.ok (found, true) = Except.ok (switch, on) ↔ _ ∧ on = true
      simp [eq_comm]
    | some raw =>
      rw [← lookup_positions]
      simp only [Option.elim_some]
      cases positions.lookup (String.ofList ((Text.trim raw).map Char.toLower)) <;> simp

/-- What an override names and gives is what is read. -/
theorem readOverride_eq_ok :
    readOverride item = .ok (switch, on) ↔ Names item switch ∧ Gives item on := by
  constructor
  · intro read
    obtain ⟨key, position, parts⟩ := exists_parts item.toList
    obtain ⟨names, gives⟩ := parts.readOverride_eq_ok.mp read
    exact ⟨⟨key, position, parts, names⟩, ⟨key, position, parts, gives⟩⟩
  · rintro ⟨⟨key, position, parts, names⟩, ⟨other, beside, others, gives⟩⟩
    obtain ⟨rfl, rfl⟩ := parts.unique others
    exact parts.readOverride_eq_ok.mpr ⟨names, gives⟩

/-- Each switch has a name of its own, so an override names one at most. -/
theorem Names.unique {other : Switch} (names : Names item switch) (others : Names item other) :
    switch = other := by
  obtain ⟨key, position, parts, spelled⟩ := names
  obtain ⟨also, beside, same, spelledToo⟩ := others
  obtain ⟨rfl, rfl⟩ := parts.unique same
  rw [← ofName?_joined] at spelled spelledToo
  exact Option.some.inj (spelled.symm.trans spelledToo)

/-- An override is refused if it names no switch, or gives no position. -/
theorem readOverride_fails_iff :
    (∃ misuse, readOverride item = .error misuse) ↔
      (∀ switch, ¬Names item switch) ∨ ∀ on, ¬Gives item on := by
  cases read : readOverride item with
  | ok setting =>
    obtain ⟨switch, on⟩ := setting
    obtain ⟨names, gives⟩ := readOverride_eq_ok.mp read
    constructor
    · rintro ⟨_, impossible⟩
      cases impossible
    · rintro (unknown | unreadable)
      · exact absurd names (unknown switch)
      · exact absurd gives (unreadable on)
  | error misuse =>
    refine iff_of_true ⟨misuse, rfl⟩ ?_
    by_contra fine
    simp only [not_or, not_forall, not_not] at fine
    obtain ⟨⟨switch, names⟩, on, gives⟩ := fine
    rw [readOverride_eq_ok.mpr ⟨names, gives⟩] at read
    cases read

/-- The first override is applied before the others. -/
theorem override_cons_eq_ok {rest : List String} :
    dialect.override (item :: rest) = .ok result ↔
      ∃ switch on, readOverride item = .ok (switch, on) ∧
        (dialect.set switch on).override rest = .ok result := by
  rw [override]
  cases readOverride item with
  | error misuse => simp
  | ok setting =>
    obtain ⟨named, position⟩ := setting
    constructor
    · exact fun applied => ⟨named, position, rfl, applied⟩
    · rintro ⟨switch, on, same, applied⟩
      cases same
      exact applied

/-- Overrides are refused exactly if one of them is. -/
theorem override_fails_iff {items : List String} :
    (∃ misuse, dialect.override items = .error misuse) ↔
      ∃ item ∈ items, ∃ misuse, readOverride item = .error misuse := by
  induction items generalizing dialect with
  | nil => simp [override]
  | cons item rest inductionHypothesis =>
    rw [override, List.exists_mem_cons_iff]
    cases readOverride item with
    | error misuse => simp
    | ok setting => simp [inductionHypothesis]

/-- Overrides that are applied settle each switch. -/
theorem settles_of_override {items : List String} (applied : dialect.override items = .ok result)
    (switch : Switch) : Settles items switch (dialect.get switch) (result.get switch) := by
  induction items generalizing dialect with
  | nil =>
    obtain rfl : dialect = result := Except.ok.inj applied
    exact .unnamed (by simp)
  | cons item rest inductionHypothesis =>
    obtain ⟨first, on, read, remaining⟩ := override_cons_eq_ok.mp applied
    obtain ⟨names, gives⟩ := readOverride_eq_ok.mp read
    have settled := inductionHypothesis remaining
    generalize result.get switch = after at settled ⊢
    cases settled with
    | named earlier other later split namesToo givesToo last =>
      exact .named (item :: earlier) other later (congrArg (item :: ·) split) namesToo givesToo last
    | unnamed others =>
      -- No later override names the switch, so the first is the last one that may.
      rw [get_set]
      by_cases same : first = switch
      · rw [if_pos same]
        exact .named [] item rest rfl (same ▸ names) gives others
      · rw [if_neg same]
        exact .unnamed (List.forall_mem_cons.mpr ⟨fun also => same (names.unique also), others⟩)

/-- Two overrides for different switches, one behind the other, can change places. -/
theorem override_swap {other : Switch} {first second : String} (names : Names first switch)
    (namesToo : Names second other) (apart : switch ≠ other) {earlier later : List String}
    (applied : dialect.override (earlier ++ first :: second :: later) = .ok result) :
    dialect.override (earlier ++ second :: first :: later) = .ok result := by
  -- What stands before the two is applied alike, so the induction brings them to the front.
  induction earlier generalizing dialect with
  | nil =>
    obtain ⟨found, on, read, rest⟩ := override_cons_eq_ok.mp applied
    obtain ⟨beside, off, readToo, remaining⟩ := override_cons_eq_ok.mp rest
    have different : found ≠ beside := by
      rwa [(readOverride_eq_ok.mp read).1.unique names,
        (readOverride_eq_ok.mp readToo).1.unique namesToo]
    rw [set_comm dialect different] at remaining
    exact override_cons_eq_ok.mpr
      ⟨beside, off, readToo, override_cons_eq_ok.mpr ⟨found, on, read, remaining⟩⟩
  | cons item earlier inductionHypothesis =>
    obtain ⟨found, on, read, remaining⟩ := override_cons_eq_ok.mp applied
    exact override_cons_eq_ok.mpr ⟨found, on, read, inductionHypothesis remaining⟩

/-- A choice is accepted where the preset is known and its overrides are applied. -/
theorem resolve_eq_ok {preset : String} {overrides : List String} :
    resolve preset overrides = .ok result ↔
      ∃ base, IsPreset preset base ∧ base.override overrides = .ok result := by
  simp only [← ofPreset?_eq_ok]
  rw [resolve]
  cases ofPreset? preset <;> simp

/-- Whatever the name of the preset and the overrides: the choice is refused exactly if there is no
such preset, or one of the overrides names no switch or gives no position. Else each switch is as
the last override says that names it, and as the preset has it if none does. So overrides for
different switches that stand next to each other can change places in a choice that is
accepted. -/
theorem resolve_exact (preset : String) (overrides : List String) :
    ((∃ misuse, resolve preset overrides = .error misuse) ↔
      (∀ base, ¬IsPreset preset base) ∨
        ∃ item ∈ overrides, (∀ switch, ¬Names item switch) ∨ ∀ on, ¬Gives item on) ∧
    (∀ base dialect, IsPreset preset base → resolve preset overrides = .ok dialect →
      ∀ switch, Settles overrides switch (base.get switch) (dialect.get switch)) ∧
    ∀ earlier first second later, overrides = earlier ++ first :: second :: later →
      ∀ switch other, Names first switch → Names second other → switch ≠ other →
        ∀ dialect, resolve preset overrides = .ok dialect →
          resolve preset (earlier ++ second :: first :: later) = .ok dialect := by
  refine ⟨?_, ?_, ?_⟩
  · simp only [← readOverride_fails_iff, ← ofPreset?_eq_ok]
    rw [resolve]
    cases ofPreset? preset with
    | error misuse => exact iff_of_true ⟨misuse, rfl⟩ (.inl nofun)
    | ok base =>
      have known : ¬∀ other, ¬(.ok base : Except Misuse Dialect) = .ok other :=
        not_forall_not.mpr ⟨base, rfl⟩
      rw [or_iff_right known]
      exact override_fails_iff
  · intro base dialect isPreset accepted
    rw [resolve, ofPreset?_eq_ok.mpr isPreset] at accepted
    exact settles_of_override accepted
  · rintro earlier first second later rfl switch other names namesToo apart dialect accepted
    obtain ⟨base, isPreset, applied⟩ := resolve_eq_ok.mp accepted
    exact resolve_eq_ok.mpr ⟨base, isPreset, override_swap names namesToo apart applied⟩

/-- A switch is named twice, in two spellings, and another one in between. -/
theorem resolve_exact_of_spellings :
    let first := "shift-uses-vy"
    let second := " clip_sprites-horizontally =On"
    let third := "shift_uses_vy= OFF "
    let dialect := { chip8 with shiftUsesVy := false, clipSpritesHorizontally := true }
    IsPreset " Chip8" chip8 ∧ resolve " Chip8" [first, second, third] = .ok dialect ∧
      (∀ item ∈ [first, second, third], ∃ switch, Names item switch) ∧
      Settles [first, second, third] .shiftUsesVy true false ∧
      Names first .shiftUsesVy ∧ Names second .clipSpritesHorizontally ∧
      resolve " Chip8" [second, first, third] = .ok dialect := by
  intro first second third dialect
  have preset : IsPreset " Chip8" chip8 := ofPreset?_eq_ok.mp (by decide +kernel)
  have accepted : resolve " Chip8" [first, second, third] = .ok dialect := by decide +kernel
  have names : Names first .shiftUsesVy ∧ Gives first true :=
    readOverride_eq_ok.mp (by decide +kernel)
  have namesToo : Names second .clipSpritesHorizontally ∧ Gives second true :=
    readOverride_eq_ok.mp (by decide +kernel)
  obtain ⟨refusals, settled, swapped⟩ := resolve_exact " Chip8" [first, second, third]
  refine ⟨preset, accepted, ?_, settled chip8 dialect preset accepted .shiftUsesVy, names.1,
    namesToo.1, swapped [] first second [third] rfl _ _ names.1 namesToo.1 (by decide) _ accepted⟩
  intro item member
  by_contra unknown
  obtain ⟨misuse, refused⟩ :=
    refusals.mpr (.inr ⟨item, member, .inl fun switch names => unknown ⟨switch, names⟩⟩)
  rw [accepted] at refused
  cases refused

end Dialect

end Chip8
