import Chip8.AddressRange

/-!
# Merged ranges

Ranges are lists of addresses in disguise, and what counts of a list of ranges is which
addresses it covers. Merging brings the list into a form that tells just that: ascending
ranges, with a gap of at least one address between two of them.

The ranges are joined in the order of their first addresses, each to the ones below it. The
invariant of the loop says of what was merged so far that it is in this form, the highest
range first, and covers what was taken in. Since two lists in this form that cover the same
addresses are equal, merging forgets everything else: the order of the ranges, how often
they were given, and where they were cut.
-/

namespace Chip8.AddressRange

variable {range lower upper : AddressRange} {ranges others taken merged pending : List AddressRange}
  {address : Int}

/-- Some range of the list holds the address. -/
def Covers (ranges : List AddressRange) (address : Int) : Prop :=
  ∃ range ∈ ranges, range.holds address = true

/-- The first address is not behind the last. -/
def Proper (range : AddressRange) : Prop := range.first ≤ range.last

/-- Between the two ranges there is an address that neither of them has. -/
def Apart (lower upper : AddressRange) : Prop := lower.last + 1 < upper.first

/-- Ascending ranges with gaps between them. -/
structure Separated (ranges : List AddressRange) : Prop where
  proper : ∀ range ∈ ranges, range.Proper
  apart : ranges.Pairwise Apart

theorem holds_iff : range.holds address = true ↔ range.first ≤ address ∧ address ≤ range.last := by
  simp only [holds, Bool.and_eq_true, decide_eq_true_eq]

theorem not_covers_nil (address : Int) : ¬Covers [] address := by
  rintro ⟨_, member, _⟩
  cases member

theorem covers_cons :
    Covers (range :: ranges) address ↔
      (range.first ≤ address ∧ address ≤ range.last) ∨ Covers ranges address := by
  simp only [Covers, List.mem_cons, or_and_right, exists_or, exists_eq_left, holds_iff]

theorem covers_append :
    Covers (ranges ++ others) address ↔ Covers ranges address ∨ Covers others address := by
  simp only [Covers, List.mem_append, or_and_right, exists_or]

/-- What a list covers does not depend on its order. -/
theorem covers_perm (order : ranges.Perm others) :
    Covers ranges address ↔ Covers others address := by
  simp only [Covers, order.mem_iff]

/-- What has been merged of the ranges that were taken, the highest first. -/
structure Merged (taken merged : List AddressRange) : Prop where
  proper : ∀ range ∈ merged, range.Proper
  apart : merged.Pairwise fun upper lower => lower.Apart upper
  covers : ∀ address, Covers merged address ↔ Covers taken address

/-- A range that starts no lower than the merged ones is joined to them. -/
theorem Merged.join (soFar : Merged taken merged) (proper : range.Proper)
    (above : ∀ lower ∈ merged, lower.first ≤ range.first) :
    Merged (taken ++ [range]) (join merged range) := by
  obtain ⟨allProper, apart, covers⟩ := soFar
  cases merged with
  | nil =>
    refine ⟨?_, List.pairwise_singleton .., ?_⟩
    · intro only member
      obtain rfl := List.mem_singleton.mp member
      exact proper
    · intro address
      rw [covers_append, ← covers]
      simp only [AddressRange.join, not_covers_nil, false_or]
  | cons highest lower =>
    have top := allProper highest List.mem_cons_self
    have start := above highest List.mem_cons_self
    obtain ⟨gap, further⟩ := List.pairwise_cons.mp apart
    simp only [Proper] at proper top
    rw [AddressRange.join]
    split
    case isTrue touches =>
      refine ⟨?_, List.pairwise_cons.mpr ⟨gap, further⟩, ?_⟩
      · intro other member
        rcases List.mem_cons.mp member with rfl | below
        · exact Int.le_trans top (Int.le_max_left ..)
        · exact allProper other (List.mem_cons_of_mem _ below)
      · intro address
        rw [covers_append, ← covers, covers_cons, covers_cons, covers_cons]
        -- The two ranges touch, so that together they have all addresses in between.
        have union : (highest.first ≤ address ∧ address ≤ max highest.last range.last) ↔
            (highest.first ≤ address ∧ address ≤ highest.last) ∨
              (range.first ≤ address ∧ address ≤ range.last) := by omega
        simp only [union, not_covers_nil, or_false, or_assoc, or_comm (b := Covers lower address)]
    case isFalse beyond =>
      refine ⟨?_, ?_, ?_⟩
      · intro other member
        rcases List.mem_cons.mp member with rfl | before
        · exact proper
        · exact allProper other before
      · refine List.pairwise_cons.mpr ⟨?_, apart⟩
        intro other member
        rcases List.mem_cons.mp member with rfl | below
        · exact Int.not_le.mp beyond
        · have under := gap other below
          simp only [Apart] at under ⊢
          omega
      · intro address
        rw [covers_append, ← covers, covers_cons, @covers_cons range []]
        simp only [not_covers_nil, or_false]
        exact or_comm

/-- What is merged starts no higher than the range that was joined last. -/
theorem first_le_of_join (above : ∀ lower ∈ merged, lower.first ≤ range.first) :
    ∀ lower ∈ join merged range, lower.first ≤ range.first := by
  intro lower member
  cases merged with
  | nil =>
    obtain rfl := List.mem_singleton.mp member
    exact Int.le_refl _
  | cons highest below =>
    rw [AddressRange.join] at member
    split at member
    · rcases List.mem_cons.mp member with rfl | rest
      · exact above highest List.mem_cons_self
      · exact above lower (List.mem_cons_of_mem _ rest)
    · rcases List.mem_cons.mp member with rfl | before
      · exact Int.le_refl _
      · exact above lower before

/-- Ranges that ascend by their first addresses are merged one after the other. -/
theorem Merged.foldl (soFar : Merged taken merged) (proper : ∀ range ∈ pending, range.Proper)
    (ascends : pending.Pairwise fun lower upper => lower.first ≤ upper.first)
    (above : ∀ lower ∈ merged, ∀ upper ∈ pending, lower.first ≤ upper.first) :
    Merged (taken ++ pending) (pending.foldl AddressRange.join merged) := by
  induction pending generalizing taken merged with
  | nil =>
    rw [List.append_nil]
    exact soFar
  | cons next rest inductionHypothesis =>
    obtain ⟨lowest, further⟩ := List.pairwise_cons.mp ascends
    have below : ∀ lower ∈ merged, lower.first ≤ next.first :=
      fun lower member => above lower member next List.mem_cons_self
    have joined := soFar.join (proper next List.mem_cons_self) below
    rw [List.append_cons]
    apply inductionHypothesis joined
    · exact fun range member => proper range (List.mem_cons_of_mem _ member)
    · exact further
    · intro lower member upper later
      exact Int.le_trans (first_le_of_join below lower member) (lowest upper later)

/-- Sorted ranges ascend by their first addresses. -/
theorem sorted_ascends (ranges : List AddressRange) :
    (ranges.mergeSort le).Pairwise fun lower upper => lower.first ≤ upper.first := by
  have order : ∀ lower upper : AddressRange, le lower upper = true ↔
      lower.first < upper.first ∨ (lower.first = upper.first ∧ lower.last ≤ upper.last) := by
    intro lower upper
    simp only [le, Bool.or_eq_true, Bool.and_eq_true, decide_eq_true_eq, beq_iff_eq]
  have sorted : (ranges.mergeSort le).Pairwise fun lower upper => le lower upper = true := by
    apply List.pairwise_mergeSort
    · intro first second third
      simp only [order]
      omega
    · intro first second
      rw [Bool.or_eq_true]
      simp only [order]
      omega
  refine sorted.imp ?_
  intro lower upper ordered
  rw [order] at ordered
  omega

/-- Merging separates ranges, and covers what they cover. -/
theorem separated_merge (filled : ranges ≠ []) (proper : ∀ range ∈ ranges, range.Proper) :
    Separated (merge ranges) ∧
      ∀ address, Covers (merge ranges) address ↔ Covers ranges address := by
  have merged :
      Merged (ranges.mergeSort le) ((ranges.mergeSort le).foldl AddressRange.join []) := by
    have empty : Merged [] [] := ⟨nofun, .nil, fun _ => Iff.rfl⟩
    apply empty.foldl
    · exact fun range member => proper range (List.mem_mergeSort.mp member)
    · exact sorted_ascends ranges
    · exact nofun
  have reversed : merge ranges = ((ranges.mergeSort le).foldl AddressRange.join []).reverse := by
    rw [merge, if_neg (by simpa using filled)]
  rw [reversed]
  refine ⟨⟨?_, ?_⟩, ?_⟩
  · exact fun range member => merged.proper range (List.mem_reverse.mp member)
  · exact List.pairwise_reverse.mpr merged.apart
  · intro address
    rw [covers_perm (List.reverse_perm _), merged.covers, covers_perm (List.mergeSort_perm ..)]

/-- The lowest range of separated ones has the lowest address. -/
theorem Separated.first_le (separated : Separated (range :: ranges))
    (covered : Covers (range :: ranges) address) : range.first ≤ address := by
  obtain ⟨gap, _⟩ := List.pairwise_cons.mp separated.apart
  have proper := separated.proper range List.mem_cons_self
  rcases covers_cons.mp covered with here | ⟨upper, member, inside⟩
  · exact here.1
  · have under := gap upper member
    rw [holds_iff] at inside
    simp only [Proper, Apart] at proper under
    omega

/-- Behind the lowest of separated ranges there is a gap. -/
theorem Separated.gap (separated : Separated (range :: ranges)) :
    ¬Covers (range :: ranges) (range.last + 1) := by
  obtain ⟨gap, _⟩ := List.pairwise_cons.mp separated.apart
  intro covered
  rcases covers_cons.mp covered with here | ⟨upper, member, inside⟩
  · omega
  · have under := gap upper member
    rw [holds_iff] at inside
    simp only [Apart] at under
    omega

theorem Separated.tail (separated : Separated (range :: ranges)) : Separated ranges :=
  ⟨fun other member => separated.proper other (List.mem_cons_of_mem _ member),
    (List.pairwise_cons.mp separated.apart).2⟩

/-- A proper range has an address. -/
theorem Separated.covers_first (separated : Separated (range :: ranges)) :
    Covers (range :: ranges) range.first :=
  covers_cons.mpr (.inl ⟨Int.le_refl _, separated.proper range List.mem_cons_self⟩)

/-- What separated ranges cover beside the lowest lies behind it. -/
theorem Separated.covers_tail (separated : Separated (range :: ranges)) :
    Covers ranges address ↔ Covers (range :: ranges) address ∧ range.last < address := by
  obtain ⟨gap, _⟩ := List.pairwise_cons.mp separated.apart
  rw [covers_cons]
  constructor
  · intro covered
    refine ⟨.inr covered, ?_⟩
    obtain ⟨upper, member, inside⟩ := covered
    have under := gap upper member
    rw [holds_iff] at inside
    simp only [Apart] at under
    omega
  · rintro ⟨here | covered, behind⟩
    · omega
    · exact covered

/-- Of separated ranges that cover all that others cover, the lowest ends no lower than the
lowest of the others, if they begin together. -/
theorem Separated.last_le (separated : Separated (lower :: ranges))
    (begin : lower.first = upper.first) (proper : lower.Proper)
    (same : ∀ address, Covers (upper :: others) address → Covers (lower :: ranges) address) :
    upper.last ≤ lower.last := by
  refine Int.not_lt.mp fun longer => separated.gap (same _ (covers_cons.mpr (.inl ?_)))
  simp only [Proper] at proper
  omega

/-- Separated ranges are told by the addresses that they cover. -/
theorem Separated.unique (separated : Separated ranges) (alike : Separated others)
    (same : ∀ address, Covers ranges address ↔ Covers others address) : ranges = others := by
  induction ranges generalizing others with
  | nil =>
    cases others with
    | nil => rfl
    | cons upper rest => exact absurd ((same _).mpr alike.covers_first) (not_covers_nil _)
  | cons lower rest inductionHypothesis =>
    cases others with
    | nil => exact absurd ((same _).mp separated.covers_first) (not_covers_nil _)
    | cons upper further =>
      have first : lower.first = upper.first :=
        Int.le_antisymm (separated.first_le ((same _).mpr alike.covers_first))
          (alike.first_le ((same _).mp separated.covers_first))
      have last : lower.last = upper.last :=
        Int.le_antisymm
          (alike.last_le first.symm (alike.proper upper List.mem_cons_self) fun _ => (same _).mp)
          (separated.last_le first (separated.proper lower List.mem_cons_self)
            fun _ => (same _).mpr)
      have head : lower = upper := by
        cases lower
        cases upper
        cases first
        cases last
        rfl
      have behind : ∀ address, Covers rest address ↔ Covers further address := by
        intro address
        rw [separated.covers_tail, alike.covers_tail, same, head]
      rw [head, inductionHypothesis separated.tail alike.tail behind]

/-- Merging makes of ranges the only separated ranges that cover the same addresses. The result
depends on these addresses alone, so that ranges may be given in any order, more than once or
in pieces; and merged ranges are merged already. -/
theorem merge_canonical (filled : ranges ≠ []) (proper : ∀ range ∈ ranges, range.Proper) :
    Separated (merge ranges) ∧
      (∀ address, Covers (merge ranges) address ↔ Covers ranges address) ∧
      (∀ others, others ≠ [] → (∀ range ∈ others, range.Proper) →
        (∀ address, Covers others address ↔ Covers ranges address) →
          merge others = merge ranges) ∧
      merge (merge ranges) = merge ranges := by
  obtain ⟨separated, covers⟩ := separated_merge filled proper
  have forgets : ∀ others, others ≠ [] → (∀ range ∈ others, range.Proper) →
      (∀ address, Covers others address ↔ Covers ranges address) →
        merge others = merge ranges := by
    intro others othersFilled othersProper same
    obtain ⟨alike, coversOthers⟩ := separated_merge othersFilled othersProper
    exact alike.unique separated fun address =>
      (coversOthers address).trans ((same address).trans (covers address).symm)
  have kept : merge ranges ≠ [] := by
    intro empty
    obtain ⟨range, member⟩ := List.exists_mem_of_ne_nil ranges filled
    have inside : Covers ranges range.first :=
      ⟨range, member, holds_iff.mpr ⟨Int.le_refl _, proper range member⟩⟩
    rw [← covers, empty] at inside
    exact not_covers_nil _ inside
  exact ⟨separated, covers, forgets, forgets _ kept separated.proper covers⟩

/-- Two ranges in pieces: the lower one was cut, and a piece of it given twice. -/
def pieces : List AddressRange := [⟨0x20, 0x2F⟩, ⟨4, 0x10⟩, ⟨0, 3⟩, ⟨6, 8⟩, ⟨4, 0x10⟩]

/-- Merging makes the two ranges of them again. -/
theorem merge_canonical_of_pieces :
    let whole : List AddressRange := [⟨0, 0x10⟩, ⟨0x20, 0x2F⟩]
    pieces ≠ [] ∧ (∀ range ∈ pieces, range.Proper) ∧
      (∀ address, Covers whole address ↔ Covers pieces address) ∧
      merge pieces = whole ∧ merge whole = whole := by
  intro whole
  have proper : ∀ range ∈ pieces, range.Proper := by unfold Proper; decide
  have same : ∀ address, Covers whole address ↔ Covers pieces address := by
    intro address
    simp only [whole, pieces, covers_cons, not_covers_nil, or_false]
    omega
  have separate : Separated whole := ⟨by unfold Proper; decide, by unfold Apart; decide⟩
  obtain ⟨separated, covers, forgets, _⟩ := merge_canonical (by decide : pieces ≠ []) proper
  have merged : merge pieces = whole :=
    separated.unique separate fun address => (covers address).trans (same address).symm
  have alike : merge whole = merge pieces := forgets whole (by decide) separate.proper same
  exact ⟨by decide, proper, same, merged, alike.trans merged⟩

end Chip8.AddressRange
