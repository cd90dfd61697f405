import Chip8.Proofs.Numerals
import Chip8.Proofs.Ranges

/-!
# Typed addresses

An address is read as the number that was typed, if it is within the limit, and refused
otherwise; of any other text, what is accepted is within the limit as well. So the usual ways to
write a number are all undone: with a mark or without, in either case, and at any width.

A range is cut at its first colon. Numbers as they are typed hold none, so that two of them
around a colon are the ends of the range, if both are addresses and in order.
-/

namespace Chip8

/-- A number as it is usually written: after a mark, with zeros in front up to a width, and in
capital or small letters. -/
def Hex.written (mark : List Char) (capital : Bool) (width number : Nat) : String :=
  let digits := (padded width number).toList
  String.ofList (mark ++ if capital then digits else digits.map Char.toLower)

namespace AddressRange

open Text (TypedNumber)

variable {left right : List Char} {range : AddressRange}

/-- What is written is typed. -/
theorem exists_typed {mark : List Char} (isMark : mark ∈ [[], ['0', 'x'], ['0', 'X']])
    (capital : Bool) (width number : Nat) :
    ∃ typed : TypedNumber, typed.text = Hex.written mark capital width number ∧
      typed.value = number := by
  obtain ⟨shown, filled, same, value⟩ := Hex.padded_eq_printed width number
  let typed : TypedNumber :=
    { before := []
      mark
      digits := shown.map fun value => ⟨value, capital⟩
      behind := []
      blankBefore := by simp
      isMark
      filled := by simpa using filled
      blankBehind := by simp }
  refine ⟨typed, ?_, ?_⟩
  · have small : ∀ value : Fin 16,
        (Hex.digit value.val).toLower = Hex.typedDigit ⟨value, false⟩ := by decide
    have digits : Hex.typed typed.digits =
        if capital then (Hex.padded width number).toList
        else (Hex.padded width number).toList.map Char.toLower := by
      rw [same]
      cases capital with
      | true => exact (Hex.printed_eq_typed shown).symm
      | false =>
        simp only [typed, Hex.typed, Hex.printed, List.map_map]
        exact List.map_congr_left fun value _ => (small value).symm
    rw [TypedNumber.text, TypedNumber.chars, TypedNumber.shown, digits]
    simp only [typed, List.nil_append, List.append_nil]
    rfl
  · rw [← typed.valueFrom_digits, ← value]
    simp [typed, Function.comp_def]

/-- A text is cut at its first colon. -/
theorem cut_append (plain : ':' ∉ left) : cut? (left ++ ':' :: right) = some (left, right) := by
  have kept : ∀ char ∈ left, (char != ':') = true := Text.bne_of_not_mem plain
  rw [cut?, List.dropWhile_append_of_pos kept, List.takeWhile_append_of_pos kept]
  simp

/-- A typed number has no colon. -/
theorem colon_not_mem_chars (number : TypedNumber) : ':' ∉ number.chars := by
  have solid : Text.isBlank ':' = false := by decide
  intro member
  rcases List.mem_append.mp member with within | behind
  · rcases List.mem_append.mp within with before | shown
    · rw [number.blankBefore _ before] at solid
      cases solid
    · have others : ∀ char ∈ number.shown, char ≠ ':' :=
        number.forall_shown (by decide) (by decide) (by decide) (by decide)
      exact others _ shown rfl
  · rw [number.blankBehind _ behind] at solid
    cases solid

/-- A typed number is read as an address exactly if it is one. -/
theorem readAddress_eq_ok (number : TypedNumber) {address : Int} :
    readAddress number.text = .ok address ↔ number.value ≤ 0xFFF ∧ address = number.value := by
  have top : highest = 0xFFF := rfl
  rw [readAddress, readHex_text]
  by_cases within : number.value ≤ 0xFFF
  · rw [if_pos (by omega)]
    simp only [Except.ok.injEq, within, true_and, eq_comm]
  · rw [if_neg (by omega)]
    simp only [within, false_and, reduceCtorEq]

/-- A range is read from two addresses in order. -/
theorem ofText_eq_ok {typed : String} (cut : cut? typed.toList = some (left, right)) :
    ofText typed = .ok range ↔
      readAddress (String.ofList left) = .ok range.first ∧
        readAddress (String.ofList right) = .ok range.last ∧ range.first ≤ range.last := by
  unfold ofText
  rw [cut]
  dsimp only
  cases readAddress (String.ofList left) with
  | error misuse =>
    constructor
    · intro impossible
      cases impossible
    · rintro ⟨impossible, _⟩
      cases impossible
  | ok first =>
    cases readAddress (String.ofList right) with
    | error misuse =>
      constructor
      · intro impossible
        cases impossible
      · rintro ⟨_, impossible, _⟩
        cases impossible
    | ok last =>
      change (if last < first then .error .reversed else .ok ⟨first, last⟩ :
        Except Misuse AddressRange) = _ ↔ _
      constructor
      · intro accepted
        split at accepted
        case isTrue => cases accepted
        case isFalse ordered =>
          cases accepted
          exact ⟨rfl, rfl, Int.not_lt.mp ordered⟩
      · rintro ⟨low, high, ordered⟩
        cases low
        cases high
        exact if_neg (Int.not_lt.mpr ordered)

/-- Two typed numbers around a colon are the ends of a range exactly if both are addresses, and
in order. -/
theorem ofText_typed (first last : TypedNumber) :
    ofText (first.text ++ ":" ++ last.text) = .ok range ↔
      first.value ≤ 0xFFF ∧ last.value ≤ 0xFFF ∧ first.value ≤ last.value ∧
        range = ⟨first.value, last.value⟩ := by
  have cut : cut? (first.text ++ ":" ++ last.text).toList = some (first.chars, last.chars) := by
    have chars : (first.text ++ ":" ++ last.text).toList = first.chars ++ ':' :: last.chars := by
      simp [TypedNumber.text]
    rw [chars]
    exact cut_append (colon_not_mem_chars first)
  rw [ofText_eq_ok cut]
  change readAddress first.text = _ ∧ readAddress last.text = _ ∧ _ ↔ _
  rw [readAddress_eq_ok, readAddress_eq_ok]
  constructor
  · rintro ⟨⟨low, begins⟩, ⟨high, ends⟩, ordered⟩
    refine ⟨low, high, by omega, ?_⟩
    rw [← begins, ← ends]
  · rintro ⟨low, high, ordered, rfl⟩
    exact ⟨⟨low, rfl⟩, ⟨high, rfl⟩, Int.ofNat_le.mpr ordered⟩

/-- Whatever the limit: a number as it is typed is read as its value if that is within the limit,
and refused if not; so a number within the limit is read back from all the usual ways to write it.
Whatever else is accepted lies between zero and the limit. Two numbers around a colon are
accepted as a range exactly if both are addresses of a standard memory and the first is not above
the second, and then they are its ends. -/
theorem typed_exact (limit : Int) (first last : TypedNumber) :
    (readHex limit first.text =
      if (first.value : Int) ≤ limit then .ok (first.value : Int)
      else .error (.outside (String.ofList first.shown) limit)) ∧
    (∀ mark ∈ [[], ['0', 'x'], ['0', 'X']], ∀ (capital : Bool) (width number : Nat),
      (number : Int) ≤ limit →
      readHex limit (Hex.written mark capital width number) = .ok (number : Int)) ∧
    (∀ typed value, readHex limit typed = .ok value → 0 ≤ value ∧ value ≤ limit) ∧
    ∀ range, ofText (first.text ++ ":" ++ last.text) = .ok range ↔
      first.value ≤ 0xFFF ∧ last.value ≤ 0xFFF ∧ first.value ≤ last.value ∧
        range = ⟨first.value, last.value⟩ := by
  refine ⟨readHex_text limit first, ?_, ?_, fun range => ofText_typed first last⟩
  · intro mark isMark capital width number within
    obtain ⟨typed, text, value⟩ := exists_typed isMark capital width number
    have read := readHex_text limit typed
    rwa [text, value, if_pos within] at read
  · intro typed value accepted
    exact readHex_within accepted

/-- `0x0aB`, with a tab before it and a blank behind. -/
def markedNumber : TypedNumber where
  before := ['\t']
  mark := ['0', 'x']
  digits := [⟨0, true⟩, ⟨10, false⟩, ⟨11, true⟩]
  behind := [' ']
  blankBefore := List.all_eq_true.mp (by decide)
  isMark := by decide
  filled := by decide
  blankBehind := List.all_eq_true.mp (by decide)

/-- `fFf`. -/
def plainNumber : TypedNumber where
  before := []
  mark := []
  digits := [⟨15, false⟩, ⟨15, true⟩, ⟨15, false⟩]
  behind := []
  blankBefore := List.all_eq_true.mp (by decide)
  isMark := by decide
  filled := by decide
  blankBehind := List.all_eq_true.mp (by decide)

/-- The numbers of all cases, around a colon. -/
theorem typed_exact_of_mixed :
    markedNumber.text = "\t0x0aB " ∧ plainNumber.text = "fFf" ∧
      readHex 0xFFF "\t0x0aB " = .ok 0xAB ∧
      (['0', 'X'] ∈ [[], ['0', 'x'], ['0', 'X']] ∧ ((0xAB : Nat) : Int) ≤ 0xFFF ∧
        readHex 0xFFF (Hex.written ['0', 'X'] false 4 0xAB) = .ok 0xAB) ∧
      (0 ≤ (0xAB : Int) ∧ (0xAB : Int) ≤ 0xFFF) ∧
      ofText ("\t0x0aB " ++ ":" ++ "fFf") = .ok ⟨0xAB, 0xFFF⟩ := by
  have marked : markedNumber.text = "\t0x0aB " := by decide +kernel
  have plain : plainNumber.text = "fFf" := by decide +kernel
  have low : markedNumber.value = 0xAB := by decide +kernel
  have high : plainNumber.value = 0xFFF := by decide +kernel
  obtain ⟨read, writes, within, ranges⟩ := typed_exact 0xFFF markedNumber plainNumber
  rw [marked, low, if_pos (by decide)] at read
  have range := (ranges ⟨0xAB, 0xFFF⟩).mpr (by rw [low, high]; decide)
  rw [marked, plain] at range
  exact ⟨marked, plain, read,
    ⟨by decide, by decide, writes _ (by decide) false 4 0xAB (by decide)⟩, within _ _ read, range⟩

end AddressRange

end Chip8
