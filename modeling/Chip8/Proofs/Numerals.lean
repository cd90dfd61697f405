import Chip8.AddressRange
import Chip8.Proofs.Spelling
import Mathlib.Data.Nat.Digits.Lemmas

/-!
# Typed numbers are read

A number is typed in hexadecimal digits, the most significant first: in capital letters, in
small ones or mixed, with any number of zeros in front. A mark may stand before the digits, and
blanks around it all. No digit is a blank, a sign, a mark or an underscore, so the reader takes
each of them for its value and comes to the number that they make in base sixteen.

Printed numbers are typed in capital letters, with zeros in front up to a width. They are read
back.
-/

namespace Chip8

/-- A hexadecimal digit as it is typed. -/
structure TypedDigit where
  value : Fin 16
  capital : Bool
deriving DecidableEq, Repr

namespace Hex

/-- The character of a digit. -/
def typedDigit (typed : TypedDigit) : Char :=
  if typed.capital then digit typed.value.val else Nat.digitChar typed.value.val

/-- The characters of digits. -/
def typed (digits : List TypedDigit) : List Char := digits.map typedDigit

/-- The number that digits make, continued from the number before them. -/
def valueFrom (number : Nat) (shown : List (Fin 16)) : Nat :=
  shown.foldl (fun number digit => 16 * number + digit.val) number

/-- Digits as they are printed. -/
def printed (shown : List (Fin 16)) : List Char := shown.map (digit ·.val)

/-- What is printed is typed in capital letters. -/
theorem printed_eq_typed (shown : List (Fin 16)) :
    printed shown = typed (shown.map fun value => ⟨value, true⟩) := by
  rw [typed, List.map_map]
  rfl

/-- What holds of the digits in either case holds of all that is typed. -/
theorem forall_typed {holds : Char → Prop}
    (each : ∀ (value : Fin 16) (capital : Bool), holds (typedDigit ⟨value, capital⟩))
    {digits : List TypedDigit} : ∀ char ∈ typed digits, holds char := by
  intro char member
  obtain ⟨⟨value, capital⟩, _, rfl⟩ := List.mem_map.mp member
  exact each value capital

/-- A character that is no digit is not typed. -/
theorem not_mem_typed {char : Char}
    (foreign : ∀ (value : Fin 16) (capital : Bool), typedDigit ⟨value, capital⟩ ≠ char)
    (digits : List TypedDigit) : char ∉ typed digits := by
  have others : ∀ other ∈ typed digits, other ≠ char := forall_typed foreign
  exact fun member => others char member rfl

/-- A character that is no capital digit is not printed. -/
theorem not_mem_printed {char : Char} (foreign : ∀ value : Fin 16, digit value.val ≠ char)
    (shown : List (Fin 16)) : char ∉ printed shown := by
  intro member
  obtain ⟨value, _, same⟩ := List.mem_map.mp member
  exact foreign value same

/-- Digits make the number whose places they are in base sixteen. -/
theorem valueFrom_eq_ofDigits (number : Nat) (shown : List (Fin 16)) :
    valueFrom number shown =
      Nat.ofDigits 16 (shown.reverse.map (·.val)) + 16 ^ shown.length * number := by
  induction shown generalizing number with
  | nil => simp [valueFrom]
  | cons digit rest inductionHypothesis =>
    change valueFrom (16 * number + digit.val) rest = _
    rw [inductionHypothesis, List.reverse_cons, List.map_append, Nat.ofDigits_append,
      List.length_map, List.length_reverse, List.length_cons, List.map_singleton,
      Nat.ofDigits_singleton]
    ring

/-- The digits of a number make the number. -/
theorem digits_eq_printed (number : Nat) :
    ∃ shown, shown ≠ [] ∧ digits number = printed shown ∧ valueFrom 0 shown = number := by
  induction number using Nat.strongRecOn with
  | ind number inductionHypothesis =>
    rcases Nat.lt_or_ge number 16 with small | large
    · exact ⟨[⟨number, small⟩], List.cons_ne_nil _ _, digits_of_lt small, by simp [valueFrom]⟩
    · obtain ⟨shown, _, same, value⟩ := inductionHypothesis (number / 16) (by omega)
      refine ⟨shown ++ [⟨number % 16, Nat.mod_lt _ (by decide)⟩], by simp, ?_, ?_⟩
      · rw [digits_of_le large, same, printed, printed, List.map_append]
        rfl
      · rw [valueFrom, List.foldl_append]
        change 16 * valueFrom 0 shown + number % 16 = number
        rw [value]
        omega

/-- Zeros in front make no difference. -/
theorem padded_eq_printed (width number : Nat) :
    ∃ shown, shown ≠ [] ∧ (padded width number).toList = printed shown ∧
      valueFrom 0 shown = number := by
  obtain ⟨shown, some, same, value⟩ := digits_eq_printed number
  have zeros (count : Nat) : valueFrom 0 (List.replicate count 0 ++ shown) = number := by
    induction count with
    | zero => exact value
    | succ count inductionHypothesis => exact inductionHypothesis
  refine ⟨List.replicate (width - (digits number).length) 0 ++ shown, by simp [some], ?_, zeros _⟩
  rw [padded, String.toList_ofList, List.leftpad, printed, List.map_append, List.map_replicate]
  exact congrArg _ same

end Hex

namespace Text

/-- A character that is not in a text differs from all that are. -/
theorem bne_of_not_mem {mark : Char} {text : List Char} (absent : mark ∉ text) :
    ∀ char ∈ text, (char != mark) = true := by
  intro char member
  rw [bne_iff_ne]
  rintro rfl
  exact absent member

/-- What is dropped at both ends of a text goes, if nothing between is dropped. -/
theorem trimBy_between {drop : Char → Bool} {before text behind : List Char}
    (droppedBefore : ∀ char ∈ before, drop char = true)
    (kept : ∀ char ∈ text, drop char = false)
    (droppedBehind : ∀ char ∈ behind, drop char = true) :
    trimBy drop (before ++ text ++ behind) = text := by
  have whole {other : List Char} (kept : ∀ char ∈ other, drop char = false) :
      other.dropWhile drop = other := by
    cases other with
    | nil => rfl
    | cons char rest => exact List.dropWhile_cons_of_neg (by simp [kept char List.mem_cons_self])
  have gone {dropped : List Char} (all : ∀ char ∈ dropped, drop char = true) :
      dropped.dropWhile drop = [] := by
    rw [← List.append_nil dropped, List.dropWhile_append_of_pos all]
    rfl
  have reversed {dropped : List Char} (all : ∀ char ∈ dropped, drop char = true) :
      ∀ char ∈ dropped.reverse, drop char = true :=
    fun char member => all char (List.mem_reverse.mp member)
  have keptReversed : ∀ char ∈ text.reverse, drop char = false :=
    fun char member => kept char (List.mem_reverse.mp member)
  rw [trimBy, List.append_assoc, List.dropWhile_append_of_pos droppedBefore]
  cases text with
  | nil => simp [gone droppedBehind]
  | cons char rest =>
    rw [List.cons_append, List.dropWhile_cons_of_neg (by simp [kept char List.mem_cons_self]),
      ← List.cons_append, List.reverse_append, List.dropWhile_append_of_pos
      (reversed droppedBehind), whole keptReversed, List.reverse_reverse]

/-- A text of characters that are kept is its own trimming. -/
theorem trimBy_of_kept {drop : Char → Bool} {text : List Char}
    (kept : ∀ char ∈ text, drop char = false) : trimBy drop text = text := by
  have between : trimBy drop ([] ++ text ++ []) = text := by
    apply trimBy_between
    · simp
    · exact kept
    · simp
  rwa [List.nil_append, List.append_nil] at between

namespace Numeral

variable {typed : List TypedDigit}

/-- Each digit counts for its value, in either case. -/
theorem digitValue_typedDigit : ∀ (value : Fin 16) (capital : Bool),
    digitValue? 16 (Hex.typedDigit ⟨value, capital⟩) = some value.val := by
  decide

/-- Typed digits are in their one form already. -/
theorem normalize_typed (typed : List TypedDigit) :
    normalize (Hex.typed typed) = Hex.typed typed := by
  have kept : ∀ char ∈ Hex.typed typed, isOuterBlank char = false :=
    Hex.forall_typed (by decide)
  have european : ∀ (value : Fin 16) (capital : Bool),
      ∀ found ∈ decimalValue? (Hex.typedDigit ⟨value, capital⟩),
        Char.ofNat ('0'.toNat + found) = Hex.typedDigit ⟨value, capital⟩ := by
    decide
  rw [normalize, trimBy_of_kept kept]
  simp only [Hex.typed, List.map_map]
  refine List.map_congr_left fun typedDigit _ => ?_
  dsimp only [Function.comp_apply]
  split
  case h_1 found known => exact european _ _ found known
  case h_2 => rfl

/-- They have no sign. -/
theorem splitSign_typed (typed : List TypedDigit) :
    splitSign (Hex.typed typed) = (false, Hex.typed typed) := by
  have minus : '-' ∉ Hex.typed typed := Hex.not_mem_typed (by decide) typed
  have plus : '+' ∉ Hex.typed typed := Hex.not_mem_typed (by decide) typed
  unfold splitSign
  split
  case h_1 rest same => exact absurd (same ▸ List.mem_cons_self) minus
  case h_2 rest same => exact absurd (same ▸ List.mem_cons_self) plus
  case h_3 => rfl

/-- They have no mark. -/
theorem hexDigits_typed (typed : List TypedDigit) :
    hexDigits? (Hex.typed typed) = digits? 16 (Hex.typed typed) := by
  have lower : 'x' ∉ Hex.typed typed := Hex.not_mem_typed (by decide) typed
  have upper : 'X' ∉ Hex.typed typed := Hex.not_mem_typed (by decide) typed
  unfold hexDigits?
  split <;> simp_all

theorem dropMark_typed (typed : List TypedDigit) :
    AddressRange.dropMark (Hex.typed typed) = Hex.typed typed := by
  have lower : 'x' ∉ Hex.typed typed := Hex.not_mem_typed (by decide) typed
  have upper : 'X' ∉ Hex.typed typed := Hex.not_mem_typed (by decide) typed
  unfold AddressRange.dropMark
  split <;> simp_all

/-- After a digit the others are read one by one. -/
theorem afterDigit_typed (number : Nat) (typed : List TypedDigit) :
    afterDigit 16 number (Hex.typed typed) =
      some (Hex.valueFrom number (typed.map TypedDigit.value)) := by
  induction typed generalizing number with
  | nil => rfl
  | cons digit rest inductionHypothesis =>
    have plain : Hex.typedDigit digit ≠ '_' := by
      have foreign : ∀ (value : Fin 16) (capital : Bool),
          Hex.typedDigit ⟨value, capital⟩ ≠ '_' := by decide
      exact foreign digit.value digit.capital
    rw [Hex.typed, List.map_cons, afterDigit, digitValue_typedDigit]
    · exact inductionHypothesis _
    · exact fun _ _ same => absurd same plain

/-- Typed digits are read as the number that they make. -/
theorem hexInteger_typed (filled : typed ≠ []) :
    hexInteger? (Hex.typed typed) =
      some (Hex.valueFrom 0 (typed.map TypedDigit.value) : Int) := by
  obtain ⟨first, rest, rfl⟩ := List.exists_cons_of_ne_nil filled
  have digits : digits? 16 (Hex.typed (first :: rest)) =
      some (Hex.valueFrom 0 ((first :: rest).map TypedDigit.value)) := by
    rw [Hex.typed, List.map_cons, digits?, digitValue_typedDigit]
    refine (afterDigit_typed first.value.val rest).trans ?_
    simp [Hex.valueFrom]
  rw [hexInteger?, normalize_typed, splitSign_typed]
  dsimp only
  rw [hexDigits_typed, digits]
  rfl

/-- Printed digits are read as the number that they make. -/
theorem hexInteger_printed {shown : List (Fin 16)} (filled : shown ≠ []) :
    hexInteger? (Hex.printed shown) = some (Hex.valueFrom 0 shown : Int) := by
  rw [Hex.printed_eq_typed, hexInteger_typed (by simpa using filled), List.map_map]
  simp [Function.comp_def]

end Numeral

/-- A hexadecimal number as it is typed. -/
structure TypedNumber where
  before : List Char
  mark : List Char
  digits : List TypedDigit
  behind : List Char
  blankBefore : ∀ char ∈ before, isBlank char = true
  isMark : mark ∈ [[], ['0', 'x'], ['0', 'X']]
  filled : digits ≠ []
  blankBehind : ∀ char ∈ behind, isBlank char = true

namespace TypedNumber

variable (number : TypedNumber)

/-- What is typed between the blanks. -/
def shown : List Char := number.mark ++ Hex.typed number.digits

/-- All that is typed. -/
def chars : List Char := number.before ++ number.shown ++ number.behind

def text : String := String.ofList number.chars

/-- The number whose places in base sixteen are the digits, the last one first. -/
def value : Nat := Nat.ofDigits 16 (number.digits.reverse.map (·.value.val))

/-- Reading the digits one by one comes to the number. -/
theorem valueFrom_digits :
    Hex.valueFrom 0 (number.digits.map TypedDigit.value) = number.value := by
  rw [Hex.valueFrom_eq_ofDigits, Nat.mul_zero, Nat.add_zero, value, ← List.map_reverse,
    List.map_map]
  rfl

/-- What holds of marks and digits holds of what is typed between the blanks. -/
theorem forall_shown {holds : Char → Prop} (zero : holds '0') (small : holds 'x')
    (capital : holds 'X')
    (each : ∀ (value : Fin 16) (capital : Bool), holds (Hex.typedDigit ⟨value, capital⟩)) :
    ∀ char ∈ number.shown, holds char := by
  intro char member
  rcases List.mem_append.mp member with mark | digit
  · have isMark := number.isMark
    simp only [List.mem_cons, List.not_mem_nil, or_false] at isMark
    rcases isMark with none | lower | upper
    · rw [none] at mark
      cases mark
    · rw [lower, List.mem_pair] at mark
      rcases mark with rfl | rfl
      · exact zero
      · exact small
    · rw [upper, List.mem_pair] at mark
      rcases mark with rfl | rfl
      · exact zero
      · exact capital
  · exact Hex.forall_typed each char digit

/-- The blanks are trimmed. -/
theorem trim_chars : trim number.chars = number.shown :=
  trimBy_between number.blankBefore
    (number.forall_shown (by decide) (by decide) (by decide) (by decide)) number.blankBehind

/-- The mark is dropped. -/
theorem dropMark_shown : AddressRange.dropMark number.shown = Hex.typed number.digits := by
  have isMark := number.isMark
  simp only [List.mem_cons, List.not_mem_nil, or_false] at isMark
  rcases isMark with none | small | capital
  · rw [shown, none, List.nil_append]
    exact Numeral.dropMark_typed number.digits
  · rw [shown, small]
    rfl
  · rw [shown, capital]
    rfl

end TypedNumber

end Text

namespace AddressRange

variable {limit : Int}

/-- A number that is typed is read as its value, unless it is beyond the limit. -/
theorem readHex_text (limit : Int) (number : Text.TypedNumber) :
    readHex limit number.text =
      if (number.value : Int) ≤ limit then .ok (number.value : Int)
      else .error (.outside (String.ofList number.shown) limit) := by
  rw [readHex, Text.TypedNumber.text, String.toList_ofList, number.trim_chars,
    number.dropMark_shown, Text.Numeral.hexInteger_typed number.filled, number.valueFrom_digits]
  dsimp only
  by_cases within : (number.value : Int) ≤ limit
  · rw [if_pos within, if_neg (by omega)]
  · rw [if_neg within, if_pos (by omega)]

/-- A number that is printed in hexadecimal is read back, whatever its width, if it is within the
limit. -/
theorem readHex_padded {width number : Nat} (within : number ≤ limit) :
    readHex limit (Hex.padded width number) = .ok number := by
  obtain ⟨shown, filled, same, value⟩ := Hex.padded_eq_printed width number
  let typed : Text.TypedNumber :=
    { before := []
      mark := []
      digits := shown.map fun value => ⟨value, true⟩
      behind := []
      blankBefore := by simp
      isMark := by simp
      filled := by simpa using filled
      blankBehind := by simp }
  have text : typed.text = Hex.padded width number := by
    rw [← String.ofList_toList (s := Hex.padded width number), same, Hex.printed_eq_typed]
    simp [typed, Text.TypedNumber.text, Text.TypedNumber.chars, Text.TypedNumber.shown]
  have makes : typed.value = number := by
    rw [← typed.valueFrom_digits, ← value]
    simp [typed, Function.comp_def]
  have read := readHex_text limit typed
  rwa [text, makes, if_pos within] at read

end AddressRange

end Chip8
