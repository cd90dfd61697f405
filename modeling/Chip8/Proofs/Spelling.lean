import Chip8.Instruction.Memo
import Chip8.Proofs.Decoding
import Mathlib.Data.List.Forall2

/-!
# The spelled grammar

The instruction set can be told by its patterns as they are printed. A pattern spells a word
if the two agree mark by mark, the word being written in four hexadecimal digits; X, Y and N
stand for any digit. A word means the operation whose pattern spells it. Where a pattern
without X, Y and N spells a word, so does that of the routines of the host processor, which
then gives way; apart from this, no two patterns spell the same word.

This says what is decoded without the decoder's families and tables, and without its memo: a
memo that has been filled by any calls answers every further call as if it were the first.
Filling a pattern with the operands of its word gives back what was written.
-/

namespace Chip8

namespace Hex

/-- A hexadecimal digit as it is printed. -/
def digit (value : Nat) : Char := (Nat.digitChar value).toUpper

theorem digits_of_lt {value : Nat} (small : value < 16) : digits value = [digit value] := by
  rw [digits, Nat.toDigits_of_lt_base small]
  rfl

theorem digits_of_le {value : Nat} (large : 16 ≤ value) :
    digits value = digits (value / 16) ++ [digit (value % 16)] := by
  rw [digits, Nat.toDigits_of_base_le (by decide) large, List.map_append]
  rfl

/-- With at least two places, the last digit stands behind those of the sixteenth part. -/
theorem padded_succ (width value : Nat) :
    (padded (width + 2) value).toList =
      (padded (width + 1) (value / 16)).toList ++ [digit (value % 16)] := by
  simp only [padded, String.toList_ofList, List.leftpad]
  rcases Nat.lt_or_ge value 16 with small | large
  · have none : value / 16 = 0 := Nat.div_eq_of_lt small
    have zero : digits 0 = ['0'] := rfl
    rw [digits_of_lt small, none, zero, Nat.mod_eq_of_lt small]
    simp [List.replicate_succ']
  · rw [digits_of_le large, List.length_append, ← List.append_assoc]
    simp

/-- A single digit has one place. -/
theorem padded_one {value : Nat} (small : value < 16) :
    (padded 1 value).toList = [digit value] := by
  simp [padded, List.leftpad, digits_of_lt small]

end Hex

namespace Word

/-- A word as it is written, in four hexadecimal digits. -/
def written (word : Word) : String := Hex.padded 4 word.toNat

variable (word : Word)

/-- A word holds the low sixteen bits of an integer. -/
theorem toNat_ofInt (number : Int) : ((ofInt number).toNat : Int) = number % 0x10000 := by
  have below : (number % 0x10000).toNat < 2 ^ 16 := by omega
  have value : (ofInt number).toNat = (number % 0x10000).toNat := UInt16.toNat_ofNat_of_lt' below
  omega

/-- The digits that are written are those that the word's parts are read from. -/
theorem written_toList :
    word.written.toList =
      [Hex.digit word.family.val, Hex.digit word.x.val, Hex.digit word.y.val,
        Hex.digit word.n.val] := by
  have bound : word.toNat < 0x10000 := word.toNat_lt
  have first : word.toNat / 16 / 16 / 16 = word.family.val := by
    simp only [family]
    omega
  have second : word.toNat / 16 / 16 % 16 = word.x.val := by
    simp only [x]
    omega
  rw [written, Hex.padded_succ, Hex.padded_succ, Hex.padded_succ,
    Hex.padded_one (by omega), first, second]
  rfl

/-- A byte operand takes the last two places. -/
theorem padded_nn :
    (Hex.padded 2 word.nn.toNat).toList = [Hex.digit word.y.val, Hex.digit word.n.val] := by
  have value : word.nn.toNat = word.toNat % 0x100 :=
    UInt8.toNat_ofNat_of_lt (Nat.mod_lt _ (by decide))
  have high : word.toNat % 0x100 / 16 = word.y.val := by
    simp only [y]
    omega
  have low : word.toNat % 0x100 % 16 = word.n.val := by
    simp only [n]
    omega
  rw [value, Hex.padded_succ, Hex.padded_one (by omega), high, low]
  rfl

/-- An address operand takes the last three. -/
theorem padded_nnn :
    (Hex.padded 3 word.nnn.toNat).toList =
      [Hex.digit word.x.val, Hex.digit word.y.val, Hex.digit word.n.val] := by
  have value : word.nnn.toNat = word.toNat % 0x1000 :=
    UInt16.toNat_ofNat_of_lt (Nat.lt_of_lt_of_le (Nat.mod_lt _ (by decide)) (by decide))
  have high : word.toNat % 0x1000 / 16 / 16 = word.x.val := by
    simp only [x]
    omega
  have middle : word.toNat % 0x1000 / 16 % 16 = word.y.val := by
    simp only [y]
    omega
  have low : word.toNat % 0x1000 % 16 = word.n.val := by
    simp only [n]
    omega
  rw [value, Hex.padded_succ, Hex.padded_succ, Hex.padded_one (by omega), high, middle, low]
  rfl

end Word

/-- The marks that stand for any digit. -/
def wildMarks : List Char := ['X', 'Y', 'N']

/-- Every other mark stands for itself. -/
def StandsFor (mark digit : Char) : Prop := mark ∈ wildMarks ∨ mark = digit

instance (mark digit : Char) : Decidable (StandsFor mark digit) :=
  inferInstanceAs (Decidable (_ ∨ _))

namespace Pattern

/-- A pattern spells a word if its marks stand for the digits of the word, in order. -/
def Spells (pattern : Pattern) (word : Word) : Prop :=
  List.Forall₂ StandsFor pattern.text.toList word.written.toList

/-- A pattern of four digits stands for one word only. -/
def IsFixed (pattern : Pattern) : Prop := ∀ mark ∈ pattern.text.toList, mark ∉ wildMarks

instance (pattern : Pattern) : Decidable pattern.IsFixed :=
  List.decidableBAll (fun mark => mark ∉ wildMarks) pattern.text.toList

end Pattern

/-- A cell is printed as one mark, and accepts the digits that the mark stands for. -/
theorem Cell.accepts_iff_standsFor (cell : Cell) (found : Fin 16) :
    ∃ mark, cell.text = [mark] ∧
      (StandsFor mark (Hex.digit found.val) ↔ cell.accepts found = true) := by
  cases cell with
  | digit value =>
    refine ⟨Hex.digit value.val, Hex.digits_of_lt value.isLt, ?_⟩
    revert value found
    decide +kernel
  | x => exact ⟨'X', rfl, by simp [StandsFor, wildMarks, accepts]⟩
  | y => exact ⟨'Y', rfl, by simp [StandsFor, wildMarks, accepts]⟩
  | n => exact ⟨'N', rfl, by simp [StandsFor, wildMarks, accepts]⟩

/-- A pattern spells the words that it accepts. -/
theorem Pattern.spells_iff_accepts (pattern : Pattern) (word : Word) :
    pattern.Spells word ↔ pattern.accepts word = true := by
  obtain ⟨first, firstText, firstStands⟩ := pattern.first.accepts_iff_standsFor word.family
  obtain ⟨second, secondText, secondStands⟩ := pattern.second.accepts_iff_standsFor word.x
  obtain ⟨third, thirdText, thirdStands⟩ := pattern.third.accepts_iff_standsFor word.y
  obtain ⟨fourth, fourthText, fourthStands⟩ := pattern.fourth.accepts_iff_standsFor word.n
  rw [Operation.accepts_iff, ← firstStands, ← secondStands, ← thirdStands, ← fourthStands, Spells,
    Word.written_toList, text, String.toList_ofList, firstText, secondText, thirdText, fourthText]
  simp only [List.cons_append, List.nil_append, List.forall₂_cons, List.Forall₂.nil, and_true]

/-- The operation belongs to the plain set, or to the extended one. -/
def Operation.InSet (operation : Operation) (extended : Bool) : Prop :=
  operation.isExtended = true → extended = true

/-- What the grammar of a set takes a word for: the operation whose pattern spells it, if it is
not the routine of the host processor in the place of an operation with a pattern of its own. -/
structure Operation.IsMeant (operation : Operation) (extended : Bool) (word : Word) : Prop where
  inSet : operation.InSet extended
  spelled : operation.pattern.Spells word
  precedence : operation = .sys →
    ∀ fixed : Operation, fixed.InSet extended → fixed.pattern.IsFixed → ¬fixed.pattern.Spells word

/-- The digits of the operand that a number of Ns stands for. -/
def Word.operand (word : Word) : Nat → List Char
  | 1 => (Hex.padded 1 word.n.val).toList
  | 2 => (Hex.padded 2 word.nn.toNat).toList
  | 3 => (Hex.padded 3 word.nnn.toNat).toList
  | _ => []

/-- Put registers in place of X and Y, and further digits one by one in place of the Ns. -/
def fillMarks (x y : List Char) : List Char → List Char → List Char
  | [], _ => []
  | 'X' :: marks, digits => x ++ fillMarks x y marks digits
  | 'Y' :: marks, digits => y ++ fillMarks x y marks digits
  | 'N' :: marks, digit :: digits => digit :: fillMarks x y marks digits
  | mark :: marks, digits => mark :: fillMarks x y marks digits

/-- The pattern of an instruction, filled with its operands. -/
def Instruction.filled (instruction : Instruction) : String :=
  let marks := instruction.operation.pattern.text.toList
  String.ofList (fillMarks (Hex.padded 1 instruction.word.x.val).toList
    (Hex.padded 1 instruction.word.y.val).toList marks
    (instruction.word.operand (marks.count 'N')))

variable {extended : Bool} {word : Word} {operation : Operation}

/-- What fills a pattern are the digits of the word. -/
theorem Instruction.filled_eq_written (spelled : operation.pattern.Spells word) :
    Instruction.filled ⟨operation, word⟩ = word.written := by
  rw [Pattern.spells_iff_accepts, Operation.accepts_iff] at spelled
  apply String.toList_inj.mp
  rw [Word.written_toList, Instruction.filled, String.toList_ofList, Hex.padded_one word.x.isLt,
    Hex.padded_one word.y.isLt]
  cases operation
  all_goals
    simp only [Operation.pattern, Cell.accepts, beq_iff_eq, and_true, true_and] at spelled
    simp only [Operation.pattern, Pattern.text, Cell.text, String.toList_ofList, Word.operand,
      Hex.padded_one word.n.isLt, Word.padded_nn, Word.padded_nnn, ← spelled]
    rfl

/-- Where a pattern spells a word that the routines of the host processor could take, it stands
for this word only. -/
theorem Operation.isFixed_of_sys (spelled : operation.pattern.Spells word)
    (routine : Operation.sys.pattern.Spells word) :
    operation = .sys ∨ operation.pattern.IsFixed := by
  rw [Pattern.spells_iff_accepts, accepts_iff] at spelled routine
  have zero : word.family = 0 := (beq_iff_eq.mp routine.1).symm
  have first := spelled.1
  rw [zero] at first
  cases operation
  case sys => exact .inl rfl
  case clear | ret | lowResolution | highResolution =>
    right
    decide +kernel
  all_goals cases first

/-- The routines of the host processor stand for many words. -/
theorem Operation.not_isFixed_sys : ¬Operation.sys.pattern.IsFixed := by
  intro fixed
  have mark := fixed 'N'
  simp [pattern, Pattern.text, Cell.text, wildMarks] at mark

/-- Apart from the precedence of fixed patterns, only one pattern spells a word. -/
theorem Operation.eq_of_spells {first second : Operation} (spelled : first.pattern.Spells word)
    (alsoSpelled : second.pattern.Spells word) :
    first = second ∨ (first = .sys ∧ second.pattern.IsFixed) ∨
      (second = .sys ∧ first.pattern.IsFixed) := by
  by_cases routine : first = .sys
  · subst routine
    rcases isFixed_of_sys alsoSpelled spelled with rfl | fixed
    · exact .inl rfl
    · exact .inr (.inl ⟨rfl, fixed⟩)
  by_cases other : second = .sys
  · subst other
    exact (isFixed_of_sys spelled alsoSpelled).elim .inl fun fixed => .inr (.inr ⟨rfl, fixed⟩)
  · have known := ofWord_of_accepts ((Pattern.spells_iff_accepts ..).mp spelled) routine
      fun _ => rfl
    have alsoKnown := ofWord_of_accepts ((Pattern.spells_iff_accepts ..).mp alsoSpelled) other
      fun _ => rfl
    exact .inl (Option.some.inj (known.symm.trans alsoKnown))

/-- The decoder finds what the grammar takes a word for. -/
theorem Operation.isMeant_iff :
    operation.IsMeant extended word ↔ ofWord? extended word = some operation := by
  constructor
  · rintro ⟨inSet, spelled, precedence⟩
    have accepted := (Pattern.spells_iff_accepts ..).mp spelled
    by_cases routine : operation = .sys
    · subst routine
      cases known : ofWord? extended word with
      | none => exact absurd accepted (ofWord_eq_none_iff.mp known .sys inSet)
      | some found =>
        have spelledFound := (Pattern.spells_iff_accepts ..).mpr (accepts_of_ofWord known)
        rcases isFixed_of_sys spelledFound spelled with rfl | fixed
        · rfl
        · exact absurd spelledFound (precedence rfl found (extended_of_ofWord known) fixed)
    · exact ofWord_of_accepts accepted routine inSet
  · intro known
    refine ⟨extended_of_ofWord known, (Pattern.spells_iff_accepts ..).mpr (accepts_of_ofWord known),
      ?_⟩
    rintro rfl other inSet fixed spelled
    have routine : other ≠ .sys := by
      rintro rfl
      exact not_isFixed_sys fixed
    have alsoKnown :=
      ofWord_of_accepts ((Pattern.spells_iff_accepts ..).mp spelled) routine inSet
    exact routine (Option.some.inj (alsoKnown.symm.trans known))

namespace Memo

variable {memo : Memo} {call : Call}

/-- Every entry is what its word means in its set. -/
def Sound (memo : Memo) : Prop :=
  ∀ word extended instruction, memo.find? word extended = some instruction →
    ∃ operation, Operation.ofWord? extended word = some operation ∧ instruction = ⟨operation, word⟩

theorem sound_empty : empty.Sound := nofun

/-- What is decoded may be remembered. -/
theorem Sound.enter (sound : memo.Sound) {instruction : Instruction} {address : Int}
    (decoded : Instruction.decode extended address word = .ok instruction) :
    (memo.enter word extended instruction).Sound := by
  intro other set remembered found
  simp only [find?, Memo.enter, List.lookup_cons] at found
  split at found
  case h_1 same =>
    obtain ⟨rfl, rfl⟩ := Prod.mk.inj (eq_of_beq same)
    cases found
    exact Instruction.decode_eq_ok.mp decoded
  case h_2 => exact sound other set remembered found

/-- A sound memo answers a call as the decoder does, and stays sound. -/
theorem Sound.decode (sound : memo.Sound) (call : Call) :
    (memo.decode call).1 = Instruction.decode call.extended call.address call.word ∧
      (memo.decode call).2.Sound := by
  unfold Memo.decode
  cases found : memo.find? call.word call.extended with
  | some instruction =>
    have meant := sound _ _ _ found
    exact ⟨(Instruction.decode_eq_ok.mpr meant).symm, sound⟩
  | none =>
    cases decoded : Instruction.decode call.extended call.address call.word with
    | error fault => exact ⟨rfl, sound⟩
    | ok instruction => exact ⟨rfl, sound.enter decoded⟩

/-- However a sound memo is used, every call is answered as the decoder does. -/
theorem Sound.decodeAll (sound : memo.Sound) (calls : List Call) :
    memo.decodeAll calls =
      calls.map fun call => Instruction.decode call.extended call.address call.word := by
  induction calls generalizing memo with
  | nil => rfl
  | cons call rest inductionHypothesis =>
    obtain ⟨answer, further⟩ := sound.decode call
    rw [Memo.decodeAll, List.map_cons, answer, inductionHypothesis further]

/-- What the grammar says of a call and its answer. -/
structure Call.AnsweredBy (call : Call) (answer : Except Fault Instruction) : Prop where
  word : (call.word.toNat : Int) = call.number % 0x10000
  meant : ∀ instruction, answer = .ok instruction ↔
    instruction.word = call.word ∧ instruction.operation.IsMeant call.extended call.word
  refused : ∀ fault, answer = .error fault ↔
    (∀ operation : Operation, operation.InSet call.extended →
      ¬operation.pattern.Spells call.word) ∧ fault = .unknownOpcode call.word call.address
  /-- Only the routines of the host processor share words with other operations. -/
  alone : ∀ first second : Operation, first.pattern.Spells call.word →
    second.pattern.Spells call.word →
      first = second ∨ (first = .sys ∧ second.pattern.IsFixed) ∨
        (second = .sys ∧ first.pattern.IsFixed)
  filled : ∀ instruction, answer = .ok instruction → instruction.filled = call.word.written

/-- The decoder answers as the grammar says. -/
theorem Call.answeredBy_decode (call : Call) :
    call.AnsweredBy (Instruction.decode call.extended call.address call.word) where
  word := Word.toNat_ofInt call.number
  meant := by
    intro instruction
    rw [Instruction.decode_eq_ok]
    constructor
    · rintro ⟨operation, known, rfl⟩
      exact ⟨rfl, Operation.isMeant_iff.mpr known⟩
    · obtain ⟨operation, word⟩ := instruction
      rintro ⟨rfl, meant⟩
      exact ⟨operation, Operation.isMeant_iff.mp meant, rfl⟩
  refused := by
    intro fault
    have formless := @Operation.ofWord_eq_none_iff call.word call.extended
    simp only [← Pattern.spells_iff_accepts] at formless
    unfold Instruction.decode
    cases known : Operation.ofWord? call.extended call.word with
    | none =>
      simp only [Except.error.injEq]
      exact ⟨fun same => ⟨formless.mp known, same.symm⟩, fun both => both.2.symm⟩
    | some operation =>
      simp only [reduceCtorEq, false_iff]
      rintro ⟨none, _⟩
      cases known.symm.trans (formless.mpr none)
  alone _ _ spelled alsoSpelled := Operation.eq_of_spells spelled alsoSpelled
  filled := by
    intro instruction decoded
    obtain ⟨operation, known, rfl⟩ := Instruction.decode_eq_ok.mp decoded
    exact Instruction.filled_eq_written (Operation.isMeant_iff.mpr known).spelled

/-- Whatever calls are made of a memo that is empty at first, from whatever machines, each of
them is answered as the grammar says. -/
theorem decodeAll_answers (calls : List Call) :
    List.Forall₂ Call.AnsweredBy calls (empty.decodeAll calls) := by
  rw [sound_empty.decodeAll, List.forall₂_map_right_iff, List.forall₂_same]
  exact fun call _ => call.answeredBy_decode

/-- A word that two sets share, one that only the larger set has, and one without a meaning, which
is reported where it is met. -/
example : empty.decodeAll [⟨0x100FF, true, 0x200⟩, ⟨0xFF, false, 0x200⟩, ⟨-1, true, 0x202⟩,
      ⟨-1, true, 0x204⟩] =
    [.ok ⟨.highResolution, 0xFF⟩, .ok ⟨.sys, 0xFF⟩, .error (.unknownOpcode 0xFFFF 0x202),
      .error (.unknownOpcode 0xFFFF 0x204)] := rfl

end Memo

end Chip8
