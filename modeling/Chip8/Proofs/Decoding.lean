import Chip8.Instruction

/-!
# Words and their operations

The decoder goes by families and tables; the patterns say the same without it. A
word means an operation exactly if the operation's pattern accepts it, routines of
the host processor apart, which take what no other operation of their family does. The
extended set differs from the plain one in two words only.
-/

namespace Chip8

namespace Operation

variable {word : Word} {extended : Bool} {operation : Operation}

/-- The digits of an accepted word, in numbers. -/
theorem accepts_iff (pattern : Pattern) (word : Word) :
    pattern.accepts word = true ↔
      pattern.first.accepts word.family = true ∧ pattern.second.accepts word.x = true ∧
        pattern.third.accepts word.y = true ∧ pattern.fourth.accepts word.n = true := by
  simp only [Pattern.accepts, Bool.and_eq_true, and_assoc]

/-- The zero family, word by word. -/
theorem accepts_ofZeroFamily (family : word.toNat / 0x1000 = 0) :
    (ofZeroFamily extended word.toNat).pattern.accepts word = true := by
  rw [accepts_iff]
  unfold ofZeroFamily
  split <;>
    simp [pattern, Cell.accepts, Word.family, Word.x, Word.y, Word.n, *]

/-- Register arithmetic, digit by digit. -/
theorem accepts_ofArithmetic (family : word.toNat / 0x1000 = 8)
    (known : ofArithmetic? (word.toNat % 0x10) = some operation) :
    operation.pattern.accepts word = true := by
  rw [accepts_iff]
  unfold ofArithmetic? at known
  split at known <;> cases known <;>
    simp [pattern, Cell.accepts, Word.family, Word.n, *]

/-- Key tests, byte by byte. -/
theorem accepts_ofKeyTest (family : word.toNat / 0x1000 = 14)
    (known : ofKeyTest? (word.toNat % 0x100) = some operation) :
    operation.pattern.accepts word = true := by
  rw [accepts_iff]
  unfold ofKeyTest? at known
  split at known <;> cases known <;>
    simp [pattern, Cell.accepts, Word.family, Word.y, Word.n, Fin.ext_iff, *] <;> omega

/-- Transfers, byte by byte. -/
theorem accepts_ofTransfer (family : word.toNat / 0x1000 = 15)
    (known : ofTransfer? (word.toNat % 0x100) = some operation) :
    operation.pattern.accepts word = true := by
  rw [accepts_iff]
  unfold ofTransfer? at known
  split at known <;> cases known <;>
    simp [pattern, Cell.accepts, Word.family, Word.y, Word.n, Fin.ext_iff, *] <;> omega

/-- The pattern of its operation accepts a word. -/
theorem accepts_of_ofWord (known : ofWord? extended word = some operation) :
    operation.pattern.accepts word = true := by
  have bound : word.toNat < 0x10000 := word.toNat_lt
  simp only [ofWord?] at known
  split at known
  case h_1 family =>
    cases known
    exact accepts_ofZeroFamily family
  case h_9 family => exact accepts_ofArithmetic family known
  case h_15 family => exact accepts_ofKeyTest family known
  case h_16 =>
    simp only [imp_false] at *
    exact accepts_ofTransfer (by omega) known
  case h_6 | h_10 =>
    split at known <;> cases known
    simp [accepts_iff, pattern, Cell.accepts, Word.family, Word.n, *]
  all_goals
    cases known
    simp [accepts_iff, pattern, Cell.accepts, Word.family, *]

/-- Within the zero family two words mean more in the extended set. -/
theorem ofZeroFamily_eq_of_ne {number : Nat} (notLow : number ≠ 0x00FE) (notHigh : number ≠ 0x00FF)
    (extended other : Bool) : ofZeroFamily extended number = ofZeroFamily other number := by
  unfold ofZeroFamily
  split <;> simp_all

/-- All words but two mean the same in both sets. -/
theorem ofWord_eq_of_ne (notLow : word.toNat ≠ 0x00FE) (notHigh : word.toNat ≠ 0x00FF)
    (extended other : Bool) : ofWord? extended word = ofWord? other word := by
  simp only [ofWord?, ofZeroFamily_eq_of_ne notLow notHigh extended other]

/-- Only the extended set has the operations for the larger screen. -/
theorem extended_of_ofWord (known : ofWord? extended word = some operation)
    (isExtended : operation.isExtended = true) : extended = true := by
  have digits := (accepts_iff _ _).mp (accepts_of_ofWord known)
  cases operation
  case lowResolution | highResolution =>
    simp only [pattern, Cell.accepts, beq_iff_eq, Fin.ext_iff, Word.family, Word.x, Word.y,
      Word.n] at digits
    have bound : word.toNat < 0x10000 := word.toNat_lt
    have number : word.toNat = 0x00FE ∨ word.toNat = 0x00FF := by omega
    cases extended with
    | true => rfl
    | false => rcases number with number | number <;> simp [ofWord?, ofZeroFamily, number] at known
  all_goals cases isExtended

/-- A digit of a pattern as a number. -/
theorem digit_val (value : Nat) :
    ((no_index (OfNat.ofNat value) : Fin 16) : Nat) = OfNat.ofNat value % 16 := rfl

/-- The parts of a word that decoding looks at, in digits. -/
theorem parts_eq_digits (word : Word) :
    word.toNat / 0x1000 = word.family.val ∧
      word.toNat % 0x100 = 0x10 * word.y.val + word.n.val ∧ word.toNat % 0x10 = word.n.val ∧
      word.toNat =
        0x1000 * word.family.val + 0x100 * word.x.val + 0x10 * word.y.val + word.n.val := by
  have bound : word.toNat < 0x10000 := word.toNat_lt
  refine ⟨?_, ?_, rfl, ?_⟩
  all_goals
    simp only [Word.family, Word.x, Word.y, Word.n]
    omega

/-- A word that the pattern of an operation accepts means that operation, if the set has it.
Only routines of the host processor give way to others. -/
theorem ofWord_of_accepts (accepted : operation.pattern.accepts word = true)
    (fixed : operation ≠ .sys) (has : operation.isExtended = true → extended = true) :
    ofWord? extended word = some operation := by
  obtain ⟨family, byte, last, number⟩ := parts_eq_digits word
  have digits := (accepts_iff _ _).mp accepted
  cases operation
  case sys => exact absurd rfl fixed
  all_goals
    simp only [pattern, Cell.accepts, beq_iff_eq, Fin.ext_iff, digit_val, Nat.reduceMod] at digits
    obtain ⟨first, second, third, fourth⟩ := digits
  case clear | ret =>
    rw [← first, ← second, ← third, ← fourth] at number
    simp only [ofWord?, ofZeroFamily, number]
  case lowResolution | highResolution =>
    rw [← first, ← second, ← third, ← fourth] at number
    simp only [ofWord?, ofZeroFamily, number, has rfl]
  case jump | call | skipIfByte | skipUnlessByte | loadByte | addByte | loadIndex | jumpOffset |
      random | draw =>
    simp only [ofWord?, family, ← first]
  case skipIfEqual | skipUnlessEqual | copy | or | and | xor | add | subtract | shiftRight |
      subtractFrom | shiftLeft =>
    simp only [ofWord?, family, ← first, last, ← fourth]
    rfl
  all_goals
    simp only [ofWord?, family, ← first, byte, ← third, ← fourth]
    rfl

/-- A word means nothing exactly if no operation of the set has a pattern that accepts it. -/
theorem ofWord_eq_none_iff :
    ofWord? extended word = none ↔
      ∀ operation : Operation, (operation.isExtended = true → extended = true) →
        ¬operation.pattern.accepts word = true := by
  constructor
  · intro meaningless operation has accepted
    by_cases routine : operation = .sys
    · subst routine
      obtain ⟨family, _⟩ := parts_eq_digits word
      have first := ((accepts_iff _ _).mp accepted).1
      simp only [pattern, Cell.accepts, beq_iff_eq, Fin.ext_iff, digit_val, Nat.reduceMod] at first
      simp only [ofWord?, family, ← first] at meaningless
      cases meaningless
    · rw [ofWord_of_accepts accepted routine has] at meaningless
      cases meaningless
  · intro formless
    cases known : ofWord? extended word with
    | none => rfl
    | some operation =>
      exact absurd (accepts_of_ofWord known) (formless operation (extended_of_ofWord known))

end Operation

/-- A word that is decoded has an operation. -/
theorem Instruction.decode_eq_ok {extended : Bool} {address : Int} {word : Word}
    {instruction : Instruction} :
    decode extended address word = .ok instruction ↔
      ∃ operation, Operation.ofWord? extended word = some operation ∧
        instruction = ⟨operation, word⟩ := by
  unfold decode
  cases Operation.ofWord? extended word with
  | none => simp
  | some operation => simp [eq_comm]

end Chip8
