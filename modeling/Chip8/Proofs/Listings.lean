import Chip8.Proofs.Spelling

/-!
# Listings can be read back

A line of a listing is made of fixed characters and of hexadecimal digits of its word. Which
places hold what depends on the operation alone, so that every operation has a form, and so
have the words that mean nothing.

Two forms cannot show the same line if they differ in length, or if somewhere one has a fixed
character that the other cannot have there. All pairs of forms differ in this way, although
many begin alike. Within one form the line shows every digit of the word that the pattern of
the operation leaves open. So a line tells its word, and a listing its program.
-/

namespace Chip8

/-- What stands at a place of a line: a character, or one of the four digits of the word. -/
inductive Spot where
  | fixed (char : Char)
  | digit (place : Fin 4)
deriving DecidableEq, Repr

/-- The digits of a word by their places. -/
def Word.digitAt (word : Word) : Fin 4 → Fin 16
  | 0 => word.family
  | 1 => word.x
  | 2 => word.y
  | 3 => word.n

/-- The cells of a pattern by their places. -/
def Pattern.cellAt (pattern : Pattern) : Fin 4 → Cell
  | 0 => pattern.first
  | 1 => pattern.second
  | 2 => pattern.third
  | 3 => pattern.fourth

/-- What a word shows at a place of its line. -/
def Spot.shown (word : Word) : Spot → Char
  | fixed char => char
  | digit place => Hex.digit (word.digitAt place).val

/-- The places of a piece. -/
def Piece.spots : Piece → List Spot
  | text shown => shown.toList.map .fixed
  | registerX => [.fixed 'V', .digit 1]
  | registerY => [.fixed 'V', .digit 2]
  | digit => [.digit 3]
  | byte => [.digit 2, .digit 3]
  | address => [.digit 1, .digit 2, .digit 3]

/-- The form of a line: the places of an operation's mnemonic, or of data. -/
def form : Option Operation → List Spot
  | some operation => operation.layout.flatMap Piece.spots
  | none => "DW ".toList.map .fixed ++ [.digit 0, .digit 1, .digit 2, .digit 3]

namespace Spot

/-- No two words show the same at these places. -/
def apart : Spot → Spot → Bool
  | fixed char, fixed other => char != other
  | fixed char, digit _ => (List.range 16).all (Hex.digit · != char)
  | digit _, fixed char => (List.range 16).all (Hex.digit · != char)
  | digit _, digit _ => false

/-- Forms that differ in length, or are apart at some place. -/
def clash : List Spot → List Spot → Bool
  | [], [] => false
  | spot :: rest, other :: others => spot.apart other || clash rest others
  | _, _ => true

variable {word other : Word}

/-- A character that is no digit is not shown as one. -/
theorem digit_ne_of_all {char : Char} (foreign : (List.range 16).all (Hex.digit · != char) = true)
    (value : Fin 16) : Hex.digit value.val ≠ char :=
  bne_iff_ne.mp (List.all_eq_true.mp foreign value.val (List.mem_range.mpr value.isLt))

theorem shown_ne_of_apart {spot beside : Spot} (apart : spot.apart beside = true) :
    spot.shown word ≠ beside.shown other := by
  cases spot with
  | fixed char =>
    cases beside with
    | fixed foreign => exact bne_iff_ne.mp apart
    | digit place => exact (digit_ne_of_all apart _).symm
  | digit place =>
    cases beside with
    | fixed char => exact digit_ne_of_all apart _
    | digit elsewhere => cases apart

/-- Lines of forms that clash differ. -/
theorem shown_ne_of_clash {spots beside : List Spot} (clashes : clash spots beside = true) :
    spots.map (shown word) ≠ beside.map (shown other) := by
  induction spots generalizing beside with
  | nil =>
    cases beside with
    | nil => cases clashes
    | cons spot rest => exact List.cons_ne_nil _ _ ∘ Eq.symm
  | cons spot rest inductionHypothesis =>
    cases beside with
    | nil => exact List.cons_ne_nil _ _
    | cons second others =>
      intro same
      obtain ⟨here, behind⟩ := List.cons.inj same
      rcases Bool.or_eq_true_iff.mp clashes with apart | later
      · exact shown_ne_of_apart apart here
      · exact inductionHypothesis later behind

end Spot

namespace Operation

/-- The operations in the order of their definition. -/
def all : List Operation := [
  clear, ret, lowResolution, highResolution, sys, jump, call, skipIfByte, skipUnlessByte,
  skipIfEqual, loadByte, addByte, copy, or, and, xor, add, subtract, shiftRight, subtractFrom,
  shiftLeft, skipUnlessEqual, loadIndex, jumpOffset, random, draw, skipIfKey, skipUnlessKey,
  readDelay, awaitKey, setDelay, setSound, addIndex, loadGlyph, storeDecimal, store, load]

theorem mem_all (operation : Operation) : operation ∈ all := by
  cases operation <;> decide

/-- The forms of two operations clash, and so do those of an operation and of data. -/
theorem clash_of_ne {first second : Option Operation} (other : first ≠ second) :
    Spot.clash (form first) (form second) = true := by
  have forms : ∀ first ∈ none :: all.map some, ∀ second ∈ none :: all.map some,
      first ≠ second → Spot.clash (form first) (form second) = true := by decide +kernel
  have listed (found : Option Operation) : found ∈ none :: all.map some := by
    cases found with
    | none => exact List.mem_cons_self
    | some operation => exact List.mem_cons_of_mem _ (List.mem_map_of_mem operation.mem_all)
  exact forms first (listed first) second (listed second) other

/-- Data show all four digits. -/
theorem digit_mem_data (place : Fin 4) : .digit place ∈ form none := by
  revert place
  decide

/-- A mnemonic shows each digit that the pattern of its operation leaves open. -/
theorem shown_or_fixed (operation : Operation) (place : Fin 4) :
    .digit place ∈ form (some operation) ∨
      ∃ value, operation.pattern.cellAt place = .digit value := by
  have placed : ∀ operation ∈ all, ∀ place : Fin 4, .digit place ∈ form (some operation) ∨
      ∃ value, operation.pattern.cellAt place = .digit value := by decide +kernel
  exact placed operation operation.mem_all place

end Operation

section Lines

variable {extended among : Bool} {word other : Word}

/-- What fills a piece is shown place by place. -/
theorem Piece.toList_fill (piece : Piece) (word : Word) :
    (piece.fill word).toList = piece.spots.map (Spot.shown word) := by
  cases piece with
  | text shown => simp [fill, spots, Spot.shown, Function.comp_def]
  | registerX | registerY => simp [fill, spots, Spot.shown, Word.digitAt, Hex.padded_one]
  | digit => simp [fill, spots, Spot.shown, Word.digitAt, Hex.padded_one]
  | byte => exact word.padded_nn
  | address => exact word.padded_nnn

/-- So is a line. -/
theorem toList_disassemble (extended : Bool) (word : Word) :
    (disassemble extended word).toList =
      (form (Operation.ofWord? extended word)).map (Spot.shown word) := by
  unfold disassemble
  cases Operation.ofWord? extended word with
  | some operation =>
    simp only [Instruction.mnemonic, form, String.toList_join, List.flatMap_map, List.map_flatMap]
    exact List.flatMap_congr fun piece _ => piece.toList_fill word
  | none =>
    have written : (Hex.padded 4 word.toNat).toList = _ := word.written_toList
    simp [form, written, Spot.shown, Word.digitAt]

/-- A digit of an accepted word is accepted at its place. -/
theorem Pattern.accepts_digitAt {pattern : Pattern} (accepted : pattern.accepts word = true)
    (place : Fin 4) : (pattern.cellAt place).accepts (word.digitAt place) = true := by
  obtain ⟨first, second, third, fourth⟩ := (Operation.accepts_iff pattern word).mp accepted
  match place with
  | 0 => exact first
  | 1 => exact second
  | 2 => exact third
  | 3 => exact fourth

/-- Different digits are printed differently. -/
theorem Hex.digit_injective {value other : Fin 16} (same : digit value.val = digit other.val) :
    value = other := by
  revert value other
  decide

/-- A word is told by its digits. -/
theorem Word.eq_of_digitAt (same : ∀ place, word.digitAt place = other.digitAt place) :
    word = other := by
  obtain ⟨_, _, _, number⟩ := Operation.parts_eq_digits word
  obtain ⟨_, _, _, otherNumber⟩ := Operation.parts_eq_digits other
  have family : word.family = other.family := same 0
  have x : word.x = other.x := same 1
  have y : word.y = other.y := same 2
  have n : word.n = other.n := same 3
  apply UInt16.toNat_inj.mp
  rw [number, otherNumber, family, x, y, n]

/-- Words of one form that show the same line agree in every digit: it is shown, or the
operation fixes it. -/
theorem digitAt_of_shown {found : Option Operation}
    (known : Operation.ofWord? extended word = found)
    (alsoKnown : Operation.ofWord? among other = found)
    (same : (form found).map (Spot.shown word) = (form found).map (Spot.shown other))
    (place : Fin 4) : word.digitAt place = other.digitAt place := by
  have ofMember (shown : .digit place ∈ form found) : word.digitAt place = other.digitAt place :=
    Hex.digit_injective (List.map_inj_left.mp same (.digit place) shown)
  cases found with
  | none => exact ofMember (Operation.digit_mem_data place)
  | some operation =>
    rcases operation.shown_or_fixed place with shown | ⟨value, fixed⟩
    · exact ofMember shown
    · have here := Pattern.accepts_digitAt (Operation.accepts_of_ofWord known) place
      have there := Pattern.accepts_digitAt (Operation.accepts_of_ofWord alsoKnown) place
      rw [fixed] at here there
      exact (beq_iff_eq.mp here).symm.trans (beq_iff_eq.mp there)

/-- A line tells its word, even without the set that it was listed in. -/
theorem disassemble_injective (same : disassemble extended word = disassemble among other) :
    word = other := by
  have shown := congrArg String.toList same
  rw [toList_disassemble, toList_disassemble] at shown
  by_cases alike : Operation.ofWord? extended word = Operation.ofWord? among other
  · rw [alike] at shown
    exact Word.eq_of_digitAt (digitAt_of_shown alike rfl shown)
  · exact absurd shown (Spot.shown_ne_of_clash (Operation.clash_of_ne alike))

/-- Integers with the same low sixteen bits are the same word. -/
theorem Word.ofInt_eq_iff {number beside : Int} :
    ofInt number = ofInt beside ↔ number % 0x10000 = beside % 0x10000 := by
  rw [← toNat_ofInt, ← toNat_ofInt, Int.ofNat_inj, UInt16.toNat_inj]

/-- The lines of two numbers are the same exactly if their low sixteen bits are, in the plain
set and in the extended one. So a listing determines the words of its program, those that mean
nothing included. -/
theorem disassemble_lossless (extended : Bool) :
    (∀ number beside : Int,
      disassemble extended (.ofInt number) = disassemble extended (.ofInt beside) ↔
        number % 0x10000 = beside % 0x10000) ∧
      ∀ numbers others : List Int,
        numbers.map (fun number => disassemble extended (.ofInt number)) =
            others.map (fun number => disassemble extended (.ofInt number)) ↔
          numbers.map (· % 0x10000) = others.map (· % 0x10000) := by
  have injective : Function.Injective (disassemble extended) := fun _ _ => disassemble_injective
  constructor
  · intro number beside
    rw [injective.eq_iff, Word.ofInt_eq_iff]
  · intro numbers others
    have lines (listed : List Int) :
        listed.map (fun number => disassemble extended (.ofInt number)) =
        (listed.map Word.ofInt).map (disassemble extended) := by
      rw [List.map_map]
      rfl
    have halves (listed : List Int) : listed.map (· % 0x10000) =
        (listed.map Word.ofInt).map fun word => (word.toNat : Int) := by
      simp [Word.toNat_ofInt]
    have told : Function.Injective fun word : Word => (word.toNat : Int) :=
      fun _ _ same => UInt16.toNat_inj.mp (Int.ofNat_inj.mp same)
    rw [lines, lines, halves, halves, injective.list_map.eq_iff, told.list_map.eq_iff]

end Lines

end Chip8
