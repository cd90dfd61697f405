import Chip8.Proofs.Exactness
import Mathlib.Algebra.Order.Field.Power
import Mathlib.Algebra.Order.Field.Rat
import Mathlib.Tactic.Linarith
import Mathlib.Tactic.Ring

/-!
# Measuring keeps the order

Rounding to the nearest point of a grid keeps the order of what is rounded: the nearest
integers of two numbers can be out of order only if both lie halfway between them, and then
the two numbers are the same.

The grid of binary fractions is finer for smaller magnitudes. The scale of a magnitude tells
between which powers of two it lies, and so either two magnitudes have one scale, and are
rounded on one grid, or a power of two lies between them that is on both grids. Times that
are told in seconds therefore stand in the order of the moments they belong to.
-/

namespace Chip8

namespace Rounding

/-- The nearest integer to a quotient is off by half of the divisor at most. -/
theorem quotient_near (numerator : Int) {denominator : Nat} (some : 0 < denominator) :
    2 * numerator - denominator ≤ 2 * (quotient numerator denominator * denominator) ∧
      2 * (quotient numerator denominator * denominator) ≤ 2 * numerator + denominator := by
  have whole : (denominator : Int) * (numerator / denominator) + numerator % denominator =
      numerator := Int.mul_ediv_add_emod ..
  have notNegative : 0 ≤ numerator % denominator := Int.emod_nonneg _ (by omega)
  have less : numerator % denominator < denominator := Int.emod_lt_of_pos _ (by omega)
  rw [Int.mul_comm] at whole
  unfold quotient
  dsimp only
  generalize numerator / denominator = below at whole ⊢
  generalize numerator % denominator = rest at whole notNegative less ⊢
  split
  · omega
  · split
    · rw [Int.add_mul, Int.one_mul]
      omega
    · rcases Int.emod_two_eq_zero_or_one below with even | odd
      · rw [even, Int.add_zero]
        omega
      · rw [odd, Int.add_mul, Int.one_mul]
        omega

/-- The nearest integer is off by one half at most. -/
theorem toInteger_near (value : Rat) :
    value - 1 / 2 ≤ toInteger value ∧ toInteger value ≤ value + 1 / 2 := by
  have some : (0 : Rat) < value.den := by exact_mod_cast value.den_pos
  obtain ⟨above, below⟩ := quotient_near value.num value.den_pos
  have aboveHere : 2 * (value.num : Rat) - value.den ≤ 2 * (toInteger value * value.den) := by
    exact_mod_cast above
  have belowHere : 2 * (toInteger value * (value.den : Rat)) ≤ 2 * value.num + value.den := by
    exact_mod_cast below
  have whole : value * value.den = value.num := Rat.mul_den_eq_num value
  constructor
  · refine le_of_mul_le_mul_right ?_ some
    linarith
  · refine le_of_mul_le_mul_right ?_ some
    linarith

variable {first second : Rat}

/-- Nearest integers keep the order. -/
theorem toInteger_mono (order : first ≤ second) : toInteger first ≤ toInteger second := by
  by_contra reversed
  have apart : (toInteger second : Rat) + 1 ≤ toInteger first := by
    exact_mod_cast Int.not_le.mp reversed
  obtain ⟨_, belowFirst⟩ := toInteger_near first
  obtain ⟨aboveSecond, _⟩ := toInteger_near second
  have same : first = second := by linarith
  rw [same] at reversed
  exact reversed (Int.le_refl _)

theorem twoPow_eq_zpow (exponent : Int) : twoPow exponent = (2 : Rat) ^ exponent := by
  unfold twoPow
  split
  case isTrue natural =>
    obtain ⟨count, rfl⟩ := Int.eq_ofNat_of_zero_le natural
    simp
  case isFalse negative =>
    obtain ⟨count, opposite⟩ := Int.eq_ofNat_of_zero_le (by omega : 0 ≤ -exponent)
    obtain rfl : exponent = -(count : Int) := by omega
    simp

/-- The logarithm of a natural number tells between which powers of two it lies. -/
theorem natCast_near {value : Nat} (some : 0 < value) :
    (2 : Rat) ^ (value.log2 : Int) ≤ value ∧
      (value : Rat) < (2 : Rat) ^ ((value.log2 : Int) + 1) := by
  constructor
  · rw [zpow_natCast]
    exact_mod_cast Nat.log2_self_le (Nat.ne_of_gt some)
  · have above : value < 2 ^ (value.log2 + 1) := Nat.lt_log2_self
    rw [← Int.natCast_succ, zpow_natCast]
    exact_mod_cast above

/-- Those of numerator and denominator tell it of a magnitude, up to one step. -/
theorem magnitude_near {magnitude : Rat} (some : 0 < magnitude) :
    let bits := (magnitude.num.natAbs.log2 : Int) - (magnitude.den.log2 : Int)
    (2 : Rat) ^ (bits - 1) < magnitude ∧ magnitude < (2 : Rat) ^ (bits + 1) := by
  intro bits
  have positive : 0 < magnitude.num := Rat.num_pos.mpr some
  have someHere : (0 : Rat) < magnitude.den := by exact_mod_cast magnitude.den_pos
  have numerator : (magnitude.num.natAbs : Rat) = magnitude * magnitude.den := by
    rw [Rat.mul_den_eq_num, Nat.cast_natAbs, abs_of_pos positive]
  obtain ⟨aboveNum, belowNum⟩ := natCast_near (Int.natAbs_pos.mpr (Int.ne_of_gt positive))
  obtain ⟨aboveDen, belowDen⟩ := natCast_near magnitude.den_pos
  rw [numerator] at aboveNum belowNum
  constructor
  · refine lt_of_mul_lt_mul_right (lt_of_lt_of_le ?_ aboveNum) someHere.le
    have step : (2 : Rat) ^ (magnitude.num.natAbs.log2 : Int) =
        2 ^ (bits - 1) * 2 ^ ((magnitude.den.log2 : Int) + 1) := by
      rw [← zpow_add₀ two_ne_zero]
      congr 1
      omega
    rw [step]
    exact mul_lt_mul_of_pos_left belowDen (zpow_pos two_pos _)
  · refine lt_of_mul_lt_mul_right (lt_of_lt_of_le belowNum ?_) someHere.le
    have step : (2 : Rat) ^ ((magnitude.num.natAbs.log2 : Int) + 1) =
        2 ^ (bits + 1) * 2 ^ (magnitude.den.log2 : Int) := by
      rw [← zpow_add₀ two_ne_zero]
      congr 1
      omega
    rw [step]
    exact mul_le_mul_of_nonneg_left aboveDen (zpow_pos two_pos _).le

/-- The scale that the logarithms suggest, or the next one, brings a magnitude to the precision. -/
theorem scale_fits {magnitude : Rat} {bits estimate : Int} (above : 2 ^ (bits - 1) < magnitude)
    (below : magnitude < 2 ^ (bits + 1)) (suggested : estimate = 52 - bits) :
    let scale :=
      if magnitude * 2 ^ estimate < (2 : Rat) ^ (52 : Int) then estimate + 1 else estimate
    magnitude * 2 ^ scale < (2 : Rat) ^ (53 : Int) ∧
      (2 : Rat) ^ (52 : Int) ≤ magnitude * 2 ^ scale := by
  have positive : (0 : Rat) < 2 ^ estimate := zpow_pos two_pos _
  have low : (2 : Rat) ^ (51 : Int) < magnitude * 2 ^ estimate := by
    have step : (2 : Rat) ^ (51 : Int) = 2 ^ (bits - 1) * 2 ^ estimate := by
      rw [← zpow_add₀ two_ne_zero]
      congr 1
      omega
    rw [step]
    exact mul_lt_mul_of_pos_right above positive
  have high : magnitude * 2 ^ estimate < (2 : Rat) ^ (53 : Int) := by
    have step : (2 : Rat) ^ (53 : Int) = 2 ^ (bits + 1) * 2 ^ estimate := by
      rw [← zpow_add₀ two_ne_zero]
      congr 1
      omega
    rw [step]
    exact mul_lt_mul_of_pos_right below positive
  intro scale
  by_cases less : magnitude * 2 ^ estimate < (2 : Rat) ^ (52 : Int)
  · have next : magnitude * 2 ^ scale = 2 * (magnitude * (2 : Rat) ^ estimate) := by
      simp only [scale, if_pos less]
      rw [zpow_add_one₀ two_ne_zero]
      ring
    rw [next]
    constructor
    · linarith
    · linarith
  · simp only [scale, if_neg less]
    exact ⟨high, not_lt.mp less⟩

/-- The scale of a magnitude brings it below the precision, and to at least half of it unless
the scale is the finest one. -/
theorem scaleOf_spec {magnitude : Rat} (some : 0 < magnitude) :
    magnitude * 2 ^ scaleOf magnitude < (2 : Rat) ^ (53 : Int) ∧
      scaleOf magnitude ≤ finestScale ∧
      (scaleOf magnitude = finestScale ∨
        (2 : Rat) ^ (52 : Int) ≤ magnitude * 2 ^ scaleOf magnitude) := by
  obtain ⟨above, below⟩ := magnitude_near some
  obtain ⟨scale, known, high, low⟩ :
      ∃ scale, scaleOf magnitude = (if finestScale < scale then finestScale else scale) ∧
        magnitude * 2 ^ scale < (2 : Rat) ^ (53 : Int) ∧
        (2 : Rat) ^ (52 : Int) ≤ magnitude * 2 ^ scale := by
    refine ⟨_, ?_, scale_fits above below rfl⟩
    simp only [scaleOf, twoPow_eq_zpow]
    rfl
  rw [known]
  split
  case isTrue finer =>
    refine ⟨?_, le_refl _, .inl rfl⟩
    have coarser : (2 : Rat) ^ finestScale ≤ 2 ^ scale := zpow_le_zpow_right₀ one_le_two finer.le
    exact lt_of_le_of_lt (mul_le_mul_of_nonneg_left coarser some.le) high
  case isFalse coarse => exact ⟨high, not_lt.mp coarse, .inr low⟩

/-- What is rounded, at a scale. -/
theorem toBinary_of_pos {magnitude : Rat} (some : 0 < magnitude) :
    toBinary magnitude = toInteger (magnitude * 2 ^ scaleOf magnitude) *
      (2 : Rat) ^ (-scaleOf magnitude) := by
  simp only [toBinary, some.ne', not_lt.mpr some.le, if_false, twoPow_eq_zpow]

/-- A magnitude that reaches a power of two on its grid does so when it is rounded. -/
theorem zpow_le_toBinary {magnitude : Rat} (some : 0 < magnitude) {bits : Nat}
    (reaches : (2 : Rat) ^ bits ≤ magnitude * 2 ^ scaleOf magnitude) :
    (2 : Rat) ^ (bits - scaleOf magnitude) ≤ toBinary magnitude := by
  have power : ((2 ^ bits : Nat) : Int) ≤ toInteger (magnitude * 2 ^ scaleOf magnitude) := by
    rw [← toInteger_intCast ((2 ^ bits : Nat) : Int)]
    exact toInteger_mono (by exact_mod_cast reaches)
  have powerHere : (2 : Rat) ^ bits ≤ toInteger (magnitude * 2 ^ scaleOf magnitude) := by
    exact_mod_cast power
  rw [toBinary_of_pos some, sub_eq_add_neg, zpow_add₀ two_ne_zero, zpow_natCast]
  exact mul_le_mul_of_nonneg_right powerHere (zpow_pos two_pos _).le

/-- One that stays within a power of two does so as well. -/
theorem toBinary_le_zpow {magnitude : Rat} (some : 0 < magnitude) {bits : Nat}
    (stays : magnitude * 2 ^ scaleOf magnitude ≤ (2 : Rat) ^ bits) :
    toBinary magnitude ≤ (2 : Rat) ^ (bits - scaleOf magnitude) := by
  have power : toInteger (magnitude * 2 ^ scaleOf magnitude) ≤ ((2 ^ bits : Nat) : Int) := by
    rw [← toInteger_intCast ((2 ^ bits : Nat) : Int)]
    exact toInteger_mono (by exact_mod_cast stays)
  have powerHere : toInteger (magnitude * 2 ^ scaleOf magnitude) ≤ (2 : Rat) ^ bits := by
    exact_mod_cast power
  rw [toBinary_of_pos some, sub_eq_add_neg, zpow_add₀ two_ne_zero, zpow_natCast]
  exact mul_le_mul_of_nonneg_right powerHere (zpow_pos two_pos _).le

/-- Rounding keeps the order of magnitudes. -/
theorem toBinary_mono (positive : 0 < first) (order : first ≤ second) :
    toBinary first ≤ toBinary second := by
  have positiveSecond : 0 < second := lt_of_lt_of_le positive order
  obtain ⟨highFirst, coarseFirst, lowFirst⟩ := scaleOf_spec positive
  obtain ⟨highSecond, coarseSecond, lowSecond⟩ := scaleOf_spec positiveSecond
  rcases lt_trichotomy (scaleOf first) (scaleOf second) with finer | same | coarser
  · -- A magnitude that is not smaller is not on a finer grid.
    have low := lowFirst.resolve_left (ne_of_lt (lt_of_lt_of_le finer coarseSecond))
    have next : (2 : Rat) ^ (scaleOf first + 1) ≤ 2 ^ scaleOf second :=
      zpow_le_zpow_right₀ one_le_two finer
    have reached : first * 2 ^ (scaleOf first + 1) ≤ second * 2 ^ scaleOf second :=
      mul_le_mul order next (zpow_pos two_pos _).le positiveSecond.le
    rw [zpow_add_one₀ two_ne_zero] at reached
    linarith
  · rw [toBinary_of_pos positive, toBinary_of_pos positiveSecond, same]
    have scaled : first * 2 ^ scaleOf second ≤ second * (2 : Rat) ^ scaleOf second :=
      mul_le_mul_of_nonneg_right order (zpow_pos two_pos _).le
    have rounded : (toInteger (first * 2 ^ scaleOf second) : Rat) ≤
        toInteger (second * 2 ^ scaleOf second) := by
      exact_mod_cast toInteger_mono scaled
    exact mul_le_mul_of_nonneg_right rounded (zpow_pos two_pos _).le
  · -- The power of two at which the grid of the second begins lies between them.
    have low := lowSecond.resolve_left (ne_of_lt (lt_of_lt_of_le coarser coarseFirst))
    calc toBinary first
        ≤ (2 : Rat) ^ (((53 : Nat) : Int) - scaleOf first) := toBinary_le_zpow positive highFirst.le
      _ ≤ (2 : Rat) ^ (((52 : Nat) : Int) - scaleOf second) :=
        zpow_le_zpow_right₀ one_le_two (by omega)
      _ ≤ toBinary second := zpow_le_toBinary positiveSecond low

/-- Rounding keeps the order of quantities that are not negative. -/
theorem toBinary_mono_of_nonneg (notNegative : 0 ≤ first) (order : first ≤ second) :
    toBinary first ≤ toBinary second := by
  rcases notNegative.eq_or_lt with rfl | positive
  · rcases order.eq_or_lt with rfl | positive
    · exact le_refl _
    · have nothing : toBinary 0 = 0 := rfl
      have natural : (0 : Int) ≤ toInteger (second * 2 ^ scaleOf second) := by
        rw [← toInteger_intCast 0]
        exact toInteger_mono (mul_nonneg positive.le (zpow_pos two_pos _).le)
      rw [nothing, toBinary_of_pos positive]
      exact mul_nonneg (by exact_mod_cast natural) (zpow_pos two_pos _).le
  · exact toBinary_mono positive order

end Rounding

/-- Measures of quantities that are not negative stand in the order of these. -/
theorem Measure.ofRat_mono {first second value other : Rat} (notNegative : 0 ≤ first)
    (order : first ≤ second) (measured : ofRat first = .finite value)
    (measuredSecond : ofRat second = .finite other) : value ≤ other := by
  have rounded {quantity near : Rat} (known : ofRat quantity = .finite near) :
      near = Rounding.toBinary quantity := by
    unfold ofRat at known
    dsimp only at known
    split at known
    · cases known
    · split at known
      · cases known
      · exact (Measure.finite.inj known).symm
  rw [rounded measured, rounded measuredSecond]
  exact Rounding.toBinary_mono_of_nonneg notNegative order

/-- A quantity that is not above one with a finite measure has a finite measure as well. -/
theorem Measure.ofRat_finite_of_le {first second value : Rat} (notNegative : 0 ≤ first)
    (order : first ≤ second) (measured : ofRat second = .finite value) :
    ∃ near, ofRat first = .finite near := by
  have nothing : Rounding.toBinary 0 = 0 := rfl
  have natural : 0 ≤ Rounding.toBinary first :=
    nothing ▸ Rounding.toBinary_mono_of_nonneg (le_refl 0) notNegative
  have less : Rounding.toBinary first ≤ Rounding.toBinary second :=
    Rounding.toBinary_mono_of_nonneg notNegative order
  have far : 0 < reach := by decide +kernel
  have within : ¬reach ≤ Rounding.toBinary second := by
    intro beyond
    simp [ofRat, beyond] at measured
  refine ⟨Rounding.toBinary first, ?_⟩
  simp only [ofRat]
  rw [if_neg (by linarith), if_neg (by linarith)]

/-- The time in seconds is a measure, the nearest to that many millionths. -/
theorem FrameClock.seconds_eq_ok {clock : FrameClock} {time : Number} :
    clock.seconds = .ok time ↔
      ∃ value, Measure.ofRat ((clock.elapsed : Rat) / Number.microseconds) = .finite value ∧
        time = .measured (.finite value) := by
  change Number.quotient clock.elapsed Number.microseconds = _ ↔ _
  have some : ¬(Number.microseconds : Int) = 0 := by decide
  simp only [Number.quotient, if_neg some, Int.cast_natCast]
  cases Measure.ofRat ((clock.elapsed : Rat) / Number.microseconds) with
  | finite nearest =>
    constructor
    · intro told
      exact ⟨nearest, rfl, (Except.ok.inj told).symm⟩
    · rintro ⟨value, same, rfl⟩
      cases same
      rfl
  | infinite | undefined =>
    constructor
    · intro told
      cases told
    · rintro ⟨_, same, _⟩
      cases same

/-- The moments of a clock in seconds, before they are measured, are in order. -/
theorem FrameClock.moments_le {clock next : FrameClock} (order : clock.elapsed ≤ next.elapsed) :
    (0 : Rat) ≤ (clock.elapsed : Rat) / Number.microseconds ∧
      (clock.elapsed : Rat) / Number.microseconds ≤ next.elapsed / Number.microseconds := by
  have some : (0 : Rat) < Number.microseconds := by norm_num [Number.microseconds]
  constructor
  · exact div_nonneg (by exact_mod_cast Nat.zero_le _) some.le
  · exact div_le_div_of_nonneg_right (by exact_mod_cast order) some.le

/-- Moments that can be told stand in the order in which they come. -/
theorem FrameClock.seconds_mono {clock next : FrameClock} {time later : Number}
    (told : clock.seconds = .ok time) (toldLater : next.seconds = .ok later)
    (order : clock.elapsed ≤ next.elapsed) : time.le later = true := by
  obtain ⟨value, measured, rfl⟩ := seconds_eq_ok.mp told
  obtain ⟨other, measuredLater, rfl⟩ := seconds_eq_ok.mp toldLater
  obtain ⟨start, moments⟩ := moments_le order
  exact decide_eq_true (Measure.ofRat_mono start moments measured measuredLater)

/-- Before a moment that can be told all moments can be told. -/
theorem FrameClock.told_of_le {clock next : FrameClock} {time : Number}
    (told : next.seconds = .ok time) (order : clock.elapsed ≤ next.elapsed) :
    ∃ earlier, clock.seconds = .ok earlier := by
  obtain ⟨value, measured, _⟩ := seconds_eq_ok.mp told
  obtain ⟨start, moments⟩ := moments_le order
  obtain ⟨near, measuredBefore⟩ := Measure.ofRat_finite_of_le start moments measured
  exact ⟨.measured (.finite near), seconds_eq_ok.mpr ⟨near, measuredBefore, rfl⟩⟩

end Chip8
