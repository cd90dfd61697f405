import Chip8.FrameClock

/-!
# Exact measures

A whole number that has no more bits than a measure resolves is not rounded when it is
measured, because it is scaled up by a power of two, if at all, and rounding an integer
changes nothing. The same holds of a quotient that is such a number, whatever dividend
and divisor are. A clock whose instruction rate is a multiple of its timer rate therefore
finds the factor as the steps of a frame.
-/

namespace Chip8

namespace Rounding

/-- An integer is its own nearest integer. -/
theorem toInteger_intCast (value : Int) : toInteger value = value := by
  have below : value / 1 = value := Int.ediv_one value
  have nothingLeft : value % 1 = 0 := Int.emod_one value
  simp [toInteger, quotient, below, nothingLeft]

theorem twoPow_natCast (exponent : Nat) :
    twoPow exponent = ((Nat.pow 2 exponent : Nat) : Rat) := by
  simp [twoPow]

/-- A number of so many bits is below every power of two with more. -/
theorem natCast_lt_twoPow {value bits exponent : Nat} (fits : value < Nat.pow 2 bits)
    (more : bits < exponent) : (value : Rat) < twoPow exponent := by
  have bound : value < Nat.pow 2 exponent :=
    Nat.lt_trans fits (Nat.pow_lt_pow_right (by decide) more)
  rw [twoPow_natCast]
  exact_mod_cast bound

/-- Opposite powers of two cancel. -/
theorem twoPow_mul_neg (exponent : Nat) : twoPow exponent * twoPow (-exponent) = 1 := by
  have positive : 0 < Nat.pow 2 exponent := Nat.pow_pos (by decide)
  have nonzero : ((Nat.pow 2 exponent : Nat) : Rat) ≠ 0 := by
    exact_mod_cast Nat.ne_of_gt positive
  rw [twoPow_natCast]
  cases exponent with
  | zero => decide +kernel
  | succ exponent =>
    have below : ¬(0 : Int) ≤ -((exponent + 1 : Nat) : Int) := by omega
    have back : (- -((exponent + 1 : Nat) : Int)).toNat = exponent + 1 := by omega
    rw [twoPow, if_neg below, back, Rat.div_def, Rat.one_mul]
    exact Rat.mul_inv_cancel _ nonzero

variable {value : Nat}

/-- A whole number of up to `precision` bits is scaled up, if at all. -/
theorem scaleOf_natCast (some : 0 < value) (fits : value < Nat.pow 2 precision) :
    ∃ scale : Nat, scaleOf value = scale := by
  have bits : value.log2 < precision := (Nat.log2_lt (Nat.ne_of_gt some)).mpr fits
  have unit : Nat.log2 1 = 0 := by decide
  apply Int.eq_ofNat_of_zero_le
  simp only [scaleOf, Rat.num_natCast, Rat.den_natCast, Int.natAbs_natCast]
  simp only [unit, precision, finestScale] at bits ⊢
  split <;> split <;> omega

/-- A whole number of up to `precision` bits is not rounded. -/
theorem toBinary_natCast (fits : value < Nat.pow 2 precision) : toBinary value = value := by
  rcases Nat.eq_zero_or_pos value with rfl | some
  · rfl
  have nonzero : ¬(value : Rat) = 0 := by exact_mod_cast Nat.ne_of_gt some
  have notNegative : ¬(value : Rat) < 0 := Rat.not_lt.mpr (by exact_mod_cast Nat.zero_le value)
  obtain ⟨scale, known⟩ := scaleOf_natCast some fits
  have scaled : (value : Rat) * twoPow scale = ((value * Nat.pow 2 scale : Nat) : Int) := by
    rw [twoPow_natCast, Rat.intCast_natCast, Rat.natCast_mul]
  simp only [toBinary, nonzero, notNegative, if_false, known]
  rw [scaled, toInteger_intCast, ← scaled, Rat.mul_assoc, twoPow_mul_neg, Rat.mul_one]

end Rounding

/-- A whole number of up to `precision` bits is measured exactly. -/
theorem Measure.ofRat_natCast {value : Nat} (fits : value < Nat.pow 2 Rounding.precision) :
    ofRat value = finite value := by
  have reachable : (value : Rat) < reach := Rounding.natCast_lt_twoPow fits (by decide)
  have notNegative : (0 : Rat) ≤ value := by exact_mod_cast Nat.zero_le value
  have notAbove : ¬reach ≤ (value : Rat) := Rat.not_le.mpr reachable
  have notBelow : ¬(value : Rat) ≤ -reach := by grind
  simp only [ofRat, Rounding.toBinary_natCast fits, notAbove, notBelow, if_false]

/-- A quotient that is a whole number of up to `precision` bits is measured exactly. -/
theorem Number.quotient_mul {factor divisor : Nat} (some : 0 < divisor)
    (fits : factor < Nat.pow 2 Rounding.precision) :
    quotient (factor * divisor) divisor = .ok (measured (.finite factor)) := by
  have nonzero : (divisor : Rat) ≠ 0 := by exact_mod_cast Nat.ne_of_gt some
  have exact : ((factor * divisor : Int) : Rat) / ((divisor : Int) : Rat) = factor := by
    rw [Rat.intCast_mul, Rat.intCast_natCast, Rat.intCast_natCast, Rat.div_def, Rat.mul_assoc,
      Rat.mul_inv_cancel _ nonzero, Rat.mul_one]
  have notZero : ¬(divisor : Int) = 0 := by omega
  simp only [quotient, notZero, if_false, exact, Measure.ofRat_natCast fits]

/-- Where the instruction rate is a multiple of the timer rate, a frame has as many steps
as the factor says. -/
theorem FrameClock.stepsPerFrame_of_multiple {steps timerRate elapsed : Nat}
    (someSteps : 0 < steps) (fits : steps < Nat.pow 2 Rounding.precision)
    (someTimerRate : 0 < timerRate) :
    (⟨.whole (steps * timerRate), .whole timerRate, elapsed⟩ : FrameClock).stepsPerFrame =
      .ok steps := by
  have divided : (Number.whole (steps * timerRate)).div (.whole timerRate) =
      .ok (.measured (.finite steps)) := Number.quotient_mul someTimerRate fits
  have rounded : (Number.measured (.finite steps)).round = .ok (steps : Int) := by
    have known := Rounding.toInteger_intCast steps
    rw [Rat.intCast_natCast] at known
    exact congrArg Except.ok known
  have some : max 1 (steps : Int).toNat = steps := by omega
  unfold stepsPerFrame
  simp only [divided, bind, Except.bind, rounded, pure, Except.pure, some]

end Chip8
