import Mathlib.Tactic.Ring
import Mathlib.Tactic.Linarith
import Persona.Number.Binary64

/-!
# Rounding depends on the value alone

A quotient is rounded through the logarithms of its numerator and denominator,
which differ between two ways of writing one value. Here the scale that the
logarithms lead to is characterised by the value: it is the only one at which the
value has fifty-three significant bits, or the smallest. So two quotients with one
value are rounded alike, and a value that is a number already is its own rounding.

Values are compared by cross products of natural numbers; there are no rationals.
-/

namespace Persona.Binary64

/-- At this scale the quotient has at most fifty-three bits and, unless the scale is the
smallest, no fewer. The quotient is measured in units of the smallest positive number. -/
def FitsScale (num den scale : Nat) : Prop :=
  num * 2 ^ 1074 < den * 2 ^ (53 + scale) ∧
    (scale = 0 ∨ den * 2 ^ (52 + scale) ≤ num * 2 ^ 1074)

/-- The test made by `scaleOf` compares the quotient with a power of two. The subtractions
stop at zero on one side or the other, so multiplying by the scale removes both. -/
theorem scale_test (num den scale : Nat) :
    2 * binade * (den * Nat.pow 2 (scale - 1074)) ≤ num * Nat.pow 2 (1074 - scale) ↔
      den * 2 ^ (53 + scale) ≤ num * 2 ^ 1074 := by
  have positive : 0 < 2 ^ (scale - (scale - 1074)) := Nat.two_pow_pos _
  have left : 2 * binade * (den * Nat.pow 2 (scale - 1074)) * 2 ^ (scale - (scale - 1074)) =
      den * 2 ^ (53 + scale) := by
    have exponent : scale = (scale - 1074) + (scale - (scale - 1074)) := by omega
    conv_rhs => rw [exponent, pow_add, pow_add]
    simp only [Nat.pow_eq, binade]
    ring
  have right : num * Nat.pow 2 (1074 - scale) * 2 ^ (scale - (scale - 1074)) =
      num * 2 ^ 1074 := by
    have exponent : 1074 - scale + (scale - (scale - 1074)) = 1074 := by omega
    rw [Nat.pow_eq, mul_assoc, ← pow_add, exponent]
  rw [← Nat.mul_le_mul_right_iff positive, left, right]

/-- The scale found through the logarithms fits. -/
theorem scaleOf_fits (num den : Nat) (hnum : 0 < num) (hden : 0 < den) :
    FitsScale num den (scaleOf num den) := by
  have numLow : 2 ^ num.log2 ≤ num := Nat.log2_self_le (by omega)
  have numHigh : num < 2 ^ (num.log2 + 1) := Nat.lt_log2_self
  have denLow : 2 ^ den.log2 ≤ den := Nat.log2_self_le (by omega)
  have denHigh : den < 2 ^ (den.log2 + 1) := Nat.lt_log2_self
  unfold scaleOf
  simp only [scale_test]
  generalize lowScale : num.log2 + 1074 - den.log2 - 53 = low
  split
  · rename_i large
    have sameExponent : 52 + (low + 1) = 53 + low := by omega
    refine ⟨?_, .inr (sameExponent ▸ large)⟩
    calc num * 2 ^ 1074 < 2 ^ (num.log2 + 1) * 2 ^ 1074 := by
          exact Nat.mul_lt_mul_of_pos_right numHigh (pow_pos Nat.two_pos 1074)
      _ = 2 ^ (num.log2 + 1 + 1074) := by rw [← pow_add]
      _ ≤ 2 ^ (den.log2 + (53 + (low + 1))) := Nat.pow_le_pow_right (by decide) (by omega)
      _ = 2 ^ den.log2 * 2 ^ (53 + (low + 1)) := pow_add ..
      _ ≤ den * 2 ^ (53 + (low + 1)) := Nat.mul_le_mul_right _ denLow
  · rename_i small
    refine ⟨Nat.lt_of_not_le small, ?_⟩
    by_cases smallest : low = 0
    · exact .inl smallest
    right
    calc den * 2 ^ (52 + low) ≤ 2 ^ (den.log2 + 1) * 2 ^ (52 + low) := by
          exact Nat.mul_le_mul_right _ denHigh.le
      _ = 2 ^ (den.log2 + 1 + (52 + low)) := (pow_add ..).symm
      _ ≤ 2 ^ (num.log2 + 1074) := Nat.pow_le_pow_right (by decide) (by omega)
      _ = 2 ^ num.log2 * 2 ^ 1074 := pow_add ..
      _ ≤ num * 2 ^ 1074 := Nat.mul_le_mul_right _ numLow

/-- No quotient fits two scales. -/
theorem FitsScale.unique {num den s t : Nat} (first : FitsScale num den s)
    (second : FitsScale num den t) : s = t := by
  have ordered {s t : Nat} (first : FitsScale num den s) (second : FitsScale num den t) :
      t ≤ s := by
    rcases second.2 with smallest | large
    · omega
    have powers : 2 ^ (52 + t) < 2 ^ (53 + s) :=
      Nat.lt_of_mul_lt_mul_left (large.trans_lt first.1)
    have exponents := (Nat.pow_lt_pow_iff_right (by decide)).mp powers
    omega
  exact Nat.le_antisymm (ordered second first) (ordered first second)

/-- Whether a scale fits depends on the value of the quotient alone. -/
theorem FitsScale.of_sameValue {num den num' den' s : Nat} (hden : 0 < den) (hden' : 0 < den')
    (same : num * den' = num' * den) (fits : FitsScale num den s) : FitsScale num' den' s := by
  have numCross : num * 2 ^ 1074 * den' = num' * 2 ^ 1074 * den := by
    rw [Nat.mul_right_comm, same, Nat.mul_right_comm]
  have denCross (k : Nat) : den * 2 ^ k * den' = den' * 2 ^ k * den := by ring
  constructor
  · apply Nat.lt_of_mul_lt_mul_right (a := den)
    rw [← numCross, ← denCross]
    exact Nat.mul_lt_mul_of_pos_right fits.1 hden'
  · refine fits.2.imp_right fun large => ?_
    apply Nat.le_of_mul_le_mul_right (c := den) _ hden
    rw [← numCross, ← denCross]
    exact Nat.mul_le_mul_right den' large

/-- Rounded division ignores a common factor. -/
theorem divideToEven_mul (k num den : Nat) (positive : 0 < k) :
    divideToEven (k * num) (k * den) = divideToEven num den := by
  have twice (r : Nat) : 2 * (k * r) = k * (2 * r) := by ring
  simp only [divideToEven, Nat.mul_div_mul_left _ _ positive, Nat.mul_mod_mul_left, twice,
    Nat.mul_lt_mul_left positive, Nat.mul_right_inj positive.ne']

/-- Rounded division depends on the value of the quotient alone. -/
theorem divideToEven_of_sameValue {num den num' den' : Nat} (hden : 0 < den) (hden' : 0 < den')
    (same : num * den' = num' * den) : divideToEven num den = divideToEven num' den' := by
  rw [← divideToEven_mul den' num den hden', ← divideToEven_mul den num' den' hden,
    Nat.mul_comm den' num, same, Nat.mul_comm num' den, Nat.mul_comm den' den]

/-- A quotient that is whole is its own rounding. -/
theorem divideToEven_whole (quotient den : Nat) (hden : 0 < den) :
    divideToEven (quotient * den) den = quotient := by
  have nonzero : ¬ 0 = den := by omega
  simp [divideToEven, Nat.mul_div_cancel _ hden, nonzero]

/-- Two quotients with one value are rounded to the same number. -/
theorem ofRatio_of_sameValue (negative : Bool) {num den num' den' : Nat} (hden : 0 < den)
    (hden' : 0 < den') (same : num * den' = num' * den) :
    ofRatio negative num den = ofRatio negative num' den' := by
  by_cases zero : num = 0
  · have zero' : num' = 0 := by
      rw [zero, Nat.zero_mul] at same
      exact (Nat.mul_eq_zero.mp same.symm).resolve_right hden.ne'
    simp [ofRatio, zero, zero']
  have zero' : num' ≠ 0 := by
    intro zero'
    rw [zero', Nat.zero_mul] at same
    exact zero ((Nat.mul_eq_zero.mp same).resolve_right hden'.ne')
  have scales : scaleOf num den = scaleOf num' den' :=
    ((scaleOf_fits num den (by omega) hden).of_sameValue hden hden' same).unique
      (scaleOf_fits num' den' (by omega) hden')
  have points (s : Nat) : gridPoint num den s = gridPoint num' den' s := by
    apply divideToEven_of_sameValue
    · exact Nat.mul_pos hden (Nat.two_pow_pos _)
    · exact Nat.mul_pos hden' (Nat.two_pow_pos _)
    · calc _ = num * den' * (Nat.pow 2 (1074 - s) * Nat.pow 2 (s - 1074)) := by ring
        _ = _ := by rw [same]; ring
  simp only [ofRatio, zero, zero', scales, points]

/-- The exponent of a positive code is the scale of its own magnitude. -/
theorem exponent_fits (code : Nat) (positive : 0 < code) :
    FitsScale (numerator code) (denominator code) (exponent code) := by
  have numUnits : numerator code * 2 ^ 1074 =
      significand code * 2 ^ (exponent code + (1074 - exponent code)) := by
    have exponents : exponent code - 1074 + 1074 =
        exponent code + (1074 - exponent code) := by omega
    rw [numerator, Nat.pow_eq, mul_assoc, ← pow_add, exponents]
  have denUnits (k : Nat) : denominator code * 2 ^ (k + exponent code) =
      2 ^ k * 2 ^ (exponent code + (1074 - exponent code)) := by
    have exponents : 1074 - exponent code + (k + exponent code) =
        k + (exponent code + (1074 - exponent code)) := by omega
    rw [denominator, Nat.pow_eq, ← pow_add, ← pow_add, exponents]
  unfold FitsScale
  rw [numUnits, denUnits, denUnits]
  constructor
  · apply Nat.mul_lt_mul_of_pos_right _ (Nat.two_pow_pos _)
    unfold significand binade
    split <;> omega
  · by_cases normal : code < binade
    · left
      rw [exponent, Nat.div_eq_of_lt normal]
    · right
      apply Nat.mul_le_mul_right
      rw [significand, if_neg normal]
      exact Nat.le_add_right _ _

/-- A value that is the magnitude of a code rounds to that code. -/
theorem ofRatio_of_value (negative : Bool) (code : Fin codes) {num den : Nat} (hden : 0 < den)
    (same : num * denominator code = numerator code * den) :
    ofRatio negative num den = .finite negative code := by
  have denominatorPos : 0 < denominator code := Nat.two_pow_pos _
  rw [ofRatio_of_sameValue negative hden denominatorPos same]
  by_cases zero : code.val = 0
  · have zeroNumerator : numerator code = 0 := by
      rw [numerator, significand, zero, if_pos (by decide), Nat.zero_mul]
    have same : code = zeroCode := Fin.ext zero
    rw [ofRatio, if_pos zeroNumerator, same]
  have positive : 0 < code.val := Nat.pos_of_ne_zero zero
  have significandPos : 0 < significand code := by
    unfold significand binade
    split <;> omega
  have numeratorPos : 0 < numerator code := Nat.mul_pos significandPos (Nat.two_pow_pos _)
  have scale : scaleOf (numerator code) (denominator code) = exponent code :=
    (scaleOf_fits _ _ numeratorPos denominatorPos).unique (exponent_fits code positive)
  have point : gridPoint (numerator code) (denominator code) (exponent code) =
      significand code := by
    have whole : numerator code * Nat.pow 2 (1074 - exponent code) =
        significand code * (denominator code * Nat.pow 2 (exponent code - 1074)) := by
      simp only [numerator, denominator]
      ring
    rw [gridPoint, whole]
    exact divideToEven_whole _ _ (Nat.mul_pos denominatorPos (Nat.two_pow_pos _))
  have restored : exponent code * binade + significand code = code.val := by
    unfold exponent significand
    split
    · rename_i small
      simp [Nat.div_eq_of_lt small]
    · rename_i large
      have quotient : 1 ≤ code.val / binade := Nat.div_pos (Nat.le_of_not_lt large) (by decide)
      have division := Nat.div_add_mod code.val binade
      simp only [binade] at *
      omega
  simp [ofRatio, numeratorPos.ne', scale, point, restored]

end Persona.Binary64
