import Mathlib.Data.List.Basic
import Mathlib.Data.List.Chain
import Mathlib.Data.List.Induction
import Mathlib.Tactic.IntervalCases
import Persona.Number.Layout
import Persona.Proofs.Number.Rounding

/-!
# Numerals read back

A number that is written in any layout reads back as itself. The digits come from
`Decimal.shortest`, whose answer reads back by construction; what has to be shown is
that stripping zeros, placing the point and writing an exponent keep the value, and
that rounding sees nothing but the value.
-/

namespace Persona

namespace Text

/-- The byte of a decimal digit. -/
def digitByte (digit : Nat) : UInt8 := UInt8.ofNat digit.digitChar.toNat

/-- Digits below ten are written by consecutive bytes. -/
theorem digitByte_toNat {digit : Nat} (small : digit < 10) :
    (digitByte digit).toNat = 48 + digit := by
  have code := Nat.toNat_digitChar_of_lt_ten small
  simp only [digitByte, code, UInt8.toNat_ofNat']
  omega

/-- The byte of a digit is a digit. -/
theorem digitByte_isDigit {digit : Nat} (small : digit < 10) :
    isDigitByte (digitByte digit) = true := by
  have code := digitByte_toNat small
  simp [isDigitByte, UInt8.le_iff_toNat_le]
  omega

/-- A numeral is a single digit, or a shorter numeral and a digit. -/
theorem ofNat_eq (n : Nat) :
    ofNat n = if n < 10 then [digitByte n] else ofNat (n / 10) ++ [digitByte (n % 10)] := by
  rw [ofNat, Nat.toDigits_eq_if (by decide)]
  split <;> simp [ofNat, digitByte]

/-- Every byte of a numeral is a digit. -/
theorem ofNat_digits (n : Nat) : ∀ b ∈ ofNat n, isDigitByte b = true := by
  induction n using Nat.strongRecOn with
  | ind n inductionHypothesis =>
    intro b member
    rw [ofNat_eq] at member
    split at member
    · rename_i small
      rw [List.mem_singleton.mp member]
      exact digitByte_isDigit small
    · rcases List.mem_append.mp member with earlier | last
      · exact inductionHypothesis (n / 10) (by omega) b earlier
      · rw [List.mem_singleton.mp last]
        exact digitByte_isDigit (by omega)

/-- Digits end in front of what does not start with one. -/
theorem digits_append {digits rest : Text} (allDigits : ∀ b ∈ digits, isDigitByte b = true)
    (stops : ∀ b ∈ rest.head?, isDigitByte b = false) :
    (digits ++ rest).takeWhile isDigitByte = digits ∧
    (digits ++ rest).dropWhile isDigitByte = rest := by
  rw [List.takeWhile_append_of_pos allDigits, List.dropWhile_append_of_pos allDigits]
  cases rest with
  | nil => simp
  | cons b rest => simp [stops b rfl]

/-- A numeral has a digit. -/
theorem ofNat_ne_nil (n : Nat) : ofNat n ≠ [] := by
  rw [ofNat_eq]
  split <;> simp

/-- Only the numeral of zero starts with a zero. -/
theorem ofNat_head {n : Nat} (positive : n ≠ 0) : (ofNat n).head? ≠ some 48 := by
  induction n using Nat.strongRecOn with
  | ind n inductionHypothesis =>
    rw [ofNat_eq]
    split
    · rename_i small
      intro zero
      have code := digitByte_toNat small
      rw [Option.some.inj zero] at code
      exact positive (by simpa using code)
    · rename_i large
      have shorter := inductionHypothesis (n / 10) (by omega) (by omega)
      rwa [List.head?_append_of_ne_nil _ (ofNat_ne_nil _)]

/-- The length of a numeral is the number of its digits. -/
theorem length_ofNat (n : Nat) : (ofNat n).length = Decimal.length n := by
  simp [ofNat, Decimal.length]

/-- The value of digits after others. -/
theorem digitsValue_append (high low : Text) :
    digitsValue (high ++ low) = digitsValue high * 10 ^ low.length + digitsValue low := by
  induction low using List.reverseRecOn with
  | nil => simp [digitsValue]
  | append_singleton low b inductionHypothesis =>
    have last (digits : Text) : digitsValue (digits ++ [b]) =
        digitsValue digits * 10 + (b.toNat - 48) := by
      simp [digitsValue]
    rw [← List.append_assoc, last, last, inductionHypothesis, List.length_append,
      List.length_singleton, pow_succ]
    ring

/-- A numeral has the value it was written for. -/
theorem digitsValue_ofNat (n : Nat) : digitsValue (ofNat n) = n := by
  induction n using Nat.strongRecOn with
  | ind n inductionHypothesis =>
    rw [ofNat_eq]
    split
    · rename_i small
      simp [digitsValue, digitByte_toNat small]
    · rename_i large
      have single : digitsValue [digitByte (n % 10)] = n % 10 := by
        simp [digitsValue, digitByte_toNat (Nat.mod_lt n (by decide : 0 < 10))]
      rw [digitsValue_append, inductionHypothesis (n / 10) (by omega), single]
      simp
      omega

/-- Zeros are digits without a value. -/
theorem digitsValue_zeros (count : Nat) : digitsValue (Layout.zeros count) = 0 := by
  induction count with
  | zero => rfl
  | succ count inductionHypothesis =>
    have last : Layout.zeros (count + 1) = Layout.zeros count ++ [48] := List.replicate_succ'
    rw [last, digitsValue_append, inductionHypothesis]
    rfl

end Text

namespace Decimal

/-- The number of digits of a positive number, compared through powers of ten. -/
theorem length_le_iff {n k : Nat} (positive : 0 < k) : length n ≤ k ↔ n < 10 ^ k :=
  Nat.length_toDigits_le_iff (by decide) positive

/-- Zeros at the end lengthen a numeral by their number. -/
theorem length_mul_pow {n : Nat} (k : Nat) (positive : 0 < n) :
    length (n * 10 ^ k) = length n + k := by
  have lengthPos : 0 < length n := Nat.length_toDigits_pos
  have upper : n < 10 ^ length n := (length_le_iff lengthPos).mp le_rfl
  apply Nat.le_antisymm
  · rw [length_le_iff (by omega), pow_add]
    exact Nat.mul_lt_mul_of_pos_right upper (Nat.pow_pos (by decide))
  · by_contra shorter
    by_cases single : length n + k = 1
    · have : 0 < length (n * 10 ^ k) := Nat.length_toDigits_pos
      omega
    have bound : n * 10 ^ k < 10 ^ (length n + k - 1) :=
      (length_le_iff (by omega)).mp (by omega)
    by_cases oneDigit : length n = 1
    · have powers : 10 ^ (length n + k - 1) ≤ n * 10 ^ k := by
        rw [oneDigit, Nat.add_sub_cancel_left]
        exact Nat.le_mul_of_pos_left _ positive
      omega
    · have lower : ¬ n < 10 ^ (length n - 1) := by
        rw [← length_le_iff (by omega)]
        omega
      have exponent : length n + k - 1 = length n - 1 + k := by omega
      rw [exponent, pow_add] at bound
      exact lower (Nat.lt_of_mul_lt_mul_right bound)

/-- A power of ten may be moved from the digits into the exponent without changing the
number that is nearest. -/
theorem toBinary64_shift (negative : Bool) (digits k : Nat) (exponent : Int) :
    toBinary64 negative ⟨digits * 10 ^ k, exponent⟩ =
      toBinary64 negative ⟨digits, exponent + k⟩ := by
  by_cases zero : digits = 0
  · simp [toBinary64, zero]
  have positive : 0 < digits := Nat.pos_of_ne_zero zero
  have shiftedPos : digits * 10 ^ k ≠ 0 := (Nat.mul_pos positive (Nat.pow_pos (by decide))).ne'
  have place : (length (digits * 10 ^ k) : Int) + exponent =
      length digits + (exponent + k) := by
    rw [length_mul_pow k positive]
    push_cast
    ring
  have rounded : Binary64.ofRatio negative (digits * 10 ^ k * Nat.pow 10 exponent.toNat)
      (Nat.pow 10 (-exponent).toNat) =
      Binary64.ofRatio negative (digits * Nat.pow 10 (exponent + k).toNat)
        (Nat.pow 10 (-(exponent + k)).toNat) := by
    apply Binary64.ofRatio_of_sameValue
    · exact Nat.pow_pos (by decide)
    · exact Nat.pow_pos (by decide)
    · simp only [Nat.pow_eq, mul_assoc, ← pow_add]
      congr 2
      omega
  simp only [toBinary64, shiftedPos, zero, place, rounded]

/-- Moving zeros at the end into the exponent keeps the number that is nearest. -/
theorem toBinary64_stripZeros (negative : Bool) (fuel : Nat) (d : Decimal) :
    toBinary64 negative (stripZeros fuel d) = toBinary64 negative d := by
  induction fuel generalizing d with
  | zero => rfl
  | succ fuel inductionHypothesis =>
    unfold stripZeros
    split
    · rename_i trailing
      have zero : d.digits % 10 = 0 := by simp at trailing; omega
      have whole : d.digits / 10 * 10 ^ 1 = d.digits := by omega
      rw [inductionHypothesis]
      have shifted := toBinary64_shift negative (d.digits / 10) 1 d.exponent
      rw [whole] at shifted
      exact shifted.symm
    · rfl

/-- The sign takes no part in choosing the magnitude of a quotient. -/
theorem ofRatio_sign {num den : Nat} {code : Fin Binary64.codes} (negative : Bool)
    (unsigned : Binary64.ofRatio false num den = .finite false code) :
    Binary64.ofRatio negative num den = .finite negative code := by
  unfold Binary64.ofRatio at *
  split at unsigned
  · rename_i zero
    rw [if_pos zero, (Binary64.finite.inj unsigned).2]
  · rename_i nonzero
    dsimp only at *
    split at unsigned
    · rename_i inRange
      have same := (Binary64.finite.inj unsigned).2
      rw [if_neg nonzero, dif_pos inRange, same]
    · cases unsigned

/-- Nor does it take part in choosing the magnitude of a decimal. -/
theorem toBinary64_sign {d : Decimal} {code : Fin Binary64.codes} (negative : Bool)
    (unsigned : toBinary64 false d = .finite false code) :
    toBinary64 negative d = .finite negative code := by
  unfold toBinary64 at *
  split at unsigned
  · rename_i zero
    rw [if_pos zero, (Binary64.finite.inj unsigned).2]
  rename_i nonzero
  rw [if_neg nonzero]
  split at unsigned
  · cases unsigned
  rename_i notLarge
  rw [if_neg notLarge]
  split at unsigned
  · rename_i small
    rw [if_pos small, (Binary64.finite.inj unsigned).2]
  · rename_i notSmall
    rw [if_neg notSmall]
    exact ofRatio_sign negative unsigned

/-- Whatever number of digits is tried, the answer reads back: the test is part of
the search. -/
theorem toBinary64_ofCode? {code : Fin Binary64.codes} {count : Nat} {d : Decimal}
    (found : ofCode? code count = some d) : toBinary64 false d = .finite false code := by
  have tested (candidates : Nat × Nat) (exponent : Int)
      (found : (if toBinary64 false ⟨candidates.1, exponent⟩ = .finite false code then
          some ⟨candidates.1, exponent⟩
        else if toBinary64 false ⟨candidates.2, exponent⟩ = .finite false code then
          some ⟨candidates.2, exponent⟩
        else none) = some d) : toBinary64 false d = .finite false code := by
    split at found
    · rename_i readsBack
      exact Option.some.inj found ▸ readsBack
    split at found
    · rename_i readsBack
      exact Option.some.inj found ▸ readsBack
    · contradiction
  simp only [ofCode?, decide_eq_true_eq] at found
  exact tested _ _ found

/-- Eight is below ten, so a third as many tens as there are doublings outweigh them. -/
theorem two_pow_le_ten_pow (thirds : Nat) : 2 ^ (3 * thirds) ≤ 10 ^ thirds := by
  rw [pow_mul]
  exact Nat.pow_le_pow_left (by decide) thirds

/-- The magnitudes of a personality lie far inside the range of four hundred places. -/
theorem numerator_lt (code : Fin Binary64.codes) : Binary64.numerator code < 10 ^ 400 := by
  have significand : Binary64.significand code < 2 ^ 53 := by
    unfold Binary64.significand Binary64.binade
    split <;> omega
  have exponent : Binary64.exponent code - 1074 ≤ 971 := by
    have bound := code.isLt
    unfold Binary64.exponent Binary64.binade
    unfold Binary64.codes at bound
    omega
  calc Binary64.numerator code
      < 2 ^ 53 * 2 ^ (Binary64.exponent code - 1074) :=
        Nat.mul_lt_mul_of_pos_right significand (Nat.two_pow_pos _)
    _ = 2 ^ (53 + (Binary64.exponent code - 1074)) := (pow_add ..).symm
    _ ≤ 2 ^ (3 * 342) := pow_le_pow_right₀ one_le_two (by omega)
    _ ≤ 10 ^ 342 := two_pow_le_ten_pow 342
    _ ≤ 10 ^ 400 := pow_le_pow_right₀ (by decide) (by decide)

/-- The exact expansion of a magnitude reads back. -/
theorem toBinary64_exact (code : Fin Binary64.codes) (positive : 0 < code.val) :
    toBinary64 false (exact code) = .finite false code := by
  have significandPos : 0 < Binary64.significand code := by
    unfold Binary64.significand Binary64.binade
    split <;> omega
  have numeratorPos : 0 < Binary64.numerator code :=
    Nat.mul_pos significandPos (Nat.two_pow_pos _)
  unfold exact toBinary64
  dsimp only
  generalize placesDown : 1074 - Binary64.exponent code = down
  have downBound : down ≤ 1074 := by omega
  have digitsPos : 0 < Binary64.numerator code * Nat.pow 5 down :=
    Nat.mul_pos numeratorPos (Nat.pow_pos (by decide))
  have tens : Nat.pow 5 down * 2 ^ down = 10 ^ down := (mul_pow 5 2 down).symm
  have notLarge : length (Binary64.numerator code * Nat.pow 5 down) ≤ 400 + down := by
    rw [length_le_iff (by omega), pow_add]
    apply Nat.mul_lt_mul_of_lt_of_le (numerator_lt code) (Nat.pow_le_pow_left (by decide) down)
    exact Nat.pow_pos (by decide)
  have notSmall : down ≤ length (Binary64.numerator code * Nat.pow 5 down) + 400 := by
    by_contra small
    have lengthPos : 0 < length (Binary64.numerator code * Nat.pow 5 down) :=
      Nat.length_toDigits_pos
    have short : Binary64.numerator code * Nat.pow 5 down < 10 ^ (down - 401) :=
      (length_le_iff (by omega)).mp (by omega)
    have halves : 2 ^ down ≤ 10 ^ 401 := by
      calc 2 ^ down ≤ 2 ^ (3 * 358) := pow_le_pow_right₀ one_le_two downBound
        _ ≤ 10 ^ 358 := two_pow_le_ten_pow 358
        _ ≤ 10 ^ 401 := pow_le_pow_right₀ (by decide) (by decide)
    have impossible : 10 ^ down < 10 ^ down := by
      calc 10 ^ down = Nat.pow 5 down * 2 ^ down := tens.symm
        _ ≤ Binary64.numerator code * Nat.pow 5 down * 2 ^ down :=
          Nat.mul_le_mul_right _ (Nat.le_mul_of_pos_left _ numeratorPos)
        _ < 10 ^ (down - 401) * 2 ^ down :=
          Nat.mul_lt_mul_of_pos_right short (Nat.two_pow_pos _)
        _ ≤ 10 ^ (down - 401) * 10 ^ 401 := Nat.mul_le_mul_left _ halves
        _ = 10 ^ (down - 401 + 401) := (pow_add 10 (down - 401) 401).symm
        _ = 10 ^ down := by rw [Nat.sub_add_cancel (by omega)]
    exact Nat.lt_irrefl _ impossible
  rw [if_neg digitsPos.ne', if_neg (by omega), if_neg (by omega)]
  apply Binary64.ofRatio_of_value
  · exact Nat.pow_pos (by decide)
  · have denominator : Binary64.denominator code = 2 ^ down := by
      rw [Binary64.denominator, placesDown, Nat.pow_eq]
    have exponents : (-(down : Int)).toNat = 0 ∧ (-(-(down : Int))).toNat = down := by omega
    rw [denominator, exponents.1, exponents.2]
    change Binary64.numerator code * Nat.pow 5 down * 1 * 2 ^ down =
      Binary64.numerator code * 10 ^ down
    rw [Nat.mul_one, Nat.mul_assoc, tens]

/-- The shortest digits of a magnitude read back, with either sign. -/
theorem toBinary64_shortest (negative : Bool) (code : Fin Binary64.codes) :
    toBinary64 negative (shortest code) = .finite negative code := by
  apply toBinary64_sign
  unfold shortest
  split
  · rename_i zero
    have same : code = Binary64.zeroCode := Fin.ext zero
    simp [toBinary64, same]
  · rename_i nonzero
    rw [toBinary64_stripZeros]
    cases searched : (List.range 17).findSome? fun n => ofCode? code (n + 1) with
    | none => exact toBinary64_exact code (Nat.pos_of_ne_zero nonzero)
    | some d =>
      obtain ⟨n, _, found⟩ := List.exists_of_findSome?_eq_some searched
      exact toBinary64_ofCode? found

/-- Only zero is written by the digit zero. -/
theorem shortest_digits_eq_zero_iff (code : Fin Binary64.codes) :
    (shortest code).digits = 0 ↔ code.val = 0 := by
  constructor
  · intro zero
    have readsBack := toBinary64_shortest false code
    rw [toBinary64, if_pos zero] at readsBack
    cases readsBack
    rfl
  · intro zero
    simp [shortest, zero]

end Decimal

namespace Layout

/-- A numeral without sign and exponent: digits and, when there is a fraction, a point and
the digits of the fraction. -/
def plainNumeral (whole fraction : Text) : Text :=
  whole ++ if fraction = [] then [] else 46 :: fraction

/-- The parts of a number literal. The integer part has no superfluous zero, and an
exponent has a letter, a sign and digits. -/
structure IsNumeral (whole fraction exponent : Text) : Prop where
  someDigit : whole ≠ []
  wholeDigits : ∀ b ∈ whole, Text.isDigitByte b = true
  noLeadingZero : whole = [48] ∨ whole.head? ≠ some 48
  fractionDigits : ∀ b ∈ fraction, Text.isDigitByte b = true
  exponentForm : exponent = [] ∨ ∃ sign digits, exponent = 101 :: sign :: digits ∧
    (sign = 43 ∨ sign = 45) ∧ digits ≠ [] ∧ ∀ b ∈ digits, Text.isDigitByte b = true

/-- What follows the fraction does not continue it. -/
theorem IsNumeral.stops {whole fraction exponent : Text}
    (numeral : IsNumeral whole fraction exponent) :
    ∀ b ∈ exponent.head?, Text.isDigitByte b = false ∧ b ≠ 46 := by
  rcases numeral.exponentForm with rfl | ⟨sign, digits, rfl, -, -, -⟩
  · simp
  · rintro b ⟨rfl⟩
    decide

/-- The numeral of a natural number is a number literal. -/
theorem isNumeral_ofNat (n : Nat) : IsNumeral (Text.ofNat n) [] [] where
  someDigit := Text.ofNat_ne_nil n
  wholeDigits := Text.ofNat_digits n
  noLeadingZero := by
    by_cases zero : n = 0
    · exact .inl (by rw [zero]; rfl)
    · exact .inr (Text.ofNat_head zero)
  fractionDigits := by simp
  exponentForm := .inl rfl

/-- A plain numeral is split at its point, and what follows it is returned. -/
theorem readPlain_plainNumeral {whole fraction rest : Text}
    (wholeDigits : ∀ b ∈ whole, Text.isDigitByte b = true)
    (fractionDigits : ∀ b ∈ fraction, Text.isDigitByte b = true)
    (stops : ∀ b ∈ rest.head?, Text.isDigitByte b = false ∧ b ≠ 46) :
    Decimal.readPlain (plainNumeral whole fraction ++ rest) =
      (⟨Text.digitsValue (whole ++ fraction), -(fraction.length : Int)⟩, rest) := by
  have noDigit : ∀ b ∈ rest.head?, Text.isDigitByte b = false :=
    fun b first => (stops b first).1
  unfold plainNumeral
  split
  · rename_i none
    subst none
    obtain ⟨taken, left⟩ := Text.digits_append wholeDigits noDigit
    simp only [Decimal.readPlain, List.append_nil, taken, left]
    split
    · rename_i after
      exact absurd rfl (stops 46 rfl).2
    · simp
  · have point : ∀ b ∈ (46 :: (fraction ++ rest)).head?, Text.isDigitByte b = false := by
      rintro _ ⟨rfl⟩; decide
    obtain ⟨taken, left⟩ := Text.digits_append wholeDigits point
    obtain ⟨fractionTaken, fractionLeft⟩ := Text.digits_append fractionDigits noDigit
    rw [List.append_assoc, List.cons_append]
    simp only [Decimal.readPlain, taken, left, fractionTaken, fractionLeft]

/-- Zeros are digits. -/
theorem zeros_digits (count : Nat) : ∀ b ∈ zeros count, Text.isDigitByte b = true := by
  intro b member
  rw [List.eq_of_mem_replicate member]
  decide

section Positional

variable {d : Decimal}

/-- All digits stand behind the point, with zeros in front of them. -/
theorem zeros_ofNat_plain (count : Nat)
    (exponent : d.exponent = -(count + (Text.ofNat d.digits).length : Nat)) :
    IsNumeral [48] (zeros count ++ Text.ofNat d.digits) [] ∧
    ∀ negative, Decimal.toBinary64 negative
      ⟨Text.digitsValue ([48] ++ (zeros count ++ Text.ofNat d.digits)),
        -((zeros count ++ Text.ofNat d.digits).length : Int)⟩ =
        Decimal.toBinary64 negative d := by
  refine ⟨⟨by simp, by decide +kernel, .inl rfl, ?_, .inl rfl⟩, fun negative => ?_⟩
  · exact List.forall_mem_append.mpr ⟨zeros_digits count, Text.ofNat_digits d.digits⟩
  have sameValue : Text.digitsValue ([48] ++ (zeros count ++ Text.ofNat d.digits)) =
      d.digits := by
    rw [Text.digitsValue_append, Text.digitsValue_append, Text.digitsValue_zeros,
      Text.digitsValue_ofNat]
    simp [Text.digitsValue]
  have sameExponent : -((zeros count ++ Text.ofNat d.digits).length : Int) = d.exponent := by
    rw [List.length_append, zeros, List.length_replicate, exponent]
  rw [sameValue, sameExponent]

/-- All digits stand in front of the point, with zeros behind them. -/
theorem ofNat_zeros_plain (nonzero : d.digits ≠ 0) (count : Nat)
    (exponent : d.exponent = count) :
    IsNumeral (Text.ofNat d.digits ++ zeros count) [] [] ∧
    ∀ negative, Decimal.toBinary64 negative
      ⟨Text.digitsValue (Text.ofNat d.digits ++ zeros count ++ []),
      -(([] : Text).length : Int)⟩ =
        Decimal.toBinary64 negative d := by
  have someDigit := Text.ofNat_ne_nil d.digits
  refine ⟨⟨by simp [someDigit], ?_, .inr ?_, by simp, .inl rfl⟩, fun negative => ?_⟩
  · exact List.forall_mem_append.mpr ⟨Text.ofNat_digits d.digits, zeros_digits count⟩
  · rw [List.head?_append_of_ne_nil _ someDigit]
    exact Text.ofNat_head nonzero
  have shifted := Decimal.toBinary64_shift negative d.digits count 0
  rw [Int.zero_add, ← exponent] at shifted
  rw [List.append_nil, Text.digitsValue_append, Text.digitsValue_ofNat,
    Text.digitsValue_zeros, Nat.add_zero]
  simpa [zeros] using shifted

/-- The point stands between two digits. -/
theorem ofNat_cut_plain (nonzero : d.digits ≠ 0) {point : Nat} (some : point ≠ 0)
    (exponent : d.exponent = -((Text.ofNat d.digits).length - point : Nat)) :
    IsNumeral ((Text.ofNat d.digits).take point) ((Text.ofNat d.digits).drop point) [] ∧
      ∀ negative, Decimal.toBinary64 negative
        ⟨Text.digitsValue ((Text.ofNat d.digits).take point ++
        (Text.ofNat d.digits).drop point),
          -(((Text.ofNat d.digits).drop point).length : Int)⟩ =
          Decimal.toBinary64 negative d := by
  refine ⟨⟨?_, ?_, .inr ?_, ?_, .inl rfl⟩, fun negative => ?_⟩
  · simp [Text.ofNat_ne_nil, some]
  · exact fun b member => Text.ofNat_digits d.digits b (List.mem_of_mem_take member)
  · rw [List.head?_take, if_neg some]
    exact Text.ofNat_head nonzero
  · exact fun b member => Text.ofNat_digits d.digits b (List.mem_of_mem_drop member)
  · rw [List.take_append_drop, Text.digitsValue_ofNat, List.length_drop, ← exponent]

/-- The digits of a decimal written out are a plain numeral with the value of
the decimal. -/
theorem positional_plain (nonzero : d.digits ≠ 0) :
    ∃ whole fraction, positional d = plainNumeral whole fraction ∧
      IsNumeral whole fraction [] ∧
      ∀ negative, Decimal.toBinary64 negative
        ⟨Text.digitsValue (whole ++ fraction), -(fraction.length : Int)⟩ =
          Decimal.toBinary64 negative d := by
  have someDigit := Text.ofNat_ne_nil d.digits
  unfold positional
  dsimp only
  split
  · refine ⟨_, _, ?_, zeros_ofNat_plain (-((Text.ofNat d.digits).length + d.exponent)).toNat
      (by omega)⟩
    simp [plainNumeral, someDigit, show Text.ofString "0." = [48, 46] from rfl]
  split
  · refine ⟨_, _, ?_, ofNat_zeros_plain nonzero
      (((Text.ofNat d.digits).length + d.exponent).toNat - (Text.ofNat d.digits).length)
        (by omega)⟩
    simp [plainNumeral]
  · refine ⟨_, _, ?_, ofNat_cut_plain nonzero
      (show ((Text.ofNat d.digits).length + d.exponent).toNat ≠ 0 by omega) (by omega)⟩
    have fractionSome : (Text.ofNat d.digits).drop ((Text.ofNat d.digits).length +
        d.exponent).toNat ≠ [] := by
      rw [ne_eq, List.drop_eq_nil_iff]
      omega
    simp [plainNumeral, fractionSome, show Text.ofString "." = [46] from rfl]

end Positional

/-- A padded numeral is made of digits, has one, and keeps its value. -/
theorem padded_digits (width n : Nat) :
    (∀ b ∈ padded width n, Text.isDigitByte b = true) ∧ padded width n ≠ [] ∧
      Text.digitsValue (padded width n) = n := by
  refine ⟨?_, ?_, ?_⟩
  · intro b member
    rcases List.mem_append.mp member with zero | digit
    · exact zeros_digits _ b zero
    · exact Text.ofNat_digits n b digit
  · simp [padded, Text.ofNat_ne_nil]
  · rw [padded, Text.digitsValue_append, Text.digitsValue_zeros, Text.digitsValue_ofNat]
    simp

/-- The exponent behind the letter is read back. -/
theorem readExponent?_written (width : Nat) (power : Int) :
    Decimal.readExponent? ("e" ++ (if power < 0 then Text.ofString "-" else "+") ++
      padded width power.natAbs) = some power := by
  obtain ⟨digits, someDigit, value⟩ := padded_digits width power.natAbs
  have allDigits : (padded width power.natAbs).all Text.isDigitByte = true :=
    List.all_eq_true.mpr digits
  have nonempty : (padded width power.natAbs).isEmpty = false := by simpa using someDigit
  split
  · rename_i negative
    have spelled : Text.ofString "e" ++ Text.ofString "-" ++ padded width power.natAbs =
        101 :: 45 :: padded width power.natAbs := rfl
    rw [spelled]
    simp [Decimal.readExponent?, allDigits, nonempty, value, abs_of_neg negative]
  · rename_i positive
    have spelled : Text.ofString "e" ++ Text.ofString "+" ++ padded width power.natAbs =
        101 :: 43 :: padded width power.natAbs := rfl
    rw [spelled]
    simp [Decimal.readExponent?, allDigits, nonempty, value,
      abs_of_nonneg (Int.not_lt.mp positive)]

/-- In scientific form the point stands behind the first digit. -/
theorem scientific_plain (width : Nat) (d : Decimal) (power : Int) :
    scientific width d power =
      plainNumeral ((Text.ofNat d.digits).take 1) ((Text.ofNat d.digits).drop 1) ++
        ("e" ++ (if power < 0 then Text.ofString "-" else "+") ++
        padded width power.natAbs) := by
  unfold scientific plainNumeral
  simp only [List.drop_eq_nil_iff, List.append_assoc]
  split <;> rfl

/-- A written magnitude is a plain numeral with an exponent behind it, which is empty in
documents, and together they read back as the magnitude. -/
theorem writeMagnitude_plain (l : Layout) (code : Fin Binary64.codes) :
    ∃ whole fraction exponent power,
      l.writeMagnitude code = plainNumeral whole fraction ++ exponent ∧
      IsNumeral whole fraction exponent ∧
      ((∀ power, l.usesExponent power = false) → exponent = []) ∧
      Decimal.readExponent? exponent = some power ∧
      ∀ negative, Decimal.toBinary64 negative
        ⟨Text.digitsValue (whole ++ fraction), -(fraction.length : Int) + power⟩ =
          .finite negative code := by
  unfold writeMagnitude
  dsimp only
  split
  · rename_i zero
    have same : code = Binary64.zeroCode :=
      Fin.ext ((Decimal.shortest_digits_eq_zero_iff code).mp zero)
    refine ⟨[48], [], [], 0, rfl, isNumeral_ofNat 0, fun _ => rfl, rfl, ?_⟩
    intro negative
    simp [same, Decimal.toBinary64, Text.digitsValue]
  rename_i nonzero
  split
  · rename_i usesExponent
    generalize firstPower : (Decimal.length (Decimal.shortest code).digits : Int) +
      (Decimal.shortest code).exponent - 1 = power at *
    refine ⟨_, _, _, power, scientific_plain _ _ _, ⟨?_, ?_, .inr ?_, ?_, .inr ?_⟩, ?_,
      readExponent?_written l.exponentDigits power, ?_⟩
    · simp [Text.ofNat_ne_nil]
    · exact fun b member => Text.ofNat_digits _ b (List.mem_of_mem_take member)
    · simpa [List.head?_take] using Text.ofNat_head nonzero
    · exact fun b member => Text.ofNat_digits _ b (List.mem_of_mem_drop member)
    · obtain ⟨digits, someDigit, -⟩ := padded_digits l.exponentDigits power.natAbs
      split
      · exact ⟨45, _, rfl, .inr rfl, someDigit, digits⟩
      · exact ⟨43, _, rfl, .inl rfl, someDigit, digits⟩
    · intro never
      simp [never power] at usesExponent
    · intro negative
      have positive : 0 < (Text.ofNat (Decimal.shortest code).digits).length :=
        List.length_pos_iff.mpr (Text.ofNat_ne_nil _)
      have sameExponent : -(((Text.ofNat (Decimal.shortest code).digits).drop 1).length :
          Int) + power =
          (Decimal.shortest code).exponent := by
        rw [List.length_drop]
        rw [← Text.length_ofNat] at firstPower
        omega
      rw [List.take_append_drop, Text.digitsValue_ofNat, sameExponent]
      exact Decimal.toBinary64_shortest negative code
  · obtain ⟨whole, fraction, spelled, numeral, value⟩ := positional_plain nonzero
    refine ⟨whole, fraction, [],
      0, by rw [spelled, List.append_nil], numeral, fun _ => rfl, rfl, ?_⟩
    intro negative
    rw [Int.add_zero, value]
    exact Decimal.toBinary64_shortest negative code

/-- The bytes that numbers are written with: digits, signs, the point and the letter of an
exponent, and the letters of the words for NaN and the infinities. -/
def numericBytes : Text := "0123456789+-.eNaInf"

/-- Numbers are written in ASCII. -/
theorem numericBytes_ascii : ∀ b ∈ numericBytes, b < 0x80 := by
  have checked : numericBytes.all (fun b => b < 0x80) = true := by decide
  simpa only [List.all_eq_true, decide_eq_true_eq] using checked

/-- Digits are among the bytes of numbers. -/
theorem digit_numeric {b : UInt8} (digit : Text.isDigitByte b = true) : b ∈ numericBytes := by
  simp only [Text.isDigitByte, Bool.and_eq_true, decide_eq_true_eq,
    UInt8.le_iff_toNat_le] at digit
  obtain ⟨low, high⟩ := digit
  rw [← UInt8.ofNat_toNat (x := b)]
  generalize b.toNat = code at low high
  have low : 48 ≤ code := low
  have high : code ≤ 57 := high
  interval_cases code <;> decide

/-- No two minus signs stand side by side. -/
def DashesApart (text : Text) : Prop := text.IsChain fun a b => a = 45 → b ≠ 45

/-- A text without a minus sign has none side by side. -/
theorem dashesApart_of_none {text : Text} (none : ∀ b ∈ text, b ≠ 45) : DashesApart text :=
  List.Pairwise.isChain (List.pairwise_of_forall_mem_list fun _ _ b member _ => none b member)

/-- Digits have no minus sign among them. -/
theorem digit_ne_dash {b : UInt8} (digit : Text.isDigitByte b = true) : b ≠ 45 := by
  rintro rfl
  cases digit

/-- A number literal is made of the bytes of numbers. Its one minus sign, if any, stands
in the exponent. -/
theorem IsNumeral.numeric {whole fraction exponent : Text}
    (numeral : IsNumeral whole fraction exponent) :
    (∀ b ∈ plainNumeral whole fraction ++ exponent, b ∈ numericBytes) ∧
      DashesApart (plainNumeral whole fraction ++ exponent) ∧
      ∀ b ∈ (plainNumeral whole fraction ++ exponent).head?, b ≠ 45 := by
  have plain : ∀ b ∈ plainNumeral whole fraction, Text.isDigitByte b = true ∨ b = 46 := by
    intro b member
    rcases List.mem_append.mp member with digit | later
    · exact .inl (numeral.wholeDigits b digit)
    split at later
    · cases later
    rcases List.mem_cons.mp later with rfl | digit
    · exact .inr rfl
    · exact .inl (numeral.fractionDigits b digit)
  have plainNumeric : ∀ b ∈ plainNumeral whole fraction, b ∈ numericBytes := by
    intro b member
    rcases plain b member with digit | rfl
    · exact digit_numeric digit
    · decide
  have noDash : ∀ b ∈ plainNumeral whole fraction, b ≠ 45 := by
    intro b member
    rcases plain b member with digit | rfl
    · exact digit_ne_dash digit
    · decide
  have first : ∀ b ∈ (plainNumeral whole fraction ++ exponent).head?, b ≠ 45 := by
    obtain ⟨b, others, rfl⟩ := List.exists_cons_of_ne_nil numeral.someDigit
    rintro _ ⟨rfl⟩
    exact digit_ne_dash (numeral.wholeDigits b List.mem_cons_self)
  rcases numeral.exponentForm with rfl | ⟨sign, digits, rfl, signs, -, allDigits⟩
  · rw [List.append_nil] at first ⊢
    exact ⟨plainNumeric, dashesApart_of_none noDash, first⟩
  have digitsApart : DashesApart digits := dashesApart_of_none fun b member =>
    digit_ne_dash (allDigits b member)
  refine ⟨?_, ?_, first⟩
  · refine List.forall_mem_append.mpr ⟨plainNumeric,
      List.forall_mem_cons.mpr ⟨by decide, List.forall_mem_cons.mpr ⟨?_, ?_⟩⟩⟩
    · rcases signs with rfl | rfl <;> decide
    · exact fun b member => digit_numeric (allDigits b member)
  · refine List.isChain_append.mpr ⟨dashesApart_of_none noDash, ?_, ?_⟩
    · refine List.isChain_cons.mpr
        ⟨by simp, List.isChain_cons.mpr ⟨fun b next _ => ?_, digitsApart⟩⟩
      exact digit_ne_dash (allDigits b (List.mem_of_mem_head? next))
    · rintro a - b ⟨rfl⟩ -
      decide

/-- Every number is written with the bytes of numbers, and with no two minus signs
side by side. -/
theorem write_numeric (l : Layout) (x : Binary64) :
    (∀ b ∈ l.write x, b ∈ numericBytes) ∧ DashesApart (l.write x) := by
  have word (text : Text) (checked : text.all (fun b => numericBytes.contains b) = true)
      (apart : text.tail.all (· ≠ 45) = true) : (∀ b ∈ text, b ∈ numericBytes) ∧
        DashesApart text := by
    refine ⟨fun b member => by simpa using List.all_eq_true.mp checked b member, ?_⟩
    have others : ∀ b ∈ text.tail, b ≠ 45 :=
      fun b member => by simpa using List.all_eq_true.mp apart b member
    cases text with
    | nil => exact .nil
    | cons first rest =>
      exact List.isChain_cons.mpr ⟨fun b next _ => others b (List.mem_of_mem_head? next),
        dashesApart_of_none others⟩
  cases x with
  | nan => exact word "NaN" (by decide) (by decide)
  | infinity negative =>
    cases negative with
    | false => exact word "+Inf" (by decide) (by decide)
    | true => exact word "-Inf" (by decide) (by decide)
  | finite negative code =>
    obtain ⟨whole, fraction, exponent, -, spelled, numeral, -⟩ := writeMagnitude_plain l code
    have magnitude := numeral.numeric
    rw [← spelled] at magnitude
    cases negative with
    | false => exact ⟨magnitude.1, magnitude.2.1⟩
    | true =>
      exact ⟨List.forall_mem_cons.mpr ⟨by decide, magnitude.1⟩,
        List.isChain_cons.mpr ⟨fun b next _ => magnitude.2.2 b next, magnitude.2.1⟩⟩

/-- No number is written without a byte. -/
theorem write_ne_nil (l : Layout) (x : Binary64) : l.write x ≠ [] := by
  cases x with
  | nan => exact List.cons_ne_nil _ _
  | infinity negative => cases negative <;> exact List.cons_ne_nil _ _
  | finite negative code =>
    obtain ⟨whole, fraction, exponent, -, spelled, numeral, -⟩ := writeMagnitude_plain l code
    have digits : l.writeMagnitude code ≠ [] := by
      rw [spelled, plainNumeral]
      simp [numeral.someDigit]
    cases negative with
    | false => exact digits
    | true => exact List.cons_ne_nil _ _

/-- Every number is written in ASCII. -/
theorem write_ascii (l : Layout) (x : Binary64) : ∀ b ∈ l.write x, b < 0x80 :=
  fun b member => numericBytes_ascii b ((write_numeric l x).1 b member)

end Layout

namespace Binary64

/-- A numeral with its sign is read through its parts. The words for NaN and
the infinities do not get in the way, because a numeral has a digit where they
have letters. -/
theorem read?_signed (negative : Bool) (whole fraction exponent : Text) (power : Int)
    (code : Fin codes) (numeral : Layout.IsNumeral whole fraction exponent)
    (exponentRead : Decimal.readExponent? exponent = some power)
    (value : Decimal.toBinary64 negative
      ⟨Text.digitsValue (whole ++ fraction), -(fraction.length : Int) + power⟩ =
    .finite negative code) :
    read? ((if negative then Text.ofString "-" else []) ++
      (Layout.plainNumeral whole fraction ++ exponent)) =
      some (.finite negative code) := by
  obtain ⟨first, others, rfl⟩ := List.exists_cons_of_ne_nil numeral.someDigit
  have firstDigit : Text.isDigitByte first = true :=
    numeral.wholeDigits first List.mem_cons_self
  have notDigit (b : UInt8) (other : Text.isDigitByte b = false) : first ≠ b := by
    rintro rfl
    rw [firstDigit] at other
    contradiction
  have starts : startsNumeral (Layout.plainNumeral (first :: others) fraction ++ exponent) =
      true := by
    have notPoint := notDigit 46 (by decide)
    unfold startsNumeral Layout.plainNumeral
    simp [firstDigit, notPoint]
  have plain := Layout.readPlain_plainNumeral numeral.wholeDigits numeral.fractionDigits
    numeral.stops
  obtain ⟨rest, begins⟩ :
      ∃ rest, Layout.plainNumeral (first :: others) fraction ++ exponent = first :: rest :=
    ⟨_, rfl⟩
  rw [begins] at starts plain ⊢
  rw [List.cons_append] at value
  cases negative with
  | false =>
    have notMinus := notDigit 45 (by decide)
    have notPlus := notDigit 43 (by decide)
    have notN := notDigit 78 (by decide)
    have words : first :: rest ≠ Text.ofString "NaN" ∧ first :: rest ≠ Text.ofString "+Inf" ∧
        first :: rest ≠ Text.ofString "-Inf" := by
      simp [Text.ofString, String.utf8EncodeChar, notMinus, notPlus, notN]
    simp only [Bool.false_eq_true, if_false, List.nil_append, read?, words]
    simp [notMinus, notPlus, plain, starts, exponentRead, value, isFinite]
  | true =>
    have notI := notDigit 73 (by decide)
    have spelled : Text.ofString "-" ++ first :: rest = 45 :: first :: rest := rfl
    have words : 45 :: first :: rest ≠ Text.ofString "NaN" ∧
        45 :: first :: rest ≠ Text.ofString "+Inf" ∧
        45 :: first :: rest ≠ Text.ofString "-Inf" := by
      simp [Text.ofString, String.utf8EncodeChar, notI]
    simp only [if_true, spelled, read?, words]
    simp [plain, starts, exponentRead, value, isFinite]

/-- A number written in any layout reads back as itself, signed zeros included. -/
theorem read?_write (l : Layout) (x : Binary64) (finite : x.isFinite = true) :
    read? (l.write x) = some x := by
  cases x with
  | nan => cases finite
  | infinity negative => cases finite
  | finite negative code =>
    obtain ⟨whole, fraction, exponent, power, spelled, numeral, -, exponentRead, value⟩ :=
      Layout.writeMagnitude_plain l code
    have reads := read?_signed negative whole fraction exponent power code numeral
      exponentRead (value negative)
    rw [← spelled] at reads
    cases negative with
    | false => exact reads
    | true => exact reads

/-- The numeral of an integer that is a number reads back as that number. -/
theorem read?_ofNat {n : Nat} {code : Fin codes}
    (whole : numerator code = n * denominator code) :
    read? (Text.ofNat n) = some (.finite false code) := by
  have small : n < 10 ^ 400 := by
    calc n ≤ n * denominator code := Nat.le_mul_of_pos_right n (Nat.two_pow_pos _)
      _ = numerator code := whole.symm
      _ < 10 ^ 400 := Decimal.numerator_lt code
  have rounded : Decimal.toBinary64 false ⟨n, 0⟩ = .finite false code := by
    by_cases zero : n = 0
    · have value : ofRatio false 0 1 = .finite false code :=
        ofRatio_of_value false code Nat.one_pos (by simp [whole, zero])
      simpa [Decimal.toBinary64, zero, ofRatio] using value
    · have length : Decimal.length n ≤ 400 := (Decimal.length_le_iff (by decide)).mpr small
      rw [Decimal.toBinary64, if_neg zero, if_neg (by simpa using length), if_neg (by simp)]
      apply ofRatio_of_value
      · exact Nat.pow_pos (by decide)
      · change n * 1 * denominator code = numerator code * 1
        rw [whole, Nat.mul_one, Nat.mul_one]
  have reads := read?_signed false (Text.ofNat n) [] [] 0 code (Layout.isNumeral_ofNat n) rfl
    (by simpa [Text.digitsValue_ofNat] using rounded)
  simpa [Layout.plainNumeral] using reads

end Binary64

end Persona
