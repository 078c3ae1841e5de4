import Persona.Number.Binary64
import Persona.Text

/-!
# Decimal numerals

A decimal is a natural number of tenths, hundreds or any other power of ten.
Reading a numeral gives the binary64 number nearest to it, a half going to the
even neighbour; writing one chooses the fewest digits that read back as the same
number and, among those, the nearest. How the chosen digits are laid out is left
to `Persona.Number.Layout`.
-/

namespace Persona

/-- The magnitude `digits · 10 ^ exponent`. -/
structure Decimal where
  digits : Nat
  exponent : Int
deriving DecidableEq, Repr

namespace Decimal

/-- The number of digits of the numeral of `n`. -/
def length (n : Nat) : Nat := (Nat.toDigits 10 n).length

/-- The nearest binary64 number. The first two cases only avoid building numbers that
are far outside the range: beyond 400 places every magnitude is infinite or zero. -/
def toBinary64 (negative : Bool) (d : Decimal) : Binary64 :=
  if d.digits = 0 then .finite negative Binary64.zeroCode
  else if 400 < length d.digits + d.exponent then .infinity negative
  else if length d.digits + d.exponent < -400 then .finite negative Binary64.zeroCode
  else Binary64.ofRatio negative (d.digits * Nat.pow 10 d.exponent.toNat)
    (Nat.pow 10 (-d.exponent).toNat)

/-- A numeral without sign and exponent: digits, and perhaps a point and more digits.
The text after the numeral is returned with it. -/
def readPlain (text : Text) : Decimal × Text :=
  let whole := text.takeWhile Text.isDigitByte
  match text.dropWhile Text.isDigitByte with
  | 46 :: rest =>
    let fraction := rest.takeWhile Text.isDigitByte
    (⟨Text.digitsValue (whole ++ fraction), -(fraction.length : Int)⟩,
      rest.dropWhile Text.isDigitByte)
  | rest => (⟨Text.digitsValue whole, 0⟩, rest)

/-- The exponent part of a numeral, if the text is nothing or one. -/
def readExponent? : Text → Option Int
  | [] => some 0
  | e :: rest =>
    if e = 101 || e = 69 then
      let (negative, digits) : Bool × Text := match rest with
        | 45 :: digits => (true, digits)
        | 43 :: digits => (false, digits)
        | digits => (false, digits)
      if digits.isEmpty || !digits.all Text.isDigitByte then none
      else
        let value : Int := Text.digitsValue digits
        some (if negative then -value else value)
    else none

/-- The magnitude below which one more decimal place is needed: `10 ^ place` is the
largest power of ten that is not above the quotient. -/
def place (num den : Nat) : Int :=
  if den ≤ num then length (num / den) - 1
  else
    let inverse := length (den / num) - 1
    if den ≤ num * Nat.pow 10 inverse then -(inverse : Int) else -(inverse + 1 : Int)

/-- The largest multiple of `10 ^ exponent` that is not above the quotient, in units of
`10 ^ exponent`, and twice the remainder compared with the unit. -/
def floorAt (num den : Nat) (exponent : Int) : Nat × Ordering :=
  let scaledNum := num * Nat.pow 10 (-exponent).toNat
  let scaledDen := den * Nat.pow 10 exponent.toNat
  (scaledNum / scaledDen, compare (2 * (scaledNum % scaledDen)) scaledDen)

/-- The decimal with `count` digits that reads back as the positive number with this
code: of the two neighbours the nearer, and of two equally near the even one. -/
def ofCode? (code : Fin Binary64.codes) (count : Nat) : Option Decimal :=
  let num := Binary64.numerator code
  let den := Binary64.denominator code
  let exponent := place num den + 1 - count
  let (floor, side) := floorAt num den exponent
  let readsBack (digits : Nat) : Bool :=
    toBinary64 false ⟨digits, exponent⟩ = .finite false code
  let (first, second) : Nat × Nat :=
    match side with
    | .lt => (floor, floor + 1)
    | .gt => (floor + 1, floor)
    | .eq => if floor % 2 = 0 then (floor, floor + 1) else (floor + 1, floor)
  if readsBack first then some ⟨first, exponent⟩
  else if readsBack second then some ⟨second, exponent⟩
  else none

/-- All the digits of a magnitude, which is a finite decimal because its denominator is a
power of two. -/
def exact (code : Nat) : Decimal :=
  let down := 1074 - Binary64.exponent code
  ⟨Binary64.numerator code * Nat.pow 5 down, -(down : Int)⟩

/-- Zeros at the end of the digits moved into the exponent. -/
def stripZeros : (fuel : Nat) → Decimal → Decimal
  | 0, d => d
  | fuel + 1, d =>
    if d.digits % 10 = 0 && d.digits != 0 then stripZeros fuel ⟨d.digits / 10,
      d.exponent + 1⟩ else d

/-- The shortest decimal that reads back as the magnitude with this code. Seventeen
digits always suffice; the exact expansion stands last so that the answer reads back
without appeal to that fact. -/
def shortest (code : Fin Binary64.codes) : Decimal :=
  if code.val = 0 then ⟨0, 0⟩
  else
    let d := ((List.range 17).findSome? fun n => ofCode? code (n + 1)).getD (exact code)
    stripZeros (length d.digits) d

end Decimal

namespace Binary64

/-- A numeral starts with a digit, or with a point and a digit. -/
def startsNumeral : Text → Bool
  | 46 :: b :: _ => Text.isDigitByte b
  | b :: _ => Text.isDigitByte b
  | [] => false

/-- The number written by a numeral with an optional sign, fraction and exponent, or one
of the words for NaN and the infinities. A numeral too large to be finite is refused. -/
def read? (text : Text) : Option Binary64 :=
  if text = "NaN" then some .nan
  else if text = "+Inf" then some (.infinity false)
  else if text = "-Inf" then some (.infinity true)
  else
    let (negative, magnitude) : Bool × Text := match text with
      | 45 :: rest => (true, rest)
      | 43 :: rest => (false, rest)
      | rest => (false, rest)
    let (plain, rest) := Decimal.readPlain magnitude
    if startsNumeral magnitude then
      match Decimal.readExponent? rest with
      | some exponent =>
        let x := Decimal.toBinary64 negative ⟨plain.digits, plain.exponent + exponent⟩
        if x.isFinite then some x else none
      | none => none
    else none

end Binary64

end Persona
