import Persona.Number.Decimal

/-!
# Durations

A duration is a whole number of nanoseconds that fits into a signed word of
sixty-four bits. It is written with units, as in `1m30s`, and read the same way:
a sign, then one or more numerals, each with an optional fraction and a unit.

What would not fit is refused. The nanoseconds of a fraction are counted in binary64:
a unit is divided by the power of ten that the fraction is counted in, itself a
product rounded after every factor, and what is left of a nanosecond is dropped.
-/

namespace Persona

/-- A length of time. -/
structure Duration where
  nanoseconds : Int
deriving DecidableEq, Repr

namespace Duration

/-- No time at all. -/
def zero : Duration := ⟨0⟩

/-- The units and their nanoseconds; a microsecond has three spellings. -/
def units : List (Text × Nat) :=
  [("ns", 1), ("us", 1000), ("µs", 1000), ("μs", 1000), ("ms", 1000000), ("s", 1000000000),
   ("m", 60000000000), ("h", 3600000000000)]

/-- The number of nanoseconds from which on a magnitude does not fit. -/
def limit : Nat := 0x8000000000000000

/-- The leading digits of a fraction, as far as they fit into a word, with
their number. -/
def fractionDigits : (value count : Nat) → Text → Nat × Nat
  | value, count, [] => (value, count)
  | value, count, b :: rest =>
    let next := value * 10 + (b.toNat - 48)
    if (limit - 1) / 10 < value || limit < next then (value, count)
    else fractionDigits next (count + 1) rest

/-- A power of ten, rounded after every factor. -/
def powerOfTen : (factors : Nat) → Binary64
  | 0 => .ofRatio false 1 1
  | factors + 1 => .mul (powerOfTen factors) (.ofRatio false 10 1)

/-- The nanoseconds of a fraction of a unit. -/
def fractionOf (digits : Text) (unit : Nat) : Nat :=
  let (value, count) := fractionDigits 0 0 digits
  let part := Binary64.mul (.ofRatio false value 1)
    (.div (.ofRatio false unit 1) (powerOfTen count))
  part.truncated.toNat

/-- A numeral with its unit, in nanoseconds, and the text after it. -/
def readPart? (text : Text) : Option (Nat × Text) :=
  let whole := text.takeWhile Text.isDigitByte
  let afterWhole := text.dropWhile Text.isDigitByte
  let (fraction, afterNumeral) : Text × Text := match afterWhole with
    | 46 :: rest => (rest.takeWhile Text.isDigitByte, rest.dropWhile Text.isDigitByte)
    | rest => ([], rest)
  let isUnitByte (b : UInt8) : Bool := !(b = 46 || Text.isDigitByte b)
  if whole.isEmpty && fraction.isEmpty then none
  else if limit < Text.digitsValue whole then none
  else match units.lookup (afterNumeral.takeWhile isUnitByte) with
    | none => none
    | some unit =>
      let total := Text.digitsValue whole * unit + fractionOf fraction unit
      if limit / unit < Text.digitsValue whole || limit < total then none
      else some (total, afterNumeral.dropWhile isUnitByte)

/-- The nanoseconds of a sequence of parts. Every part takes at least one byte, so as many
rounds as there are bytes suffice. -/
def readParts? : (fuel : Nat) → Text → Option Nat
  | _, [] => some 0
  | 0, _ :: _ => none
  | fuel + 1, text =>
    match readPart? text with
    | none => none
    | some (first, rest) =>
      match readParts? fuel rest with
      | none => none
      | some others => if limit < first + others then none else some (first + others)

/-- The duration a text writes. A bare zero needs no unit. -/
def read? (text : Text) : Option Duration :=
  let (negative, magnitude) : Bool × Text := match text with
    | 45 :: rest => (true, rest)
    | 43 :: rest => (false, rest)
    | rest => (false, rest)
  if magnitude.isEmpty then none
  else if magnitude = "0" then some zero
  else match readParts? magnitude.length magnitude with
    | none => none
    | some n =>
      if negative then some ⟨-(n : Int)⟩
      else if limit ≤ n then none
      else some ⟨n⟩

/-- The digits of a fraction without the zeros at their end, behind a point; nothing if
there is no digit left. -/
def fractionText (places value : Nat) : Text :=
  let digits := Text.ofNat value
  let padded := List.replicate (places - digits.length) 48 ++ digits
  let kept := (padded.reverse.dropWhile (· = 48)).reverse
  if kept.isEmpty then [] else "." ++ kept

/-- A number of units of `10 ^ places` nanoseconds. -/
def inUnit (places nanoseconds : Nat) : Text :=
  Text.ofNat (nanoseconds / Nat.pow 10 places) ++
    fractionText places (nanoseconds % Nat.pow 10 places)

/-- A magnitude as text. Below a second the largest unit that fits is used; from a second
on, hours and minutes are written once they are needed. -/
def magnitudeText (n : Nat) : Text :=
  if n = 0 then "0s"
  else if n < 1000 then Text.ofNat n ++ "ns"
  else if n < 1000000 then inUnit 3 n ++ "µs"
  else if n < 1000000000 then inUnit 6 n ++ "ms"
  else
    let minutes := n / 60000000000
    let seconds := inUnit 9 (n % 60000000000) ++ "s"
    if minutes = 0 then seconds
    else if minutes < 60 then Text.ofNat minutes ++ "m" ++ seconds
    else Text.ofNat (minutes / 60) ++ "h" ++ Text.ofNat (minutes % 60) ++ "m" ++ seconds

/-- A duration as text. -/
def text (d : Duration) : Text :=
  (if d.nanoseconds < 0 then [45] else []) ++ magnitudeText d.nanoseconds.natAbs

end Duration

end Persona
