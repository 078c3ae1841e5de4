import Persona.Number.Decimal

/-!
# Layouts of a number

The digits of a number are always the shortest ones; three places write them
differently. Documents have no exponents, so there a number is written out in
full. Messages and the structured target switch to an exponent outside a range
of magnitudes, and differ in that range and in how they pad the exponent.
-/

namespace Persona

/-- Where a layout switches to an exponent, and how many digits the exponent
has at least. -/
structure Layout where
  /-- Write an exponent when the power of ten of the first digit satisfies this. -/
  usesExponent : Int → Bool
  exponentDigits : Nat

namespace Layout

/-- Documents never use an exponent. -/
def plain : Layout := ⟨fun _ => false, 2⟩

/-- Messages use an exponent below `0.0001` and from a million on. -/
def message : Layout := ⟨fun power => power < -4 || 6 ≤ power, 2⟩

/-- The structured target uses an exponent below a millionth and from `10 ^ 21` on. -/
def structured : Layout := ⟨fun power => power < -6 || 21 ≤ power, 1⟩

/-- A row of zeros. -/
def zeros (count : Nat) : Text := List.replicate count 48

/-- A numeral filled up with zeros on the left. -/
def padded (width : Nat) (n : Nat) : Text :=
  let digits := Text.ofNat n
  zeros (width - digits.length) ++ digits

/-- The digits written out, with the point and the zeros they need. -/
def positional (d : Decimal) : Text :=
  let digits := Text.ofNat d.digits
  let point : Int := digits.length + d.exponent
  if point ≤ 0 then "0." ++ zeros (-point).toNat ++ digits
  else if digits.length ≤ point then digits ++ zeros (point.toNat - digits.length)
  else (digits.take point.toNat : Text) ++ "." ++ (digits.drop point.toNat : Text)

/-- One digit, a point, the other digits and the power of ten of the first. -/
def scientific (exponentDigits : Nat) (d : Decimal) (power : Int) : Text :=
  let digits := Text.ofNat d.digits
  let fraction : Text := if digits.length ≤ 1 then [] else "." ++ (digits.drop 1 : Text)
  let sign : Text := if power < 0 then "-" else "+"
  (digits.take 1 : Text) ++ fraction ++ "e" ++ sign ++ padded exponentDigits power.natAbs

/-- A magnitude in this layout. -/
def writeMagnitude (l : Layout) (code : Fin Binary64.codes) : Text :=
  let d := Decimal.shortest code
  if d.digits = 0 then "0"
  else
    let power : Int := Decimal.length d.digits + d.exponent - 1
    if l.usesExponent power then scientific l.exponentDigits d power else positional d

/-- A number in this layout. -/
def write (l : Layout) : Binary64 → Text
  | .nan => "NaN"
  | .infinity false => "+Inf"
  | .infinity true => "-Inf"
  | .finite false code => l.writeMagnitude code
  | .finite true code => "-" ++ l.writeMagnitude code

end Layout

/-- A number as documents write it: a literal of the grammar, after a minus sign if it
is negative. -/
def Binary64.text (x : Binary64) : Text := Layout.plain.write x

end Persona
