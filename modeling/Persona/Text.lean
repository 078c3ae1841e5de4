/-!
# Texts

A text is a sequence of bytes. Documents, names and outputs are texts and need
not be valid UTF-8: every operation of the library keeps bytes that it does not
understand, so nothing is lost between reading and writing.

This module holds the few operations that are not already those of lists:
constants, decimal numerals, joining and cutting. How bytes form characters is
the subject of `Persona.Text.Character`.
-/

namespace Persona

/-- A text is the list of its bytes. -/
abbrev Text := List UInt8

namespace Text

/-- The UTF-8 bytes of a constant. -/
def ofString (s : String) : Text :=
  s.toList.flatMap String.utf8EncodeChar

instance : Coe String Text := ⟨ofString⟩

/-- The decimal numeral of a natural number, without leading zeros. -/
def ofNat (n : Nat) : Text :=
  (Nat.toDigits 10 n).map fun c => UInt8.ofNat c.toNat

/-- The decimal numeral of an integer; a minus sign stands before a negative one. -/
def ofInt : Int → Text
  | .ofNat n => ofNat n
  | .negSucc n => "-" ++ ofNat (n + 1)

/-- The parts with the separator between neighbours. -/
def join (separator : Text) : List Text → Text
  | [] => []
  | [part] => part
  | part :: next :: parts => part ++ separator ++ join separator (next :: parts)

/-- Write `replacement` for every occurrence of one byte. -/
def replaceByte (text : Text) (byte : UInt8) (replacement : Text) : Text :=
  text.flatMap fun b => if b = byte then replacement else [b]

/-- Write `replacement` for every occurrence of two neighbouring bytes. -/
def replacePair (first second : UInt8) (replacement : Text) : Text → Text
  | a :: b :: rest =>
    if a = first ∧ b = second then replacement ++ replacePair first second replacement rest
    else a :: replacePair first second replacement (b :: rest)
  | rest => rest

/-- `count` copies of a text, one after the other. -/
def repeated (count : Nat) (text : Text) : Text :=
  (List.replicate count text).flatten

/-- What follows `start`, when the text starts with it. -/
def after? (start text : Text) : Option Text :=
  if start.isPrefixOf text then some (text.drop start.length) else none

/-- The text without `ending`, when it ends with it; otherwise the text itself. -/
def withoutEnding (ending text : Text) : Text :=
  if ending.isSuffixOf text then text.take (text.length - ending.length) else text

/-- Cut at every occurrence of one byte; there is one part more than there are cuts. -/
def splitAt (byte : UInt8) : Text → List Text
  | [] => [[]]
  | b :: rest =>
    if b = byte then [] :: splitAt byte rest
    else match splitAt byte rest with
      | [] => [[b]]
      | part :: parts => (b :: part) :: parts

/-- The bytes `0` to `9`. -/
def isDigitByte (b : UInt8) : Bool :=
  48 ≤ b && b ≤ 57

/-- The value of a digit sequence read in base ten; other bytes count as if they
were digits. -/
def digitsValue (digits : Text) : Nat :=
  digits.foldl (fun value b => value * 10 + (b.toNat - 48)) 0

/-- The integer a decimal numeral writes; a sign may stand before the digits. -/
def integer? (numeral : Text) : Option Int :=
  let (negative, digits) : Bool × Text := match numeral with
    | 45 :: rest => (true, rest)
    | 43 :: rest => (false, rest)
    | rest => (false, rest)
  if digits.isEmpty || !digits.all isDigitByte then none
  else
    let magnitude : Int := digitsValue digits
    some (if negative then -magnitude else magnitude)

/-- The text without the first occurrence of `part`. -/
def eraseFirst : (text part : Text) → Text
  | [], _ => []
  | b :: rest, part =>
    if part.isPrefixOf (b :: rest) then (b :: rest).drop part.length else b ::
      eraseFirst rest part

/-- The lowercase digit of a number below sixteen. -/
def hexDigit (n : Nat) : UInt8 :=
  UInt8.ofNat (if n < 10 then 48 + n else 87 + n)

/-- The hexadecimal numeral of `n` in exactly `width` places, highest place first. -/
def hex : (width : Nat) → (n : Nat) → Text
  | 0, _ => []
  | width + 1, n => hex width (n / 16) ++ [hexDigit (n % 16)]

/-- Byte order: the first difference decides, and a text comes before its extensions. -/
def before : Text → Text → Bool
  | _, [] => false
  | [], _ :: _ => true
  | a :: as, b :: bs => if a = b then before as bs else a < b

/-- The upper-case letter of an ASCII lower-case one; other bytes are kept. -/
def upperByte (b : UInt8) : UInt8 :=
  if 97 ≤ b && b ≤ 122 then b - 32 else b

/-- The lower-case letter of an ASCII upper-case one; other bytes are kept. -/
def lowerByte (b : UInt8) : UInt8 :=
  if 65 ≤ b && b ≤ 90 then b + 32 else b

end Text

end Persona
