import Persona.Number.Decimal
import Persona.Text.Base64

/-!
# Scalars

A scalar is kept as it was written, because what it means depends on who asks: a
quoted scalar is always a text, while a plain one may also be nothing at all, a
truth value, a number or a date. A tag in front of it can say what it is; a scalar
that cannot be that is malformed.
-/

namespace Persona.Yaml

/-- A scalar as it was written: whether it stood in quotes, its text, and its tag, which
is empty if there is none. -/
structure Scalar where
  quoted : Bool
  text : Text
  tag : Text := []
deriving DecidableEq, Repr

/-- What a scalar means. -/
inductive Meaning where
  | absent
  | truth (value : Bool)
  | integer (value : Int)
  | number (value : Binary64)
  | date
  | text (value : Text)
deriving DecidableEq, Repr

namespace Scalar

/-- The value of a digit in some base. -/
def digitValue? (base : Nat) (b : UInt8) : Option Nat :=
  let value :=
    if 48 ≤ b && b ≤ 57 then b.toNat - 48
    else if 97 ≤ Text.lowerByte b && Text.lowerByte b ≤ 122 then (Text.lowerByte b).toNat - 87
    else 36
  if value < base then some value else none

/-- The value of digits in some base. -/
def digits? (base : Nat) (digits : Text) : Option Nat :=
  digits.foldl (fun value b => do return (← value) * base + (← digitValue? base b)) (some 0)

/-- A magnitude, whose base follows from its first characters: a leading zero alone asks
for base eight, with a letter after it for base two, eight or sixteen. -/
def magnitude? : Text → Option Nat
  | [] => none
  | 48 :: b :: c :: rest =>
    if Text.lowerByte b = 98 then digits? 2 (c :: rest)
    else if Text.lowerByte b = 111 then digits? 8 (c :: rest)
    else if Text.lowerByte b = 120 then digits? 16 (c :: rest)
    else digits? 8 (b :: c :: rest)
  | 48 :: rest => digits? 8 rest
  | digits => digits? 10 digits

/-- The integer a numeral writes. A signed one must fit into a signed word, one without a
sign into an unsigned word. -/
def wordInteger? (numeral : Text) : Option Int :=
  match numeral with
  | 45 :: rest => do
    let value ← magnitude? rest
    if value ≤ 0x8000000000000000 then return -(value : Int) else none
  | 43 :: rest => do
    let value ← magnitude? rest
    if value < 0x8000000000000000 then return value else none
  | rest => do
    let value ← magnitude? rest
    if value < 0x10000000000000000 then return value else none

/-- A signed word whose sign stands behind the letter of its base. -/
def innerSigned? (base : Nat) : Text → Option Int
  | 45 :: b :: rest => do
    let value ← digits? base (b :: rest)
    if value ≤ 0x8000000000000000 then return -(value : Int) else none
  | 43 :: b :: rest => do
    let value ← digits? base (b :: rest)
    if value < 0x8000000000000000 then return value else none
  | _ => none

/-- The integer a numeral writes. In base two and eight the sign may also stand behind the
letter of the base. -/
def integer? (numeral : Text) : Option Int :=
  match wordInteger? numeral, numeral with
  | some value, _ => some value
  | none, 48 :: 98 :: rest => innerSigned? 2 rest
  | none, 48 :: 111 :: rest => innerSigned? 8 rest
  | none, _ => none

/-- The number a decimal numeral writes. -/
def number? (numeral : Text) : Option Binary64 :=
  let unsigned := match numeral with
    | 45 :: rest => rest
    | 43 :: rest => rest
    | rest => rest
  if Binary64.startsNumeral unsigned then Binary64.read? numeral else none

/-- One or two digits at the head of a text. -/
def shortNumber? : Text → Option (Nat × Text)
  | a :: b :: rest =>
    if Text.isDigitByte a then
      if Text.isDigitByte b then some (Text.digitsValue [a, b], rest)
      else some (Text.digitsValue [a], b :: rest)
    else none
  | [a] => if Text.isDigitByte a then some (Text.digitsValue [a], []) else none
  | [] => none

/-- One byte at the head of a text. -/
def byte? (expected : UInt8) : Text → Option Text
  | b :: rest => if b = expected then some rest else none
  | [] => none

/-- The days of a month. -/
def daysIn (year month : Nat) : Nat :=
  if month = 2 then
    if year % 4 = 0 && (year % 100 != 0 || year % 400 = 0) then 29 else 28
  else if month = 4 || month = 6 || month = 9 || month = 11 then 30
  else 31

/-- A day of the calendar at the head of a text: four digits for the year, then
month and day. -/
def day? (text : Text) : Option Text := do
  let year := text.takeWhile Text.isDigitByte
  if year.length != 4 then none
  else
    let (month, afterMonth) ← shortNumber? (← byte? 45 (text.drop 4))
    let (day, rest) ← shortNumber? (← byte? 45 afterMonth)
    let known := 1 ≤ month && month ≤ 12 && 1 ≤ day &&
      day ≤ daysIn (Text.digitsValue year) month
    if known then some rest else none

/-- A time of day at the head of a text; the seconds may have a fraction. -/
def clock? (text : Text) : Option Text := do
  let (hour, afterHour) ← shortNumber? text
  let (minute, afterMinute) ← shortNumber? (← byte? 58 afterHour)
  let (second, rest) ← shortNumber? (← byte? 58 afterMinute)
  if hour < 24 && minute < 60 && second < 60 then
    match rest with
    | point :: digit :: _ =>
      if (point = 46 || point = 44) && Text.isDigitByte digit then
        some (rest.tail.dropWhile Text.isDigitByte)
      else some rest
    | _ => some rest
  else none

/-- A text that is nothing but a time zone. -/
def isZone : Text → Bool
  | [90] => true
  | [sign, a, b, 58, c, d] =>
    (sign = 43 || sign = 45) && [a, b, c, d].all Text.isDigitByte &&
      Text.digitsValue [a, b] ≤ 24 && Text.digitsValue [c, d] ≤ 60
  | _ => false

/-- A text that is a date: a day alone, a day and a time separated by spaces, or a day and
a time in a time zone with a `T` between them. -/
def isDate (text : Text) : Bool :=
  match day? text with
  | none => false
  | some [] => true
  | some (mark :: rest) =>
    match clock? (if mark = 32 then rest.dropWhile (· = 32) else rest) with
    | none => false
    | some zone =>
      if mark = 32 then zone.isEmpty else (mark = 84 || mark = 116) && isZone zone

/-- The words with a meaning of their own. -/
def words : List (Text × Meaning) :=
  [("true", .truth true), ("True", .truth true), ("TRUE", .truth true),
   ("false", .truth false), ("False", .truth false), ("FALSE", .truth false),
   ("", .absent), ("~", .absent), ("null", .absent), ("Null", .absent), ("NULL", .absent),
   (".nan", .number .nan), (".NaN", .number .nan), (".NAN", .number .nan),
   (".inf", .number (.infinity false)), (".Inf", .number (.infinity false)),
   (".INF", .number (.infinity false)), ("+.inf", .number (.infinity false)),
   ("+.Inf", .number (.infinity false)), ("+.INF", .number (.infinity false)),
   ("-.inf", .number (.infinity true)), ("-.Inf", .number (.infinity true)),
   ("-.INF", .number (.infinity true))]

/-- A numeral without the low lines in it, each of which has to stand between
two digits. -/
def withoutLines? : (afterDigit : Bool) → Text → Option Text
  | _, [] => some []
  | _, [95] => none
  | afterDigit, 95 :: b :: rest =>
    if afterDigit && Text.isDigitByte b then (withoutLines? true rest).map (b :: ·) else none
  | _, b :: rest => (withoutLines? (Text.isDigitByte b) rest).map (b :: ·)

/-- What a numeral means. Only a numeral that starts with a sign or a digit can be an
integer or a date, and a date only where `dates` are looked for; low lines in it do not
count. In a numeral that starts with a point they may only stand between digits. -/
def numeralMeaning (dates : Bool) (text : Text) : Meaning :=
  let bare : Text := text.filter (· != 95)
  match text with
  | 46 :: _ => (((withoutLines? false text).bind number?).map Meaning.number).getD (.text text)
  | b :: _ =>
    if b = 43 || b = 45 || Text.isDigitByte b then
      if dates && isDate text then .date
      else match integer? bare with
        | some value => .integer value
        | none => ((number? bare).map Meaning.number).getD (.text text)
    else .text text
  | [] => .text text

/-- What a plain text means. -/
def plainMeaning (dates : Bool) (text : Text) : Meaning :=
  (words.lookup text).getD (numeralMeaning dates text)

/-- What the tags of the standard start with. -/
def standardTag : Text := "tag:yaml.org,2002:"

/-- The name of a tag of the standard, whose beginning can also be two exclamation marks;
any other tag has none. -/
def tagName? (s : Scalar) : Option Text :=
  (Text.after? standardTag s.tag).or (Text.after? "!!" s.tag)

/-- A scalar without a tag that says what it is. -/
def isUntagged (s : Scalar) : Bool := s.tag.isEmpty || s.tag = "!"

/-- The number for an integer that fits into a signed word. -/
def numberOf? (value : Int) : Option Binary64 :=
  if value < 0x8000000000000000 then some (.ofRatio (value < 0) value.natAbs 1) else none

/-- What a scalar means, or nothing if it is not what its tag says. A tag that is not one
of the standard's leaves it a text. -/
def meaning? (s : Scalar) : Option Meaning :=
  if s.isUntagged then some (if s.quoted then .text s.text else plainMeaning true s.text)
  else match s.tagName? with
    | none => some (.text s.text)
    | some name =>
      if name = "binary" then (Base64.decode? s.text).map .text
      else if name = "timestamp" then
        match plainMeaning true s.text with
        | .date => some .date
        | _ => none
      else if name = "null" || name = "bool" || name = "int" || name = "float" then
        match plainMeaning false s.text with
        | .absent => if name = "null" then some .absent else none
        | .truth value => if name = "bool" then some (.truth value) else none
        | .integer value =>
          if name = "int" then some (.integer value)
          else if name = "float" then (numberOf? value).map .number
          else none
        | .number value => if name = "float" then some (.number value) else none
        | _ => none
      else some (.text s.text)

end Scalar

end Persona.Yaml
