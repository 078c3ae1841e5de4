import Persona.Json
import Persona.Text.Character

/-!
# Reading JSON

The grammar of RFC 8259, without extensions. Undecodable bytes in a string and
escapes that form no code point become U+FFFD. Values nested more than ten
thousand deep are refused.

A reading fails as a whole: there is no message, because nothing that reads JSON
here reports more than that the text was malformed.
-/

namespace Persona.Json

/-- The four characters that may stand between the parts of a value. -/
def isSpace (b : UInt8) : Bool := b = 32 || b = 9 || b = 10 || b = 13

/-- The text from its first non-blank byte on. -/
def skipSpace (text : Text) : Text := text.dropWhile isSpace

/-- The value of a hexadecimal digit. -/
def hexValue? (b : UInt8) : Option Nat :=
  if 48 ≤ b && b ≤ 57 then some (b.toNat - 48)
  else if 97 ≤ b && b ≤ 102 then some (b.toNat - 87)
  else if 65 ≤ b && b ≤ 70 then some (b.toNat - 55)
  else none

/-- The number written by four hexadecimal digits. -/
def hexQuad? (a b c d : UInt8) : Option Nat := do
  let w ← hexValue? a
  let x ← hexValue? b
  let y ← hexValue? c
  let z ← hexValue? d
  return ((w * 16 + x) * 16 + y) * 16 + z

/-- The byte a one-letter escape stands for. -/
def letterEscape? (b : UInt8) : Option UInt8 :=
  [(34, 34), (92, 92), (47, 47), (98, 8), (102, 12), (110, 10), (114, 13), (116, 9)].lookup b

/-- A piece of a string: a byte that stands for itself, or a UTF-16 unit given by
its number. -/
inductive Piece where
  | byte (value : UInt8)
  | unit (value : Nat)

/-- Two units that together form a code point above U+FFFF. -/
def isPair (high low : Nat) : Bool :=
  0xD800 ≤ high && high < 0xDC00 && 0xDC00 ≤ low && low < 0xE000

/-- The bytes of a sequence of pieces; a unit that forms no code point becomes U+FFFD. -/
def assemble : List Piece → Text
  | [] => []
  | .byte value :: rest => value :: assemble rest
  | [.unit value] => Character.encode value
  | .unit value :: .byte next :: rest => Character.encode value ++ next :: assemble rest
  | .unit high :: .unit low :: rest =>
    if isPair high low then
      Character.encode (0x10000 + (high - 0xD800) * 1024 + (low - 0xDC00)) ++ assemble rest
    else Character.encode high ++ assemble (.unit low :: rest)

/-- The pieces of a string after its opening quote, read in front of `seen`, the last one
first, and the text after the closing quote. -/
def readPieces (seen : List Piece) : Text → Option (List Piece × Text)
  | 34 :: rest => some (seen, rest)
  | 92 :: 117 :: a :: b :: c :: d :: rest =>
    match hexQuad? a b c d with
    | some value => readPieces (.unit value :: seen) rest
    | none => none
  | 92 :: letter :: rest =>
    match letterEscape? letter with
    | some value => readPieces (.byte value :: seen) rest
    | none => none
  | b :: rest => if b < 0x20 || b = 92 then none else readPieces (.byte b :: seen) rest
  | [] => none

/-- The digits at the head of a text, of which there must be one, and the text
after them. -/
def readDigits? (text : Text) : Option (Text × Text) :=
  let digits := text.takeWhile Text.isDigitByte
  if digits.isEmpty then none else some (digits, text.dropWhile Text.isDigitByte)

/-- The integer part of a number: a zero, or digits that do not start with one. -/
def readInteger? : Text → Option (Text × Text)
  | 48 :: rest => some ([48], rest)
  | text => readDigits? text

/-- The fraction of a number, if there is one. -/
def readFraction? : Text → Option (Text × Text)
  | 46 :: rest => (readDigits? rest).map fun (digits, after) => (46 :: digits, after)
  | text => some ([], text)

/-- The exponent of a number, if there is one. -/
def readExponent? : Text → Option (Text × Text)
  | e :: rest =>
    if e = 101 || e = 69 then
      match rest with
      | s :: digits =>
        if s = 43 || s = 45 then (readDigits? digits).map fun (d, after) =>
          (e :: s :: d, after)
        else (readDigits? rest).map fun (d, after) => (e :: d, after)
      | [] => none
    else some ([], e :: rest)
  | [] => some ([], [])

/-- A number literal and the text after it. -/
def readNumber? (text : Text) : Option (Text × Text) := do
  let (sign, unsigned) : Text × Text := match text with
    | 45 :: rest => ([45], rest)
    | rest => ([], rest)
  let (integer, afterInteger) ← readInteger? unsigned
  let (fraction, afterFraction) ← readFraction? afterInteger
  let (exponent, rest) ← readExponent? afterFraction
  return (sign ++ integer ++ fraction ++ exponent, rest)

/-- A string with its opening quote, made decodable, and the text after it. -/
def readQuoted? : Text → Option (Text × Text)
  | 34 :: rest =>
    (readPieces [] rest).map fun (pieces, after) => ((assemble pieces.reverse).toUtf8, after)
  | _ => none

/-- A value that is neither a list nor an object. -/
def readScalar? (text : Text) : Option (Json × Text) :=
  match text with
  | 34 :: _ => (readQuoted? text).map fun (content, after) => (.string content, after)
  | _ =>
    match Text.after? "null" text, Text.after? "true" text, Text.after? "false" text with
    | some after, _, _ => some (.null, after)
    | _, some after, _ => some (.bool true, after)
    | _, _, some after => some (.bool false, after)
    | none, none, none =>
      (readNumber? text).map fun (literal, after) => (.number literal, after)

/-- How deep values may be nested. -/
def depthLimit : Nat := 10000

/-- Items up to the closing bracket, where `value` reads one. Every item takes at least
one byte, so `fuel` above the length of the text is never used up. -/
def readItems (value : Text → Option (Json × Text)) :
    (fuel : Nat) → Text → Option (List Json × Text)
  | 0, _ => none
  | fuel + 1, text => do
    let (item, rest) ← value text
    match skipSpace rest with
    | 44 :: after =>
      let (items, left) ← readItems value fuel (skipSpace after)
      return (item :: items, left)
    | 93 :: after => return ([item], after)
    | _ => none

/-- Fields up to the closing brace, where `value` reads the value of one. -/
def readFields (value : Text → Option (Json × Text)) :
    (fuel : Nat) → Text → Option (List (Text × Json) × Text)
  | 0, _ => none
  | fuel + 1, text => do
    let (name, rest) ← readQuoted? text
    match skipSpace rest with
    | 58 :: afterName =>
      let (item, rest) ← value (skipSpace afterName)
      match skipSpace rest with
      | 44 :: after =>
        let (fields, left) ← readFields value fuel (skipSpace after)
        return ((name, item) :: fields, left)
      | 125 :: after => return ([(name, item)], after)
      | _ => none
    | _ => none

/-- A value at the head of a text that starts with it, nested at most `depth` levels. -/
def readValue : (depth : Nat) → Text → Option (Json × Text)
  | depth, text =>
    match text with
    | 91 :: rest =>
      match depth with
      | 0 => none
      | depth + 1 =>
        match skipSpace rest with
        | 93 :: after => some (.list [], after)
        | items =>
          (readItems (readValue depth) (items.length + 1) items).map fun (items, after) =>
            (.list items, after)
    | 123 :: rest =>
      match depth with
      | 0 => none
      | depth + 1 =>
        match skipSpace rest with
        | 125 :: after => some (.object [], after)
        | fields =>
          (readFields (readValue depth) (fields.length + 1) fields).map fun (fields, after) =>
            (.object fields, after)
    | _ => readScalar? text

/-- The first value of a text; what comes after it is not looked at. -/
def readFirst? (text : Text) : Option Json :=
  (readValue depthLimit (skipSpace text)).map Prod.fst

/-- The value a text consists of. -/
def read? (text : Text) : Option Json :=
  match readValue depthLimit (skipSpace text) with
  | some (value, rest) => if (skipSpace rest).isEmpty then some value else none
  | none => none

end Persona.Json
