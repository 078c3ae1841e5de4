import Persona.Text.Character
import Persona.Text.Printable

/-!
# Quoted texts in messages

Messages show a text between double quotes, and a single character between
single quotes, so that a reader sees every byte: a quote and a backslash are
escaped, the seven named control characters have their letter, an undecodable
byte is shown in hexadecimal, and any other character that would not be visible
is shown by its code point. Quoting is for display; nothing reads it back.
-/

namespace Persona

namespace Character

/-- The letter that names a control character after a backslash. -/
def controlLetter? (code : Nat) : Option UInt8 :=
  [(7, 97), (8, 98), (12, 102), (10, 110), (13, 114), (9, 116), (11, 118)].lookup code

/-- A character as it is shown between two `delimiter` characters. -/
def shown (delimiter : Nat) (code : Nat) : Text :=
  if code = delimiter || code = 92 then [92, UInt8.ofNat code]
  else if isPrintable code then encode code
  else match controlLetter? code with
    | some letter => [92, letter]
    | none =>
      if code < 0x20 || code = 0x7F then "\\x" ++ Text.hex 2 code
      else if code < 0x10000 then "\\u" ++ Text.hex 4 code
      else "\\U" ++ Text.hex 8 code

end Character

namespace Text

/-- The text between double quotes. -/
def quoted (text : Text) : Text :=
  let shown (c : Character) : Text :=
    match c.isUndecodable, c.bytes with
    | true, b :: _ => "\\x" ++ hex 2 b.toNat
    | _, _ => Character.shown 34 c.code
  "\"" ++ text.characters.flatMap shown ++ "\""

/-- One character between single quotes. -/
def quotedCharacter (code : Nat) : Text :=
  "'" ++ Character.shown 39 code ++ "'"

end Text

end Persona
