import Persona.Json
import Persona.Text.Character

/-!
# Writing JSON

Outputs are written in one of two spellings of strings. Documents and answers
are safe to embed in a page: angle brackets and the ampersand are escaped, and a
backspace or form feed has its letter. Log lines leave those characters alone and
show a backspace by its code. Both escape the two line separators U+2028 and
U+2029.

A value is written on one line or, given an indentation, with one item a line;
empty lists and objects stay on one line.
-/

namespace Persona.Json

/-- Which characters a string escapes, and how an undecodable byte is shown. -/
structure Spelling where
  embeddable : Bool
  lettersForAll : Bool
  undecodable : Text

/-- The spelling of documents and answers. -/
def Spelling.answer : Spelling := ⟨true, true, Character.encode Character.replacement⟩

/-- The spelling of log lines. -/
def Spelling.log : Spelling := ⟨false, false, "\\ufffd"⟩

/-- A character by its code. -/
def codeEscape (code : Nat) : Text := "\\u" ++ Text.hex 4 code

/-- One character inside a string. -/
def writeCharacter (s : Spelling) (c : Character) : Text :=
  if c.isUndecodable then s.undecodable
  else if c.code = 34 then "\\\""
  else if c.code = 92 then "\\\\"
  else if c.code = 10 then "\\n"
  else if c.code = 13 then "\\r"
  else if c.code = 9 then "\\t"
  else if c.code = 8 && s.lettersForAll then "\\b"
  else if c.code = 12 && s.lettersForAll then "\\f"
  else if c.code < 0x20 then codeEscape c.code
  else if s.embeddable && (c.code = 60 || c.code = 62 || c.code = 38) then codeEscape c.code
  else if c.code = 0x2028 || c.code = 0x2029 then codeEscape c.code
  else c.bytes

/-- A string with its quotes. -/
def writeString (s : Spelling) (text : Text) : Text :=
  "\"" ++ text.characters.flatMap (writeCharacter s) ++ "\""

/-- The break before an item at some depth; without indentation there is none. -/
def lineBreak (indent : Text) (depth : Nat) : Text :=
  if indent.isEmpty then [] else "\n" ++ Text.repeated depth indent

/-- What stands between a field's name and its value. -/
def fieldMark (indent : Text) : Text :=
  if indent.isEmpty then ":" else ": "

mutual

/-- A value that starts at `depth`. -/
def writeAt (s : Spelling) (indent : Text) (depth : Nat) : Json → Text
  | .null => "null"
  | .bool true => "true"
  | .bool false => "false"
  | .number literal => literal
  | .string value => writeString s value
  | .list [] => "[]"
  | .list (item :: items) =>
    "[" ++ lineBreak indent (depth + 1) ++ writeAt s indent (depth + 1) item ++
      writeItems s indent (depth + 1) items ++ lineBreak indent depth ++ "]"
  | .object [] => "\x7b\x7d"
  | .object ((name, value) :: fields) =>
    "\x7b" ++ lineBreak indent (depth + 1) ++ writeString s name ++ fieldMark indent ++
      writeAt s indent (depth + 1) value ++ writeFields s indent (depth + 1) fields ++
      lineBreak indent depth ++ "\x7d"

/-- Further items of a list, each after a comma. -/
def writeItems (s : Spelling) (indent : Text) (depth : Nat) : List Json → Text
  | [] => []
  | item :: items =>
    "," ++ lineBreak indent depth ++ writeAt s indent depth item ++
      writeItems s indent depth items

/-- Further fields of an object, each after a comma. -/
def writeFields (s : Spelling) (indent : Text) (depth : Nat) : List (Text × Json) → Text
  | [] => []
  | (name, value) :: fields =>
    "," ++ lineBreak indent depth ++ writeString s name ++ fieldMark indent ++
      writeAt s indent depth value ++ writeFields s indent depth fields

end

/-- A value in the spelling of documents and answers. -/
def write (indent : Text) (value : Json) : Text := writeAt .answer indent 0 value

end Persona.Json
