import Persona.Log
import Persona.Json.Printer
import Persona.Text.Blank
import Persona.Text.Lower
import Persona.Text.Quoted

/-!
# Log lines

A log shows the records from some level on, one a line, either as words
`key=value` or as JSON objects. Both begin with the level and the message and
keep the attributes in their order, repeated keys included.

Words are quoted only when they have to be: a reader splits a line at spaces and
at the first equals sign of a word, so a word with one of these in it, an empty
word, and a word with a character that would not be seen are quoted.
-/

namespace Persona.Log

/-- How records are shown. -/
inductive Shape where
  | words | json
deriving DecidableEq, Repr

namespace Shape

/-- The name of a shape. -/
def text : Shape → Text
  | .words => "text"
  | .json => "json"

/-- The shape with exactly this name. -/
def ofText? (name : Text) : Option Shape :=
  [Shape.words, Shape.json].find? fun shape => shape.text == name

end Shape

namespace Level

/-- The level a person named; naming none at all asks for `info`. -/
def ofName? (name : Text) : Option Level :=
  let word := name.trim.lowered
  if word = "debug" then some .debug
  else if word = "info" || word.isEmpty then some .info
  else if word = "warn" || word = "warning" then some .warn
  else if word = "error" then some .error
  else none

/-- The wording for a name that is no level. -/
def unknownMessage (name : Text) : Text :=
  "unknown log level " ++ name.quoted

end Level

/-- A character that cannot stand in an unquoted word. Among the ASCII characters these
are the controls up to the space, the double quote and the equals sign; among the others
the blanks, the invisible ones and the replacement character, which may stand for an
undecodable byte. -/
def needsQuoting (code : Nat) : Bool :=
  if code < 128 then code ≤ 32 || code = 34 || code = 61
  else code = Character.replacement || Character.isBlank code || !Character.isPrintable code

/-- A word of a line. -/
def word (text : Text) : Text :=
  if text.isEmpty || text.characters.any (fun c => needsQuoting c.code) then text.quoted
    else text

namespace Record

/-- The level and the message of a record as its first two attributes. -/
def entries (r : Record) : List (Text × Value) :=
  ("level", .text r.level.text) :: ("msg", .text r.message) :: r.attributes

/-- A record as words. -/
def words (r : Record) : Text :=
  Text.join " " (r.entries.map fun (key, value) => word key ++ "=" ++ word value.shown)

/-- The JSON of a value: a text is a string, a count a number. -/
def valueJson : Value → Json
  | .text value => .string value
  | .count value => .number (Text.ofInt value)

/-- A record as a JSON object. -/
def json (r : Record) : Text :=
  Json.writeAt .log [] 0 (.object (r.entries.map fun (key, value) => (key, valueJson value)))

/-- The line of a record. -/
def line (shape : Shape) (r : Record) : Text :=
  (match shape with
    | .words => r.words
    | .json => r.json) ++ "\n"

end Record

/-- A log as it is kept: the least level that is shown, and the shape of its lines. -/
structure Settings where
  least : Level
  shape : Shape

/-- The lines of the records that are shown. -/
def Settings.lines (s : Settings) (records : List Record) : Text :=
  (records.filter fun r => s.least.rank ≤ r.level.rank).flatMap (Record.line s.shape)

end Persona.Log
