import Persona.Text

/-!
# JSON values

The values of the JSON format. A number is kept as it was written, because how it
is read depends on who asks; strings are texts whose escapes have been resolved.
The fields of an object keep their order and their repetitions.
-/

namespace Persona

/-- A JSON value. -/
inductive Json where
  | null
  | bool (value : Bool)
  | number (literal : Text)
  | string (value : Text)
  | list (items : List Json)
  | object (fields : List (Text × Json))

namespace Json

/-- The last field with exactly this name. -/
def field? (name : Text) : Json → Option Json
  | .object fields => (fields.reverse.find? fun field => field.1 == name).map Prod.snd
  | _ => none

end Json

end Persona
