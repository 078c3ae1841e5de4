import Persona.Yaml.Scalar

/-!
# YAML values

Settings are kept in YAML. A value that is written is a scalar, a list or a
mapping; a mapping keeps its entries in order, and its keys are scalars. What can
be read is richer and has a type of its own.
-/

namespace Persona

/-- A YAML value. -/
inductive Yaml where
  | scalar (value : Yaml.Scalar)
  | list (items : List Yaml)
  | mapping (entries : List (Yaml.Scalar × Yaml))

namespace Yaml

/-- A text. -/
def ofText (text : Text) : Yaml := .scalar { quoted := true, text := text }

/-- A plain word: a number or a truth value as it is to be written. -/
def word (text : Text) : Yaml := .scalar { quoted := false, text := text }

/-- A mapping with plain keys. -/
def ofFields (fields : List (Text × Yaml)) : Yaml :=
  .mapping (fields.map fun (name, value) => ({ quoted := false, text := name }, value))

end Yaml

end Persona
