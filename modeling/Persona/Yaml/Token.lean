import Persona.Text

/-!
# YAML tokens

Blocks have no brackets in the text; the lexer finds out from the columns where
they start and end and marks these places by tokens, so that the tokens of a
document are bracketed throughout.
-/

namespace Persona.Yaml

/-- A token. -/
inductive Token where
  | streamEnd
  | version (major minor : Nat)
  | handle (name start : Text)
  | documentStart
  | documentEnd
  | blockListStart
  | blockMappingStart
  | blockEnd
  | listStart
  | listEnd
  | mappingStart
  | mappingEnd
  | item
  | comma
  | key
  | value
  | alias (name : Text)
  | anchor (name : Text)
  | tag (handle rest : Text)
  | scalar (quoted : Bool) (text : Text)
deriving DecidableEq, Repr

namespace Token

/-- The token is a directive or a mark between documents, or the stream ends with it. -/
def endsDocument : Token → Bool
  | .streamEnd | .version _ _ | .handle _ _ | .documentStart | .documentEnd => true
  | _ => false

/-- A key of a block mapping, its value or its end, so that what should stand there is
absent. -/
def endsBlockPart : Token → Bool
  | .key | .value | .blockEnd => true
  | _ => false

end Token

end Persona.Yaml
