import Persona.Text

/-!
# Log records

A record has a level, a message and attributes in the order in which they were
given. Parts of the program put their own name in front of what they record, so
a record made deep inside carries the names of all parts around it, outermost
first.
-/

namespace Persona.Log

/-- The importance of a record, in ascending order. -/
inductive Level where
  | debug | info | warn | error
deriving DecidableEq, Repr

/-- The value of an attribute. -/
inductive Value where
  | text (value : Text)
  | count (value : Int)
deriving DecidableEq, Repr

/-- One thing worth recording. -/
structure Record where
  level : Level
  message : Text
  attributes : List (Text × Value)
deriving DecidableEq, Repr

namespace Level

/-- The name under which a level is recorded. -/
def text : Level → Text
  | .debug => "DEBUG"
  | .info => "INFO"
  | .warn => "WARN"
  | .error => "ERROR"

/-- The position of a level in the order of importance. -/
def rank : Level → Nat
  | .debug => 0
  | .info => 1
  | .warn => 2
  | .error => 3

end Level

/-- A value as text. -/
def Value.shown : Value → Text
  | .text value => value
  | .count value => Text.ofInt value

/-- The record as seen from outside the part called `component`. -/
def Record.within (component : Text) (r : Record) : Record :=
  { r with attributes := ("component", .text component) :: r.attributes }

end Persona.Log
