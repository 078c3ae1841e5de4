import Persona.Text

/-!
# Tokens of a document

A token has a kind, the text that was written for it and the bytes it covers.
Words are names unless they are one of the ten keywords; the keywords may still
be used as names wherever a name is expected.
-/

namespace Persona

/-- The kinds of token, in the order of their codes. -/
inductive Kind where
  | endOfInput | failure
  | string | number | name
  | braceOpen | braceClose | parenOpen | parenClose
  | comma | colon | semicolon | greater
  | plus | minus | times | divide
  | plusAssign | minusAssign | arrow | biArrow
  | personality | traits | knowledge | behaviors | evolution
  | with | domain | when | if | then
deriving DecidableEq, Repr

namespace Kind

/-- All kinds; the position of a kind is its code. -/
def all : List Kind :=
  [.endOfInput, .failure, .string, .number, .name, .braceOpen, .braceClose, .parenOpen,
   .parenClose, .comma, .colon, .semicolon, .greater, .plus, .minus, .times, .divide,
   .plusAssign, .minusAssign, .arrow, .biArrow, .personality, .traits, .knowledge, .behaviors,
   .evolution, .with, .domain, .when, .if, .then]

/-- The text by which messages and listings call a kind. -/
def text : Kind → Text
  | .endOfInput => "(eof)"
  | .failure => "(error)"
  | .string => "(string)"
  | .number => "(number)"
  | .name => "(name)"
  | .braceOpen => "\x7b"
  | .braceClose => "\x7d"
  | .parenOpen => "("
  | .parenClose => ")"
  | .comma => ","
  | .colon => ":"
  | .semicolon => ";"
  | .greater => ">"
  | .plus => "+"
  | .minus => "-"
  | .times => "*"
  | .divide => "/"
  | .plusAssign => "+="
  | .minusAssign => "-="
  | .arrow => "->"
  | .biArrow => "<->"
  | .personality => "personality"
  | .traits => "traits"
  | .knowledge => "knowledge"
  | .behaviors => "behaviors"
  | .evolution => "evolution"
  | .with => "with"
  | .domain => "domain"
  | .when => "when"
  | .if => "if"
  | .then => "then"

/-- The text of the kind with a given code; codes past the last kind are unknown. -/
def textOfCode (code : Nat) : Text :=
  match all[code]? with
  | some kind => kind.text
  | none => "(unknown)"

/-- The ten keywords. -/
def keywords : List Kind :=
  [.personality, .traits, .knowledge, .behaviors, .evolution, .with, .domain, .when,
    .if, .then]

/-- A keyword names itself when it is used as a name. -/
def isKeyword (kind : Kind) : Bool :=
  keywords.contains kind

/-- The keyword spelled by a word, if there is one. -/
def ofWord? (word : Text) : Option Kind :=
  keywords.find? fun kind => kind.text == word

end Kind

/-- A token: `start` and `stop` are byte offsets, and the value of a string is its content
without the quotes. -/
structure Token where
  kind : Kind
  value : Text
  start : Nat
  stop : Nat
deriving DecidableEq, Repr

end Persona
