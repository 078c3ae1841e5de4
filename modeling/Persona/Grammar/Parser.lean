import Persona.Grammar.Error
import Persona.Personality

/-!
# Reading from a token list

A parser reads a first part of the tokens and answers with a value and the tokens
that are left, or with an error. Events are kept in both cases, because an entry
that fails may already have skipped entries of its own.

The end of the input is not among the tokens: it is what is seen when none are
left, so no parser can read past it. How deeply the reader is nested is handed
down, never stored, so that it cannot leak out of a part that failed.
-/

namespace Persona.Grammar

/-- What every parser may look at: the end token, the nesting limit (none when it is not
positive) and the current nesting depth. -/
structure Setting where
  last : Token
  limit : Int
  depth : Nat

/-- The events of a reading and its outcome. -/
structure Reply (α : Type) where
  events : List Event
  outcome : Except SyntaxError (α × List Token)

/-- A parser of values of one type. -/
def Parser (α : Type) : Type := Setting → List Token → Reply α

namespace Parser

variable {α β : Type}

/-- Read nothing. -/
protected def pure (value : α) : Parser α := fun _ tokens => ⟨[], .ok (value, tokens)⟩

/-- Read one part and then another that may depend on it. -/
protected def bind (p : Parser α) (next : α → Parser β) : Parser β := fun setting tokens =>
  let first := p setting tokens
  match first.outcome with
  | .error e => ⟨first.events, .error e⟩
  | .ok (value, left) =>
    let second := next value setting left
    ⟨first.events ++ second.events, second.outcome⟩

instance : Monad Parser where
  pure := Parser.pure
  bind := Parser.bind

/-- The token `ahead` places further on; past the last one it is the end. -/
def peek (ahead : Nat) : Parser Token := fun setting tokens =>
  ⟨[], .ok (tokens[ahead]?.getD setting.last, tokens)⟩

/-- The token to be read next. -/
def current : Parser Token := peek 0

/-- Take one token; at the end there is none to take. -/
def advance : Parser Token := fun setting tokens =>
  ⟨[], .ok (tokens.head?.getD setting.last, tokens.tail)⟩

/-- The next token is of this kind. -/
def check (kind : Kind) : Parser Bool := do
  let token ← current
  return token.kind = kind

/-- Fail at a token. -/
def failAt (token : Token) (cause : SyntaxError.Cause) : Parser α := fun _ _ =>
  ⟨[], .error (.atToken token cause)⟩

/-- Fail at the next token, which the cause may mention. -/
def fail (cause : Token → SyntaxError.Cause) : Parser α := do
  let token ← current
  failAt token (cause token)

/-- Take a token of this kind. -/
def expect (kind : Kind) : Parser Token := do
  let token ← current
  if token.kind = kind then advance else failAt token (.expected kind token)

/-- Note an event. -/
def note (event : Event) : Parser Unit := fun _ tokens => ⟨[event], .ok ((), tokens)⟩

/-- Read one level deeper, unless the limit forbids it. -/
def nested (p : Parser α) : Parser α := fun setting tokens =>
  if 0 < setting.limit && setting.limit < setting.depth + 1 then
    fail (fun _ => .tooDeep setting.limit) setting tokens
  else p { setting with depth := setting.depth + 1 } tokens

/-- Read a part between parentheses. -/
def parenthesized (p : Parser α) : Parser α := do
  let _ ← expect .parenOpen
  let value ← p
  let _ ← expect .parenClose
  return value

end Parser

open Grammar.Parser

/-- A token that can be a name. -/
def isName (token : Token) : Bool :=
  token.kind = .name || token.kind = .string || token.kind.isKeyword

/-- The name a token stands for; a keyword stands for its own word. -/
def nameOf (token : Token) : Text :=
  if token.kind.isKeyword then token.kind.text else token.value

/-- A name: a word, a string or a keyword. -/
def name (role : Text) : Parser Text := do
  let token ← current
  if isName token then
    let _ ← advance
    return nameOf token
  else failAt token (.expectedName role token)

/-- The content of a string. -/
def string : Parser Text := do
  let token ← expect .string
  return token.value

/-- The unit named by the next word. -/
def timeUnit : Parser TimeUnit := do
  let token ← current
  match if token.kind = .name then TimeUnit.ofWord? token.value else none with
  | some unit =>
    let _ ← advance
    return unit
  | none => failAt token (.expectedForm .timeUnit token)

/-- The level named by the next word or string. -/
def level : Parser Level := do
  let token ← current
  match if token.kind = .name || token.kind = .string then Level.ofWord? token.value
    else none with
  | some level =>
    let _ ← advance
    return level
  | none => failAt token (.expectedForm .level token)

end Persona.Grammar
