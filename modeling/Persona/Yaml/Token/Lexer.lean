import Persona.Yaml.Token.Place
import Persona.Yaml.Token.Block
import Persona.Yaml.Token.Plain
import Persona.Yaml.Token.Quoted
import Persona.Yaml.Token.Tag

/-!
# Tokens of a stream

The lexer keeps the columns of the open blocks, innermost first; a token to the left
of such a column closes the block. A key has no mark of its own: only the colon
behind it shows that it was one. So the lexer remembers the token that may turn out
to be a key, one for every open bracket, and when the colon comes it inserts the
missing tokens before that one. A key has to be on the same line as its colon and
not too far from it.

Brackets in which no key could start are not held back for a colon: they are given
out when two more tokens are known. A colon that comes later does not make a key of
them, and the tokens that it shows to be missing come too late, just before itself.
-/

namespace Persona.Yaml

/-- A token that may be a key: its number and place. In the column of the open block it
has to be one. It is `settled` if it is given out without waiting for a colon. -/
structure OpenKey where
  required : Bool
  number : Nat
  place : Place
  settled : Bool := false

/-- How deep brackets and blocks may be nested. -/
def nestingLimit : Nat := 10000

/-- How far a key may be from its colon. -/
def keyLimit : Nat := 1024

/-- A level of brackets: the possible key in it, and the number of the last token that
could start one, or else of the opening bracket. -/
structure Level where
  openKey : Option OpenKey := none
  latest : Nat := 0

/-- The level around brackets that are closed. If no key could start in them, their
opening bracket is settled. -/
def Level.around (inner outer : Level) : Level :=
  { outer with openKey := outer.openKey.map fun key =>
      { key with settled := key.settled || key.number = inner.latest } }

/-- The state of the lexer: the rest of the stream and its place, the columns of the open
blocks, the innermost level of brackets and those around it, whether a key may start here,
and the tokens, the last one first. The rest may be `broken` off, and a second byte order
mark concerns the first `marked` characters. -/
structure Lexer where
  rest : List Nat
  broken : Bool := false
  marked : Option Nat := none
  place : Place := {}
  columns : List Nat := []
  level : Level := {}
  outer : List Level := []
  keyAllowed : Bool := true
  tokens : List Token := []

namespace Lexer

/-- A bracket is open. -/
def bracketed (s : Lexer) : Bool := !s.outer.isEmpty

/-- The first column of what is inside the innermost block. -/
def least (s : Lexer) : Nat := (s.columns.head?.map (· + 1)).getD 0

/-- Go on at what is left of the stream. -/
def moveTo (s : Lexer) (rest : List Nat) : Lexer :=
  { s with rest := rest, place := s.place.behind (s.rest.take (s.rest.length - rest.length)) }

/-- One more token, behind which `rest` is left. -/
def emit (s : Lexer) (token : Token) (rest : List Nat) : Lexer :=
  { s.moveTo rest with tokens := token :: s.tokens }

/-- Whether a key may start next. -/
def allowKey (s : Lexer) (allowed : Bool) : Lexer := { s with keyAllowed := allowed }

/-- Insert a token before the one with a number. -/
def insertAt (s : Lexer) (number : Nat) (token : Token) : Lexer :=
  { s with tokens := s.tokens.insertIdx (s.tokens.length - number) token }

/-- Close the blocks whose columns `closes` names. -/
def closeBlocks (s : Lexer) (closes : Nat → Bool) : Lexer :=
  if s.bracketed then s
  else
    let count := (s.columns.takeWhile closes).length
    { s with
      columns := s.columns.drop count
      tokens := List.replicate count .blockEnd ++ s.tokens }

/-- Open a block at a column that is inside the innermost one; its token comes before the
token with a number. -/
def openBlock (s : Lexer) (column number : Nat) (token : Token) : Option Lexer :=
  if s.bracketed || column < s.least then some s
  else if nestingLimit ≤ s.columns.length then none
  else some { s.insertAt number token with columns := column :: s.columns }

/-- Open a block here. -/
def openBlockHere (s : Lexer) (token : Token) : Option Lexer :=
  s.openBlock s.place.column s.tokens.length token

/-- There is no key at this level any more; one that had to be a key is malformed. -/
def forgetKey (s : Lexer) : Option Lexer :=
  if s.level.openKey.any OpenKey.required then none
  else some { s with level := { s.level with openKey := none } }

/-- The next token may be a key, if keys are allowed here. -/
def expectKey (s : Lexer) : Option Lexer :=
  if s.keyAllowed then
    let required := !s.bracketed && s.columns.head? = some s.place.column
    s.forgetKey.map fun s =>
      let opened := { required, number := s.tokens.length, place := s.place }
      { s with level := ⟨some opened, s.tokens.length⟩ }
  else some s

/-- A colon here would make the token a key. -/
def reaches (s : Lexer) (key : OpenKey) : Bool :=
  s.place.line ≤ key.place.line && s.place.index ≤ key.place.index + keyLimit

/-- The token that may be a key as far as the present place is not too far from it; one
that had to be a key must not be out of reach. -/
def keyInReach? (s : Lexer) : Option (Option OpenKey) :=
  match s.level.openKey with
  | none => some none
  | some key =>
    if s.reaches key then some (some key) else if key.required then none else some none

/-- The numbers of the tokens that are held back because they may still be keys. -/
def possibleKeys (s : Lexer) : List Nat :=
  let keys := (s.level :: s.outer).filterMap Level.openKey
  (keys.filter fun key => s.reaches key && !key.settled).map OpenKey.number

/-- A token that may be a key was given out already: it was settled, enough tokens are
known behind it, and no token before it is held back. -/
def gaveOut (s : Lexer) (key : OpenKey) : Bool :=
  key.settled && key.number + 3 ≤ s.tokens.length && s.possibleKeys.all (key.number < ·)

/-- The end of the stream, which closes all blocks. -/
def endStream (s : Lexer) : Option Lexer :=
  (s.closeBlocks fun _ => true).forgetKey.map fun s => s.emit .streamEnd []

/-- A directive. -/
def directive (s : Lexer) (behind : List Nat) : Option Lexer := do
  let s ← (s.closeBlocks fun _ => true).forgetKey
  let (token, rest) ← directive? behind
  return (s.emit token rest).allowKey false

/-- A mark between documents. -/
def mark (s : Lexer) : Option Lexer :=
  (s.closeBlocks fun _ => true).forgetKey.map fun s =>
    (s.emit (if s.rest.head? = some 45 then .documentStart else .documentEnd)
      (s.rest.drop 3)).allowKey false

/-- An opening bracket. -/
def openBracket (s : Lexer) (token : Token) (behind : List Nat) : Option Lexer := do
  let s ← s.expectKey
  if nestingLimit ≤ s.outer.length then none
  else
    let inner := { s with outer := s.level :: s.outer, level := { latest := s.tokens.length } }
    return (inner.emit token behind).allowKey true

/-- A closing bracket, whether or not one is open. -/
def closeBracket (s : Lexer) (token : Token) (behind : List Nat) : Option Lexer := do
  let s ← s.forgetKey
  let left := match s.outer with
    | outer :: others => { s with level := s.level.around outer, outer := others }
    | [] => s
  return (left.emit token behind).allowKey false

/-- A comma. -/
def comma (s : Lexer) (behind : List Nat) : Option Lexer :=
  s.forgetKey.map fun s => (s.emit .comma behind).allowKey true

/-- The dash of an item, which may stand wherever a key may. -/
def item (s : Lexer) (behind : List Nat) : Option Lexer := do
  if !s.bracketed && !s.keyAllowed then none
  else
    let s ← (← s.openBlockHere .blockListStart).forgetKey
    return (s.emit .item behind).allowKey true

/-- The mark of a key of several lines. -/
def keyMark (s : Lexer) (behind : List Nat) : Option Lexer := do
  if !s.bracketed && !s.keyAllowed then none
  else
    let s ← (← s.openBlockHere .blockMappingStart).forgetKey
    return (s.emit .key behind).allowKey !s.bracketed

/-- The colon before a value. -/
def valueMark (s : Lexer) (behind : List Nat) : Option Lexer := do
  let possible ← s.keyInReach?
  let s := { s with level := { s.level with openKey := none } }
  match possible with
  | some key =>
    let count := s.tokens.length
    let (keyNumber, blockNumber) :=
      if s.gaveOut key then (count, count + 1) else (key.number, key.number)
    let s ← (s.insertAt keyNumber .key).openBlock key.place.column blockNumber
      .blockMappingStart
    return (s.emit .value behind).allowKey false
  | none =>
    if !s.bracketed && !s.keyAllowed then none
    else
      let s ← s.openBlockHere .blockMappingStart
      return (s.emit .value behind).allowKey !s.bracketed

/-- An alias, an anchor or a tag. -/
def property (s : Lexer) (code : Nat) (behind : List Nat) : Option Lexer := do
  let s ← s.expectKey
  let (token, rest) ←
    if code = 33 then tag? behind
    else (anchor? behind).map fun (name, rest) =>
      (if code = 42 then .alias name else .anchor name, rest)
  return (s.emit token rest).allowKey false

/-- A block of text. -/
def block (s : Lexer) (joined : Bool) (behind : List Nat) : Option Lexer := do
  let s ← s.forgetKey
  let (text, rest) ← block? joined s.least behind
  return (s.emit (.scalar true (textOf text)) rest).allowKey true

/-- A quoted scalar. -/
def quoted (s : Lexer) (quote : Nat) (behind : List Nat) : Option Lexer := do
  let s ← s.expectKey
  let (text, rest) ← quoted? quote behind
  return (s.emit (.scalar true (textOf text)) rest).allowKey false

/-- A plain scalar. If it reaches over a line break a key may start behind it. -/
def plain (s : Lexer) : Option Lexer := do
  let s ← s.expectKey
  let scalar ← plainAfter? s.bracketed s.least .none s.place.column s.rest
  return (s.emit (.scalar false (textOf scalar.text)) scalar.rest).allowKey scalar.crossed

/-- A token that starts with a character, apart from directives and marks between
documents. -/
def token (s : Lexer) (code : Nat) (behind : List Nat) : Option Lexer :=
  if code = 91 then s.openBracket .listStart behind
  else if code = 123 then s.openBracket .mappingStart behind
  else if code = 93 then s.closeBracket .listEnd behind
  else if code = 125 then s.closeBracket .mappingEnd behind
  else if code = 44 then s.comma behind
  else if code = 45 && endsWord behind then s.item behind
  else if code = 63 && (s.bracketed || endsWord behind) then s.keyMark behind
  else if code = 58 && (s.bracketed || endsWord behind) then s.valueMark behind
  else if code = 42 || code = 38 || code = 33 then s.property code behind
  else if (code = 124 || code = 62) && !s.bracketed then s.block (code = 62) behind
  else if code = 39 || code = 34 then s.quoted code behind
  else if startsPlain s.bracketed s.rest then s.plain
  else none

/-- Skip a comment behind the last token on its line. The dash of an item leaves it to
what comes next. -/
def passComment (s : Lexer) : Lexer :=
  let blanks := s.rest.takeWhile isBlankCode
  let behind := s.rest.drop blanks.length
  if !s.place.fresh && s.tokens.head? != some .item && blanks.length < 512 &&
    behind.head? = some 35 then
    s.moveTo (behind.dropWhile fun code => !isBreakCode code)
  else s

/-- Read one more token, together with the tokens that it shows to be missing. Where the
stream is broken off there have to be four characters from the start of the token on, and
one behind it. -/
def step (s : Lexer) : Option Lexer :=
  let (place, keyAllowed, rest) :=
    nextToken ⟨s.bracketed, s.marked⟩ .outside s.place s.keyAllowed s.rest
  let here := { s with place := place, keyAllowed := keyAllowed, rest := rest }
  let s := here.closeBlocks fun column => place.column < column
  if s.broken && rest.length < 4 then none
  else
    let next := match rest with
      | [] => s.endStream
      | code :: behind =>
        if place.column = 0 && code = 37 then s.directive behind
        else if place.column = 0 && isAnyMark rest then s.mark
        else (s.token code behind).map passComment
    next.filter fun next => !(next.broken && next.rest.isEmpty)

/-- The tokens of a stream. Where the stream is malformed they end early, and `stuck` has
the numbers of those that might have turned out to be keys. -/
structure Result where
  tokens : List Token
  stuck : Option (List Nat) := none

/-- Read tokens until the stream ends or is malformed. -/
def run : (fuel : Nat) → Lexer → Result
  | 0, s => ⟨s.tokens.reverse, some []⟩
  | fuel + 1, s =>
    match s.step with
    | none => ⟨s.tokens.reverse, some s.possibleKeys⟩
    | some next =>
      if next.tokens.head? = some .streamEnd then ⟨next.tokens.reverse, none⟩ else run
        fuel next

/-- The tokens of a stream. Every step but the last takes at least one of its
characters. -/
def ofStream (stream : Stream) : Result :=
  let marked := if stream.codes.head? = some orderMark then some stream.first else none
  run (stream.codes.length + 1)
    { rest := stream.codes, broken := stream.broken, marked := marked }

/-- The tokens up to one with a number can be looked at: a token is given out only when
the two behind it are known and it is clear whether it is a key. -/
def Result.isClear (r : Result) (number : Nat) : Bool :=
  match r.stuck with
  | none => true
  | some keys => number + 3 ≤ r.tokens.length && keys.all (number < ·)

end Lexer

end Persona.Yaml
