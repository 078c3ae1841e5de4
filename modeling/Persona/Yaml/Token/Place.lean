import Persona.Yaml.Stream

/-!
# Places in a stream

The lexer counts characters, lines and columns, and remembers whether anything but
blanks stood on the line so far. A gap between two tokens is made of blanks, breaks
and comments. Blanks at the beginning of a block are its indentation, so a tab is a
blank only where no key may start.
-/

namespace Persona.Yaml

/-- A place: the number of characters before it, its line and column, and whether a break
was passed and since then nothing but blanks. -/
structure Place where
  index : Nat := 0
  line : Nat := 0
  column : Nat := 0
  fresh : Bool := false
deriving DecidableEq, Repr

namespace Place

/-- The place behind one more character of the same line. -/
def right (p : Place) (code : Nat) : Place :=
  { p with index := p.index + 1, column := p.column + 1, fresh := p.fresh && isBlankCode code }

/-- The place behind one more character. -/
def next (p : Place) (code : Nat) : Place :=
  if isBreakCode code then ⟨p.index + 1, p.line + 1, 0, true⟩ else p.right code

/-- The place behind characters. -/
def behind (p : Place) (codes : List Nat) : Place := codes.foldl next p

end Place

/-- Where a gap between tokens is being read: between words, in a comment, or between two
comments of which the second was seen already. -/
inductive GapPart where
  | outside | comment | between
deriving DecidableEq, Repr

/-- A line feed is followed by another comment, with only blanks and line feeds in
between. It is looked for in the next few hundred characters. -/
def commentFollows (codes : List Nat) : Bool :=
  ((codes.take 511).dropWhile fun code => isBlankCode code || code = 10).head? = some 35

/-- What a gap depends on: whether brackets are open, and whether the stream starts with a
second byte order mark. Such a mark hides the first character of every line, as long as
this one and the three behind it are among the first `marked` characters. -/
structure GapRules where
  bracketed : Bool
  marked : Option Nat

/-- The next token: its place, whether a key may start there, and what is left of the
stream. After a break a key may start unless brackets are open. -/
def nextToken (rules : GapRules) : GapPart → Place → (keyAllowed : Bool) → List Nat →
    Place × Bool × List Nat
  | _, p, keyAllowed, [] => (p, keyAllowed, [])
  | .comment, p, keyAllowed, code :: rest =>
    if !isBreakCode code then nextToken rules .comment (p.next code) keyAllowed rest
    else if code = 10 && commentFollows rest then
      nextToken rules .between (p.next code) keyAllowed rest
    else nextToken rules .outside (p.next code) (keyAllowed || !rules.bracketed) rest
  | .between, p, keyAllowed, code :: rest =>
    nextToken rules (if code = 35 then .comment else .between) (p.next code) keyAllowed rest
  | .outside, p, keyAllowed, code :: rest =>
    if p.column = 0 && rules.marked.any (fun count => p.index = 0 || p.index + 4 ≤ count) then
      nextToken rules .outside (p.right code) keyAllowed rest
    else if code = 32 || (code = 9 && (rules.bracketed || !keyAllowed)) then
      nextToken rules .outside (p.next code) keyAllowed rest
    else if isBreakCode code then
      nextToken rules .outside (p.next code) (keyAllowed || !rules.bracketed) rest
    else if code = 35 then nextToken rules .comment (p.next code) keyAllowed rest
    else (p, keyAllowed, code :: rest)

end Persona.Yaml
