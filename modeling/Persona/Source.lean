import Persona.Text.Character

/-!
# Places in a source

A source is a named text. Errors name a place in it by line and column, both
counted from one; a column counts characters, so a line with accents is counted as a
person reads it. The lines are found once and then searched, because every token
of a document may be asked for its place.
-/

namespace Persona

/-- The part of a text from the start of one line to the end of the text. -/
structure Line where
  start : Nat
  tail : Text
deriving DecidableEq, Repr

/-- A named text with the beginnings of its lines. -/
structure Source where
  name : Text
  content : Text
  lines : List Line
deriving DecidableEq, Repr

/-- A span of a source, by the line and column of its two ends. -/
structure Location where
  file : Text
  startLine : Nat
  startColumn : Nat
  endLine : Nat
  endColumn : Nat
deriving DecidableEq, Repr

/-- How a source without a name is called. -/
def displayName (name : Text) : Text :=
  if name.isEmpty then "<input>" else name

/-- A location is shown by the file and the place where it starts. -/
def Location.text (l : Location) : Text :=
  displayName l.file ++ ":" ++ Text.ofNat l.startLine ++ ":" ++ Text.ofNat l.startColumn

namespace Source

/-- The lines that begin after a line feed of `text`, which itself begins at `offset`. -/
def linesAfterFeeds : (offset : Nat) → Text → List Line
  | _, [] => []
  | offset, b :: rest =>
    if b = 10 then ⟨offset + 1, rest⟩ :: linesAfterFeeds (offset + 1) rest
    else linesAfterFeeds (offset + 1) rest

/-- Index a text by its lines. The first line begins at the text itself, so there is
always one. -/
def ofText (name content : Text) : Source :=
  ⟨name, content, ⟨0, content⟩ :: linesAfterFeeds 0 content⟩

/-- An offset moved into the content. -/
def clamp (s : Source) (offset : Int) : Nat :=
  min offset.toNat s.content.length

/-- The line and column of an offset: the last line that begins at or before it, and
one more than the characters between. -/
def lineColumn (s : Source) (offset : Int) : Nat × Nat :=
  let position := s.clamp offset
  let reached := s.lines.takeWhile fun line => line.start ≤ position
  match reached.getLast? with
  | some line =>
    (reached.length, (Text.characters (line.tail.take (position - line.start))).length + 1)
  | none => (1, 1)

/-- The location of the bytes from `start` up to `stop`; a span that would end before it
starts is empty. -/
def span (s : Source) (start stop : Int) : Location :=
  let first := s.lineColumn start
  let last := s.lineColumn (max start stop)
  ⟨s.name, first.1, first.2, last.1, last.2⟩

end Source

end Persona
