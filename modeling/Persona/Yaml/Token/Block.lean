import Persona.Yaml.Token.Gap

/-!
# Blocks of text

A bar starts a block that keeps its lines, an angle bracket one whose lines are
joined by spaces. How far a block is indented is said behind the bar or follows from
its first line. The breaks at its end are dropped, reduced to one or all kept.
-/

namespace Persona.Yaml

/-- How a block ends: without its last breaks, with one, or with all of them. -/
inductive Chomping where
  | strip | clip | keep
deriving DecidableEq, Repr

/-- The marks behind the bar: how the block ends and how far it is indented; no
indentation is zero. -/
structure BlockMarks where
  chomping : Chomping := .clip
  indent : Nat := 0

/-- The sign that says how a block ends. -/
def chompingSign? (code : Nat) : Option Chomping :=
  if code = 43 then some .keep else if code = 45 then some .strip else none

/-- A digit as an indentation. Zero is none. -/
def indentSign? (code : Nat) : Option Nat :=
  if 49 ≤ code && code ≤ 57 then some (code - 48) else none

/-- The marks behind the bar, in either order, and what follows them. -/
def blockMarks : List Nat → BlockMarks × List Nat
  | [] => ({}, [])
  | a :: rest =>
    match chompingSign? a, indentSign? a, rest with
    | some chomping, _, b :: more =>
      match indentSign? b with
      | some indent => (⟨chomping, indent⟩, more)
      | none => (⟨chomping, 0⟩, rest)
    | some chomping, _, [] => (⟨chomping, 0⟩, [])
    | none, some indent, b :: more =>
      match chompingSign? b with
      | some chomping => (⟨chomping, indent⟩, more)
      | none => (⟨.clip, indent⟩, rest)
    | none, some indent, [] => (⟨.clip, indent⟩, [])
    | none, none, _ => ({}, a :: rest)

/-- The indentation and the empty lines before the next line that says something. -/
structure Margin where
  column : Nat
  widest : Nat
  breaks : List Nat
  rest : List Nat

/-- Skip indentation, up to `indent` if that is known, and empty lines. A tab may not
stand in the indentation. -/
def margin? (indent : Nat) : (column widest : Nat) → (breaks : List Nat) → List Nat →
    Option Margin
  | column, widest, breaks, [] => some ⟨column, max widest column, breaks, []⟩
  | column, widest, breaks, code :: rest =>
    let inside := indent = 0 || column < indent
    if code = 32 && inside then margin? indent (column + 1) widest breaks rest
    else if code = 9 && inside then none
    else if isBreakCode code then
      margin? indent 0 (max widest column) (breaks ++ [breakContent code]) rest
    else some ⟨column, max widest column, breaks, code :: rest⟩

/-- A block of which some lines are read: its text, the break of the last line and the
empty lines behind it, and whether the last line started with a blank. -/
structure BlockText where
  text : List Nat := []
  lastBreak : List Nat := []
  emptyLines : List Nat := []
  indented : Bool := false

/-- One more line. Where lines are joined a single break between two lines that start with
no blank becomes a space, and of several the first is dropped. -/
def BlockText.add (joined : Bool) (b : BlockText) (line : List Nat) : BlockText :=
  let indented := (line.head?.map isBlankCode).getD false
  let between :=
    if joined && !b.indented && !indented && b.lastBreak = [10] then
      if b.emptyLines.isEmpty then [32] else b.emptyLines
    else b.lastBreak ++ b.emptyLines
  { text := b.text ++ between ++ line, indented := indented }

/-- The whole text. -/
def BlockText.close (b : BlockText) : Chomping → List Nat
  | .strip => b.text
  | .clip => b.text ++ b.lastBreak
  | .keep => b.text ++ b.lastBreak ++ b.emptyLines

/-- Read the lines of a block, which are indented by `indent`, from a margin on. The
result comes with what follows the block. -/
def blockLines (joined : Bool) (indent : Nat) : (fuel : Nat) → BlockText → Margin →
    Option (BlockText × List Nat)
  | 0, _, _ => none
  | fuel + 1, b, m =>
    let b := { b with emptyLines := m.breaks }
    if m.column != indent || m.rest.isEmpty then some (b, m.rest)
    else
      let line := m.rest.takeWhile fun code => !isBreakCode code
      let read := b.add joined line
      match m.rest.drop line.length with
      | [] => some (read, [])
      | code :: rest =>
        match margin? indent 0 0 [] rest with
        | none => none
        | some next =>
          blockLines joined indent fuel { read with lastBreak := [breakContent code] } next

/-- The text of a block behind the bar, and what follows it. `least` is the first column
in which it can stand. -/
def block? (joined : Bool) (least : Nat) (codes : List Nat) :
    Option (List Nat × List Nat) := do
  let (marks, behind) := blockMarks codes
  let rest ← lineEnd? behind
  let known := if marks.indent = 0 then 0 else least - 1 + marks.indent
  let m ← margin? known 0 0 [] rest
  let indent := if known = 0 then max (max m.widest least) 1 else known
  let (text, left) ← blockLines joined indent (codes.length + 1) {} m
  return (text.close marks.chomping, left)

end Persona.Yaml
