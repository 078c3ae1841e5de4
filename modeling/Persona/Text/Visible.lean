import Persona.Text.Width
import Persona.Text.Character

/-!
# Visible characters

A terminal takes an escape sequence as an order and shows nothing for it, so it
counts for no width. A sequence starts with the escape character. Its first bracket
says what it is: after `[` it sets a style and ends with `m`, after `]` it is a
command and ends with a backslash. A hyperlink is a command with an end of its own.
A sequence without a bracket never ends, and everything after it is invisible.
-/

namespace Persona

namespace Escape

/-- The character that starts a sequence. -/
def start : Nat := 27

/-- The first characters of a hyperlink. -/
def linkStart : List Nat := [start, 93, 56, 59]

/-- One of the two ends of a hyperlink; the other one is the bell. -/
def linkEnd : List Nat := [start, 92]

/-- A sequence that ends with its last character. -/
def isComplete (sequence : List Nat) : Bool :=
  if linkStart.isPrefixOf sequence then
    sequence.getLast? == some 7 || linkEnd.isSuffixOf sequence
  else
    match sequence.find? fun code => code == 91 || code == 93 with
    | some 91 => sequence.getLast? == some 109
    | some _ => sequence.getLast? == some 92
    | none => false

/-- The characters outside escape sequences. `sequence` is what has been read of the
sequence that is still open; it is empty outside. -/
def outside : (sequence : List Nat) → List Character → List Character
  | _, [] => []
  | [], c :: rest => if c.code = start then outside [start] rest else c :: outside [] rest
  | first :: sequence, c :: rest =>
    let longer := first :: sequence ++ [c.code]
    outside (if isComplete longer then [] else longer) rest

/-- The escape sequences that end among the characters, each from its start to its end.
`sequence` is what has been read of the one that is still open; it is empty outside. -/
def sequences : (sequence : List Nat) → List Character → List (List Nat)
  | _, [] => []
  | [], c :: rest => if c.code = start then sequences [start] rest else sequences [] rest
  | first :: sequence, c :: rest =>
    let longer := first :: sequence ++ [c.code]
    if isComplete longer then longer :: sequences [] rest else sequences longer rest

end Escape

namespace Text

/-- The characters of a text that a terminal shows. -/
def visible (text : Text) : List Character := Escape.outside [] text.characters

/-- The cells that characters take on a terminal. -/
def cellsOf (cs : List Character) : Nat :=
  cs.foldr (fun c width => Character.cells c.code + width) 0

/-- The cells a text takes on a terminal. -/
def cells (text : Text) : Nat := cellsOf text.visible

/-- The widest line among characters; `line` is what the current line has
already taken. -/
def widest : (line : Nat) → List Character → Nat
  | line, [] => line
  | line, c :: rest =>
    if c.code = 10 then max line (widest 0 rest) else widest (line + Character.cells c.code)
      rest

/-- The cells the widest line of a text takes. A line break inside an escape sequence is
none. -/
def widestLine (text : Text) : Nat := widest 0 text.visible

end Text

end Persona
