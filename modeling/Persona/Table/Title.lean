import Persona.Table
import Persona.Text.Blank
import Persona.Text.Style
import Persona.Text.Template

/-!
# Titles in a box

A title is a template without values. In a box it keeps to the width of the table.
A title that is no wider than a line, line breaks aside, is shown as it is. Any other
is filled line by line: its words come one after another with one space between two
of them, and a word that does not fit into what is left of a line is cut at its end.
A style that is still on where a line ends is switched off there and on again in the
next one.
-/

namespace Persona.Table

/-- A title of which the first words are laid out: what is written, and how many places of
the last line are taken. -/
structure Filling where
  written : Text := []
  line : Nat := 0

namespace Filling

/-- Write something that takes a number of places. -/
def add (f : Filling) (written : Text) (places : Nat) : Filling :=
  { written := f.written ++ written, line := f.line + places }

/-- End the line and go on in the next one with a style. -/
def breakLine (f : Filling) (style : Text) : Filling :=
  { written := f.written ++ (if style.isEmpty then [] else Styles.off) ++ "\n" ++ style,
    line := 0 }

end Filling

/-- A word that is being cut: the lines so far, the style sequence read last, and whether
it is still open. -/
structure Cutting where
  filling : Filling
  style : Text
  inside : Bool := false

/-- Write one character of a word that is cut. A character of an escape sequence takes no
place and starts no line, and any sequence ends with the first `m`. -/
def Cutting.add (width : Nat) (k : Cutting) (c : Character) : Cutting :=
  let bytes := Character.encode c.code
  let (style, inside) := if c.code = Escape.start then ([], true) else (k.style, k.inside)
  let style := if inside then style ++ bytes else style
  let f := if k.filling.line = width && !inside then k.filling.breakLine style else k.filling
  { filling := f.add bytes (if inside then 0 else 1),
    style := if style = Styles.off then [] else style,
    inside := inside && c.code != 109 }

/-- Write a word, in one piece if it fits into the rest of the line. -/
def Filling.addWord (width : Nat) (style : Text) (f : Filling) (word : Text) : Filling :=
  let f := if 0 < f.line then f.add " " 1 else f
  if f.line + word.cells ≤ width then f.add word word.cells
  else (word.characters.foldl (Cutting.add width) { filling := f, style := style }).filling

/-- Lay out words. `styles` are on after those before them, and `style` is the sequence
for the last styles there were. A line that is full is ended when a word follows, and at
the end the style is switched off unless that has just been done. -/
def fill (width : Nat) : (styles : Styles) → (style : Text) → Filling → List Text → Text
  | _, style, f, [] =>
    if style.isEmpty || Styles.off.isSuffixOf f.written then f.written else f.written ++
      Styles.off
  | styles, style, f, word :: rest =>
    let styles := styles.afterText word
    let style := if styles.isEmpty then style else styles.text
    let f := f.addWord width style word
    fill width styles style
      (if f.line = width && !rest.isEmpty then f.breakLine style else f) rest

/-- The lines of a title that are to be at most `width` wide. -/
def titleLines (width : Nat) (title : Text) : List Text :=
  let spaced := title.replaceByte 9 "    "
  let laid : Text :=
    if width = 0 then []
    else if spaced.cells ≤ width then spaced
    else Text.join [10] ((spaced.splitAt 10).map fun line => fill width [] [] {} line.words)
  (laid.splitAt 10).map Text.trim

end Persona.Table
