import Persona.Text.Blank
import Persona.Text.Visible

/-!
# Styles

A style sequence holds numbers with semicolons between them. Most numbers switch a
style on: bold, a colour of the text, a colour behind it. Some switch off, either
everything or the styles of one kind. A colour of the palette takes three numbers,
the last of which is its place in the palette.

What matters for laying out text is which styles are still on after a piece of it,
so that they can be switched off where a line ends and on again in the next one.
-/

namespace Persona

/-- Where a colour is seen: in the characters or behind them. -/
inductive Ground where
  | front
  | back
deriving DecidableEq, Repr

namespace Ground

/-- The number in front of a place in the palette. -/
def number : Ground → Int
  | .front => 38
  | .back => 48

/-- The number that stands for the first colour of the palette. The others follow it. -/
def palette : Ground → Int
  | .front => 1000
  | .back => 2000

/-- The number stands for a colour of the palette. -/
def inPalette (g : Ground) (number : Int) : Bool :=
  g.palette ≤ number && number ≤ g.palette + 255

/-- The number stands for a colour: one of eight, one of the eight bright ones, or one of
the palette. -/
def isColour (g : Ground) (number : Int) : Bool :=
  let first := g.number - 8
  (first ≤ number && number ≤ first + 7) || (first + 60 ≤ number && number ≤ first + 67) ||
    g.inPalette number

end Ground

/-- The numbers of the styles that are on, in ascending order. -/
abbrev Styles : Type := List Int

namespace Styles

/-- The sequence that switches every style off. -/
def off : Text := "\x1b[0m"

/-- The styles with one more. -/
def insert (number : Int) (styles : Styles) : Styles :=
  styles.filter (· < number) ++ [number] ++ styles.filter (number < ·)

/-- The styles without those of a kind. -/
def erase (kind : Int → Bool) (styles : Styles) : Styles :=
  styles.filter fun number => !kind number

/-- What a number does to the styles. -/
def apply (styles : Styles) (number : Int) : Styles :=
  match number with
  | 0 => []
  | 22 => styles.erase fun n => n = 1 || n = 2
  | 23 => styles.erase (· = 3)
  | 24 => styles.erase (· = 4)
  | 25 => styles.erase fun n => n = 5 || n = 6
  | 27 => styles.erase (· = 7)
  | 28 => styles.erase (· = 8)
  | 29 => styles.erase (· = 9)
  | 39 => styles.erase Ground.front.isColour
  | 49 => styles.erase Ground.back.isColour
  | number => styles.insert number

/-- Take a colour from the palette in place of any other one. -/
def paint (styles : Styles) (g : Ground) (place : Int) : Styles :=
  (styles.erase g.isColour).insert (g.palette + place)

/-- The colour of the palette that three parts of a sequence stand for. -/
def paletteColour? (first second third : Option Int) : Option (Ground × Int) :=
  match first, second, third with
  | some number, some 5, some place =>
    if place < 0 || 255 < place then none
    else if number = Ground.front.number then some (.front, place)
    else if number = Ground.back.number then some (.back, place)
    else none
  | _, _, _ => none

/-- The colours of the palette among the parts of a sequence, and the other numbers. A
part that is no number counts for nothing. -/
def sortedOut : (parts : List (Option Int)) → List (Ground × Int) × List Int
  | first :: second :: third :: rest =>
    match paletteColour? first second third with
    | some colour =>
      let (colours, numbers) := sortedOut rest
      (colour :: colours, numbers)
    | none =>
      let (colours, numbers) := sortedOut (second :: third :: rest)
      (colours, first.toList ++ numbers)
  | parts => ([], parts.filterMap id)

/-- The integer of a part of a sequence, if it fits into a signed word. -/
def part? (part : Text) : Option Int :=
  part.trim.integer?.filter fun value => -0x8000000000000000 ≤ value &&
    value < 0x8000000000000000

/-- The styles after an escape sequence. Its colours of the palette come before its other
numbers. -/
def after (styles : Styles) (sequence : List Nat) : Styles :=
  let written : Text := sequence.flatMap Character.encode
  let isCommand := (sequence.find? fun code => code == 91 || code == 93) == some 93
  let inner := if isCommand then (written.eraseFirst "\x1b]").eraseFirst "\\"
    else (written.eraseFirst "\x1b[").eraseFirst "m"
  let (colours, numbers) := sortedOut ((inner.splitAt 59).map part?)
  numbers.foldl apply (colours.foldl (fun styles (g, place) => styles.paint g place) styles)

/-- The styles after a text. -/
def afterText (styles : Styles) (text : Text) : Styles :=
  (Escape.sequences [] text.characters).foldl after styles

/-- The numbers of a style as a sequence holds them. -/
def numeral (number : Int) : Text :=
  let colour? (g : Ground) : Option Text :=
    if g.inPalette number then
      some (Text.ofInt g.number ++ ";5;" ++ Text.ofInt (number - g.palette))
    else none
  ((colour? .front).or (colour? .back)).getD (Text.ofInt number)

/-- The sequence that switches the styles on; nothing if there are none. -/
def text (styles : Styles) : Text :=
  if styles.isEmpty then [] else "\x1b[" ++ Text.join ";" (styles.map numeral) ++ "m"

end Styles

end Persona
