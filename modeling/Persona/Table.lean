import Persona.Text.Visible
import Persona.Text.Upper

/-!
# Tables

A table has an optional title, header and footer and any number of rows, which
may be of different lengths. It is drawn in a box for a terminal or written as
Markdown.

Columns of numbers are aligned to the right: a column is numeric when no row
puts a text into it, so a column that no row reaches is numeric too. Columns can
also be told to align their rows to the right, which leaves header and footer
alone. They are counted from one; zero stands for the first column without a name.
-/

namespace Persona

/-- A cell holds a text or a number. -/
inductive Cell where
  | text (value : Text)
  | number (value : Int)
deriving DecidableEq, Repr

instance : Coe Text Cell := ⟨Cell.text⟩

/-- A table before it is drawn. The title is a template that is given no values. -/
structure Table where
  title : Text := []
  header : Option (List Text) := none
  rows : List (List Cell) := []
  footer : Option (List Cell) := none
  rightAligned : List Int := []

namespace Cell

/-- The cell holds a number. -/
def isNumber : Cell → Bool
  | .number _ => true
  | .text _ => false

/-- Write over the beginning of a line that is already there. -/
def overwrite : (line later : List Character) → List Character
  | line, [] => line
  | [], later => later
  | _ :: line, c :: later => c :: overwrite line later

/-- A line in which every carriage return goes back to the start. Such a line is written
anew, so its undecodable bytes come out as U+FFFD. -/
def returned (line : Text) : Text :=
  match line.toUtf8.splitAt 13 with
  | first :: next :: others =>
    Text.ofCharacters <|
      (next :: others).foldl (fun shown part => overwrite shown part.characters)
        first.characters
  | _ => line

/-- The text of a cell as it is laid out: a tab is four spaces, a carriage return before a
line break is dropped and any other one is resolved. -/
def prepared (text : Text) : Text :=
  let spaced := Text.replacePair 13 10 [10] (text.replaceByte 9 "    ")
  Text.join [10] ((spaced.splitAt 10).map returned)

/-- What a cell shows. -/
def shown : Cell → Text
  | .text value => prepared value
  | .number value => Text.ofInt value

end Cell

namespace Table

/-- The cells of the header. -/
def headerCells (t : Table) : Option (List Text) :=
  t.header.map fun names => names.map Cell.prepared

/-- The cells of the rows. -/
def rowCells (t : Table) : List (List Text) :=
  t.rows.map fun row => row.map Cell.shown

/-- The cells of the footer. -/
def footerCells (t : Table) : Option (List Text) :=
  t.footer.map fun row => row.map Cell.shown

/-- The number of columns is that of the longest header, row or footer. -/
def columns (t : Table) : Nat :=
  ((t.header.toList.map List.length) ++ t.rows.map List.length ++
    t.footer.toList.map List.length).foldl max 0

/-- No row puts a text into the column. -/
def isNumeric (t : Table) (column : Nat) : Bool :=
  t.rows.all fun row => ((row[column]?).map Cell.isNumber).getD true

/-- The column that a number given for right alignment stands for, counted from one. -/
def rightColumn (t : Table) (number : Int) : Int :=
  if number = 0 then
    match (t.header.getD []).findIdx? List.isEmpty with
    | some column => (column : Int) + 1
    | none => 0
  else number

/-- The rows of the column are aligned to the right. -/
def alignsRight (t : Table) (column : Nat) : Bool :=
  t.isNumeric column || (t.rightAligned.map t.rightColumn).contains ((column : Int) + 1)

/-- A row filled up with empty cells. -/
def filled (columns : Nat) (row : List Text) : List Text :=
  row ++ List.replicate (columns - row.length) []

end Table

end Persona
