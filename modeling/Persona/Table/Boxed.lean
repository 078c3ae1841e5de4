import Persona.Table.Title

/-!
# Tables in a box

Every column is as wide as its widest line, with one space on either side. The
header is in capitals; a rule follows it even when nothing else does, and another
stands before the footer when there are rows. A title has a box of its own above
the columns. Nothing is drawn for a row without cells, nor for a table without
columns. A footer that stands alone, without a title, has a rule above it that
leaves out the columns.
-/

namespace Persona.Table

/-- The part of a row at the place of a rule. -/
structure Rule where
  left : Text
  middle : Text
  right : Text

/-- The rule above a table without a title. -/
def Rule.top : Rule := ⟨"┌", "┬", "┐"⟩

/-- The rule above a title. -/
def Rule.titleTop : Rule := ⟨"┌", "─", "┐"⟩

/-- The rule between a title and the columns. -/
def Rule.belowTitle : Rule := ⟨"├", "┬", "┤"⟩

/-- The rule between two parts of a table. -/
def Rule.between : Rule := ⟨"├", "┼", "┤"⟩

/-- The rule below a table. -/
def Rule.bottom : Rule := ⟨"└", "┴", "┘"⟩

/-- A rule whose parts over the columns have the given lengths. -/
def Rule.across (r : Rule) (lengths : List Nat) : Text :=
  r.left ++ Text.join r.middle (lengths.map fun length => Text.repeated length "─") ++ r.right

/-- A rule across columns of the given widths. -/
def Rule.draw (r : Rule) (widths : List Nat) : Text := r.across (widths.map (· + 2))

/-- A capital for every character of a line outside escape sequences. Here any sequence
ends with the first `m`. -/
def capitals : (inside : Bool) → List Character → Text
  | _, [] => []
  | inside, c :: rest =>
    let inside := inside || c.code = 27
    Character.encode (if inside then c.code else Character.upper c.code) ++
      capitals (inside && c.code != 109) rest

/-- The lines of a cell. -/
def linesOf (cell : Text) : List Text := cell.splitAt 10

/-- A cell in capitals, line by line. -/
def capitalLines (cell : Text) : Text :=
  Text.join [10] ((linesOf cell).map fun line => capitals false line.characters)

/-- A line with the spaces it needs to be `width` wide. Spaces at the side that is filled
are dropped first. -/
def aligned (right : Bool) (width : Nat) (line : Text) : Text :=
  let isSpace (b : UInt8) : Bool := b = 32
  if right then
    let kept : Text := line.dropWhile isSpace
    Text.repeated (width - kept.cells) " " ++ kept
  else
    let kept : Text := (line.reverse.dropWhile isSpace).reverse
    kept ++ Text.repeated (width - kept.cells) " "

/-- The widths of the columns. -/
def widths (t : Table) : List Nat :=
  let all := t.headerCells.toList ++ t.rowCells ++ t.footerCells.toList
  (List.range t.columns).map fun column =>
    (all.map fun row => ((row[column]?).map Text.widestLine).getD 0).foldl max 0

/-- One line of a row: cells with a space on either side and bars between. -/
def drawLine (cells : List Text) : Text :=
  "│" ++ Text.join "│" (cells.map fun cell => " " ++ cell ++ " ") ++ "│"

/-- The lines of a row, as many as its tallest cell has; `right` says of each column
whether it is aligned to the right. A row without cells has no lines. -/
def drawRow (widths : List Nat) (right : List Bool) (row : List Text) : List Text :=
  if row.isEmpty then [] else
  let cells := (filled widths.length row).map linesOf
  let height := (cells.map List.length).foldl max 1
  (List.range height).map fun line =>
    drawLine ((cells.zip (widths.zip right)).map fun (cell, width, right) =>
      aligned right width ((cell[line]?).getD []))

/-- The rule on top; a title has a box of its own, as wide as the columns. `lengths` are
those of the parts of the rule above the columns when there is no title. -/
def drawTop (title : Text) (widths lengths : List Nat) : List Text :=
  if title.isEmpty then [Rule.top.across lengths]
  else
    let inside := widths.foldr (fun width all => width + 3 + all) 0 - 3
    [Rule.titleTop.draw widths] ++
      (titleLines inside (Template.expand title)).map
        (fun line => "│ " ++ aligned false inside line ++ " │") ++
      [Rule.belowTitle.draw widths]

/-- The table drawn in a box. -/
def boxed (t : Table) : Text :=
  if t.columns = 0 then []
  else
    let widths := t.widths
    let numeric := (List.range t.columns).map t.isNumeric
    let right := (List.range t.columns).map t.alignsRight
    let rule := Rule.between.draw widths
    let header := match t.headerCells with
      | some names =>
        drawRow widths numeric (names.map capitalLines) ++ [rule]
      | none => []
    let footer := match t.footerCells with
      | some cells => (if t.rows.isEmpty then [] else [rule]) ++ drawRow widths numeric cells
      | none => []
    let onlyFooter := t.header.isNone && t.rows.isEmpty
    let lengths := widths.map fun width => if onlyFooter then 0 else width + 2
    Text.join [10] (drawTop t.title widths lengths ++ header ++
      t.rowCells.flatMap (drawRow widths right) ++ footer ++ [Rule.bottom.draw widths])

end Persona.Table
