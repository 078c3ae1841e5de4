import Persona.Table.Boxed

/-!
# Tables in Markdown

One line a row, without padding. A bar in a cell is escaped and a line break is
written as a tag. The separator line, which says how columns are aligned, is
there only when there is a header.
-/

namespace Persona

namespace Table

/-- A cell as Markdown writes it. -/
def markdownCell (cell : Text) : Text :=
  (cell.replaceByte 124 "\\|").replaceByte 10 "<br/>"

/-- A cell with the bar after it. -/
def markdownField (cell : Text) : Text := " " ++ markdownCell cell ++ " |"

/-- A row between bars. -/
def markdownRow (columns : Nat) (row : List Text) : Text :=
  "|" ++ (filled columns row).flatMap markdownField

/-- The part of the separator line below one column. -/
def markdownRulePart (right : Bool) : Text := if right then " ---:|" else " --- |"

/-- The separator line. -/
def markdownRule (t : Table) : Text :=
  let parts : List Text := (List.range t.columns).map fun column =>
    markdownRulePart (t.alignsRight column)
  "|" ++ parts.flatten

/-- The table in Markdown. -/
def markdown (t : Table) : Text :=
  if t.columns = 0 then []
  else
    let title : List Text := if t.title.isEmpty then [] else ["# " ++ Template.expand t.title]
    let row := markdownRow t.columns
    let header := match t.headerCells with
      | some names => [row names, t.markdownRule]
      | none => []
    Text.join [10] (title ++ header ++ t.rowCells.map row ++ t.footerCells.toList.map row)

/-- The two ways to write a table. -/
inductive Mode where
  | boxed | markdown
deriving DecidableEq, Repr

/-- Markdown by either of its names; any other word asks for a box. -/
def Mode.ofWord (word : Text) : Mode :=
  if word = "markdown" || word = "md" then .markdown else .boxed

/-- The table in a mode. -/
def render (t : Table) : Mode → Text
  | .boxed => t.boxed
  | .markdown => t.markdown

end Table

end Persona
