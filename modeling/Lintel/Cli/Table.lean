import Lintel.Text.Lines

/-!
# Tables

A table with a title is framed by lines; each column is as wide as its widest cell (`Table.lines`).
-/

namespace Lintel.Cli

/-- A column: its heading and its least width. -/
structure Column where
  heading : String
  least : Nat := 0

/-- A table. -/
structure Table where
  title : String
  columns : List Column
  rows : List (List String)

/-- A horizontal line of a frame: its left end, its body, its crossings and its right end. -/
structure Stroke where
  left : String
  body : String
  crossing : String
  right : String

namespace Table

/-- The text with blanks after it up to a width. -/
def padded (width : Nat) (text : String) : String :=
  text ++ "".pushn ' ' (width - text.length)

/-- The cells of a column. -/
def cellsOf (table : Table) (index : Nat) : List String :=
  table.rows.map fun row => (row[index]?).getD ""

/-- The widths of the columns. -/
def widths (table : Table) : List Nat :=
  table.columns.zipIdx.map fun (column, index) =>
    (table.cellsOf index).foldl (fun width cell => max width cell.length)
      (max column.least column.heading.length)

/-- A row between vertical strokes. -/
def row (stroke : String) (widths : List Nat) (cells : List String) : String :=
  let cell := fun (width, text) => " " ++ padded width text ++ " "
  stroke ++ stroke.intercalate ((widths.zip cells).map cell) ++ stroke

/-- A horizontal line. -/
def rule (widths : List Nat) (stroke : Stroke) : String :=
  let part := fun (width : Nat) => String.join (List.replicate (width + 2) stroke.body)
  stroke.left ++ stroke.crossing.intercalate (widths.map part) ++ stroke.right

/-- The text in the middle of a line. -/
def centred (width : Nat) (text : String) : String :=
  let spare := width - text.length
  padded width ("".pushn ' ' (spare / 2) ++ text)

/-- The lines of a table. -/
def lines (table : Table) : List String :=
  let widths := table.widths
  let top := rule widths ⟨"┏", "━", "┳", "┓"⟩
  [centred top.length table.title, top, row "┃" widths (table.columns.map (·.heading)),
    rule widths ⟨"┡", "━", "╇", "┩"⟩]
    ++ table.rows.map (row "│" widths) ++ [rule widths ⟨"└", "─", "┴", "┘"⟩]

end Table

end Lintel.Cli
