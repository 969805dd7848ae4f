import SchemaValidation.Text.Width

/-!
# Tables

A table with a header, drawn with lines between its cells.  A column is as wide as its widest line,
and its cells are filled up with blanks on the right.  A cell of several lines makes its row as
high.
-/

namespace SchemaValidation

namespace Text

structure Table where
  header : List String
  rows : List (List String)

/-- A drawn line: its two ends, what it is filled with, and where it crosses a column border. -/
structure Rule where
  left : String
  fill : Char
  cross : String
  right : String

namespace Table

def top : Rule := ⟨"┌", '─', "┬", "┐"⟩

def underHeader : Rule := ⟨"╞", '═', "╪", "╡"⟩

def betweenRows : Rule := ⟨"├", '╌', "┼", "┤"⟩

def bottom : Rule := ⟨"└", '─', "┴", "┘"⟩

def cellLines (cell : String) : List String := cell.splitOn "\n"

/-- The width of the widest line in some cells. -/
def columnWidth (cells : List String) : Nat :=
  ((cells.flatMap cellLines).map width).foldl max 0

/-- The widths of the columns. -/
def columnWidths (t : Table) : List Nat :=
  (List.range t.header.length).map fun column =>
    columnWidth ((t.header :: t.rows).map fun row => row.getD column "")

/-- A line across the table. -/
def drawRule (widths : List Nat) (r : Rule) : String :=
  r.left ++ r.cross.intercalate (widths.map fun w => .ofList (.replicate (w + 2) r.fill)) ++ r.right

/-- A line filled up with blanks to some width, with a blank on either side. -/
def fillUp (w : Nat) (line : String) : String :=
  " " ++ line ++ .ofList (.replicate (w - width line) ' ') ++ " "

/-- The lines of a row. -/
def drawRow (widths : List Nat) (row : List String) : List String :=
  let cells := row.map cellLines
  let height := (cells.map List.length).foldl max 0
  (List.range height).map fun n =>
    "│" ++ "┆".intercalate ((cells.zip widths).map fun (lines, w) => fillUp w (lines.getD n "")) ++
      "│"

/-- The lines of some rows, with a rule between one row and the next. -/
def drawRows (widths : List Nat) : List (List String) → List String
  | [] => []
  | [row] => drawRow widths row
  | row :: rows => drawRow widths row ++ drawRule widths betweenRows :: drawRows widths rows

/-- The lines of the table. -/
def draw (t : Table) : List String :=
  let widths := t.columnWidths
  drawRule widths top :: drawRow widths t.header ++ drawRule widths underHeader ::
    drawRows widths t.rows ++ [drawRule widths bottom]

end Table

end Text

end SchemaValidation
