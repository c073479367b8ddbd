import PlaylistRules.Text.Width

/-!
# Tables

A table of texts drawn with ASCII lines. A cell with several lines makes its row taller, and a
column is as wide as its widest line.

## Main definitions

* `Output.Table` : a header and rows of texts.
* `Output.Table.draw` : the drawing of a table.
-/

namespace PlaylistRules.Output

/-- A header and rows of texts. -/
structure Table where
  header : List String
  rows : List (List String)
deriving DecidableEq, Repr

/-- The lines of a text. A line feed at the end starts an empty line. -/
def lines : List Char → List (List Char)
  | [] => [[]]
  | c :: cs =>
    if c = '\n' then [] :: lines cs
    else match lines cs with
      | [] => [[c]]
      | line :: rest => (c :: line) :: rest

/-- The lines of the cells of a row. -/
abbrev Cells := List (List (List Char))

/-- The number of columns that the widest line of a cell takes. -/
def cellWidth (cell : List (List Char)) : Nat :=
  (cell.map Text.columns).foldl max 0

/-- The larger of two widths in every column, where a row may be shorter than another. -/
def widenBy : List Nat → List Nat → List Nat
  | [], widths => widths
  | widths, [] => widths
  | a :: as, b :: bs => max a b :: widenBy as bs

/-- The widths of the columns, at least one each. -/
def columnWidths (rows : List Cells) : List Nat :=
  (rows.foldl (fun widths row => widenBy widths (row.map cellWidth)) []).map (max 1)

/-- A line of a cell with blanks up to a width. -/
def padCell (width : Nat) (line : List Char) : List Char :=
  ' ' :: (line ++ List.replicate (width - Text.columns line) ' ' ++ [' '])

/-- Texts with a character between them. -/
def joinWith (separator : Char) : List (List Char) → List Char
  | [] => []
  | [cs] => cs
  | cs :: rest => cs ++ separator :: joinWith separator rest

/-- The line of a row at a height. Cells with fewer lines are blank there. -/
def drawLine (widths : List Nat) (row : Cells) (height : Nat) : List Char :=
  let cells := widths.mapIdx fun i width =>
    padCell width (((row[i]?).getD [])[height]?.getD [])
  '|' :: (joinWith '|' cells ++ ['|'])

/-- The lines of a row, at least one when there are columns. -/
def drawRow (widths : List Nat) (row : Cells) : List (List Char) :=
  let height := (row.map List.length).foldl max (min 1 widths.length)
  (List.range height).map (drawLine widths row)

/-- A horizontal line of a character, with the characters at its ends and between columns. -/
def drawRule (ends fill crossing : Char) (widths : List Nat) : List Char :=
  ends :: (joinWith crossing (widths.map fun width => List.replicate (width + 2) fill) ++ [ends])

/-- The lines of the rows with a rule between each two. -/
def drawRows (widths : List Nat) : List Cells → List (List Char)
  | [] => []
  | [row] => drawRow widths row
  | row :: rows => drawRow widths row ++ drawRule '|' '-' '+' widths :: drawRows widths rows

/-- The drawing of a table. -/
def Table.draw (table : Table) : String :=
  let header := table.header.map fun cell => lines cell.toList
  let rows := table.rows.map fun row => row.map fun cell => lines cell.toList
  let widths := columnWidths (header :: rows)
  let border := drawRule '+' '-' '+' widths
  String.ofList (joinWith '\n' ([border] ++ drawRow widths header ++
    [drawRule '+' '=' '=' widths] ++ drawRows widths rows ++ [border]))

end PlaylistRules.Output
