import StyledTemplate.Document.Basic

/-!
# Building tables

A table has a grid of columns, and each cell of a row takes up as many columns as it spans. A row is
bad if it does not take up as many columns as the grid has.
-/

namespace StyledTemplate

variable {β : Type}

/-- The number of grid columns a row takes up. -/
def Row.gridColumns (row : Row β) : Nat :=
  row.cells.foldl (fun columns cell => columns + max cell.properties.gridSpan.toNat 1) 0

/-- The indices of the rows that do not fit the grid. -/
def Table.badRows (table : Table (Row β)) : List Nat :=
  (table.rows.zipIdx.filter fun row => row.1.gridColumns ≠ table.grid.length).map Prod.snd

/-- The cell in a row and a column, counted from zero. -/
def Table.cell? (table : Table (Row β)) (row column : Nat) : Option (Cell β) :=
  (table.rows[row]?).bind fun r => r.cells[column]?

/-- The table with the cell in a row and a column changed, if there is one. -/
def Table.modifyCell (table : Table (Row β)) (row column : Nat) (f : Cell β → Cell β) :
    Table (Row β) :=
  { table with rows := table.rows.modify row fun r => { r with cells := r.cells.modify column f } }

/-- The width of the columns of a new table, in twips. -/
def defaultColumnWidth : UInt32 := 2000

/-- A cell of one plain paragraph. -/
def Cell.ofText (text : String) : Cell Element := { body := [.paragraph (.ofText text)] }

/-- A row of plain cells. -/
def Row.ofTexts (texts : List String) : Row Element := { cells := texts.map Cell.ofText }

/-- A table with columns of one width, each cell holding an empty paragraph. -/
def Table.blank (rows columns : Nat) : Table (Row Element) where
  grid := List.replicate columns defaultColumnWidth
  rows := List.replicate rows
    { cells := List.replicate columns
        { properties := { width := some defaultColumnWidth }, body := [.paragraph {}] } }

/-- A table of plain cells. Its grid is as wide as its widest row, and each cell gets the width of
its column. -/
def Table.ofTexts (texts : List (List String)) : Table (Row Element) :=
  let rows := texts.map Row.ofTexts
  let columns := (rows.map Row.gridColumns).foldl max 0
  { grid := List.replicate columns defaultColumnWidth
    rows := rows.map fun row =>
      { row with cells := row.cells.map fun cell =>
          { cell with properties := { cell.properties with width := some defaultColumnWidth } } } }

/-- The table with a row added at its end. -/
def Table.addRow (table : Table (Row β)) (row : Row β) : Table (Row β) :=
  { table with rows := table.rows ++ [row] }

namespace Document

/-- The last table of the document, those in tables left out. -/
def lastTable? (d : Document) : Option (Table (Row Element)) := d.tables.getLast?

/-- Changes the first table among some elements. -/
def modifyFirstTable (f : Table (Row Element) → Table (Row Element)) : List Element → List Element
  | [] => []
  | .table t :: rest => .table (f t) :: rest
  | .paragraph p :: rest => .paragraph p :: modifyFirstTable f rest

/-- The document with its last table changed. -/
def modifyLastTable (d : Document) (f : Table (Row Element) → Table (Row Element)) : Document :=
  ⟨(modifyFirstTable f d.body.reverse).reverse⟩

/-- The document with a run added at its end: to its last element if that is a paragraph, and
otherwise in a paragraph of its own. -/
def addRun (d : Document) (run : Run) : Document :=
  match d.body.getLast? with
  | some (.paragraph p) =>
    ⟨d.body.dropLast ++ [.paragraph { p with runs := p.runs ++ [run] }]⟩
  | _ => d.add (.paragraph (.ofRuns [run]))

end Document

end StyledTemplate
