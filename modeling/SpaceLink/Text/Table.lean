import SpaceLink.Text.Split

/-! # Tables

Rows of cells in a frame. A double line stands below the headings, a dashed line between two rows
and between two columns. A column is as wide as its widest line, and every character takes one place.
-/
namespace SpaceLink.Text

structure Table where
  headings : List String
  rows : List (List String)

namespace Table

/-- The lines of each cell of a row. -/
abbrev Row := List (List (List Char))

def rowOf (cells : List String) : Row := cells.map fun cell => lines cell.toList

def greatest (numbers : List Nat) : Nat := numbers.foldl max 0

def widths (columns : Nat) (rows : List Row) : List Nat :=
  (List.range columns).map fun column =>
    greatest (rows.flatMap fun row => (row.getD column []).map List.length)

def fill (width : Nat) (text : List Char) : List Char :=
  text ++ List.replicate (width - text.length) ' '

/-- A line across the table: its two ends, what it is drawn with and how it crosses the columns. -/
def rule (first line crossing last : String) (widths : List Nat) : String :=
  first ++ crossing.intercalate (widths.map fun width =>
    "".intercalate (List.replicate (width + 2) line)) ++ last

def cellLine (widths : List Nat) (cells : List (List Char)) : String :=
  "│ " ++ " ┆ ".intercalate ((widths.zip cells).map fun (width, cell) =>
    String.ofList (fill width cell)) ++ " │"

/-- The lines of a row, as many as its highest cell has. -/
def rowLines (widths : List Nat) (row : Row) : List String :=
  (List.range (greatest (row.map List.length))).map fun i =>
    cellLine widths (row.map fun cell => cell.getD i [])

def render (table : Table) : String :=
  let headings := rowOf table.headings
  let rows := table.rows.map rowOf
  let widths := widths table.headings.length (headings :: rows)
  let between := rule "├" "╌" "┼" "┤" widths
  "\n".intercalate
    ([rule "┌" "─" "┬" "┐" widths] ++ rowLines widths headings ++ [rule "╞" "═" "╪" "╡" widths] ++
      [between].intercalate (rows.map (rowLines widths)) ++ [rule "└" "─" "┴" "┘" widths])

end Table
end SpaceLink.Text
