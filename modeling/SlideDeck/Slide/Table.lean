import SlideDeck.Inline.Format
import SlideDeck.Notice

/-!
# Tables

A table is written on a slide as rows of cells between pipes. The first row is
the header and fixes the number of columns; a row of dashes below it separates
it from the data. On the page the table is centered and ruled.
-/

set_option autoImplicit false

namespace SlideDeck.Table

open SlideDeck SlideDeck.Text

/-! ## Reading rows -/

/-- Whether the line belongs to a table. -/
def isRow (line : Text) : Bool := startsWith ['|'] (trimStart line)

/-- The list without its first element, if that is the empty text. -/
def dropEmptyFirst : List Text → List Text
  | [] :: cells => cells
  | cells => cells

/-- The list without its last element, if that is the empty text. -/
def dropEmptyLast : List Text → List Text
  | [] => []
  | [[]] => []
  | cell :: cells => cell :: dropEmptyLast cells

/-- The trimmed cells of a row. The empty outer cells that the first and the last
pipe make are no cells; empty inner cells are. -/
def cellsOf (line : Text) : List Text :=
  dropEmptyLast (dropEmptyFirst ((splitAt '|' (trim line)).map trim))

/-! ## The separator row -/

/-- How far a separator row has been read. -/
inductive SeparatorState where
  /-- Nothing yet: a pipe may open the row. -/
  | start
  /-- Before the dashes of a cell, which have to come. -/
  | cell
  /-- Behind the colon in front of the dashes. -/
  | colon
  /-- Among the dashes. -/
  | dashes
  /-- Behind the dashes and the colon or the blanks that may follow them. -/
  | closed
  /-- Behind a pipe that ends a cell: the row may end, or a cell may come. -/
  | pipe
  deriving DecidableEq, Repr

namespace SeparatorState

/-- The state in which a cell is entered with its first character. -/
def enterCell (c : Char) : Option SeparatorState :=
  if isBlank c then some cell
  else if c = ':' then some colon
  else if c = '-' then some dashes
  else none

/-- Reads one more character. -/
def step : SeparatorState → Char → Option SeparatorState
  | start, c => if c = '|' then some cell else enterCell c
  | cell, c => enterCell c
  | colon, c => if c = '-' then some dashes else none
  | dashes, c =>
    if c = '-' then some dashes
    else if c = ':' || isBlank c then some closed
    else if c = '|' then some pipe
    else none
  | closed, c =>
    if isBlank c then some closed else if c = '|' then some pipe else none
  | pipe, c => enterCell c

/-- Whether the row may end here. -/
def accepts : SeparatorState → Bool
  | dashes | closed | pipe => true
  | start | cell | colon => false

/-- Whether the rest of the row can be read from here. -/
def run : SeparatorState → Text → Bool
  | state, [] => state.accepts
  | state, c :: cs =>
    match state.step c with
    | some next => run next cs
    | none => false

end SeparatorState

/-- Whether the line is the row between header and data: cells of dashes, each
with an optional colon at either end. -/
def isSeparator (line : Text) : Bool := SeparatorState.start.run (trim line)

/-! ## Writing tables -/

/-- The end of a row of the page. -/
def rowEnd : Text := " \\\\".toList

/-- A row of cells, already formatted. -/
def rowLine (cells : List Text) : Text := join " & ".toList cells ++ rowEnd

/-- The header row, in bold. -/
def headerLine (header : List Text) : Text :=
  rowLine (header.map fun cell => Latex.command "textbf".toList (Inline.format cell))

/-- A data row, filled up with empty cells. -/
def dataLine (columns : Nat) (row : List Text) : Text :=
  rowLine (row.map Inline.format ++ List.replicate (columns - row.length) [])

/-- The data rows that have a place: a row with more cells than the header
cannot be set. -/
def fitting (columns : Nat) (rows : List (List Text)) : List (List Text) :=
  rows.filter fun row => row.length ≤ columns

/-- The lines of the table with this header and these data rows. -/
def linesOf (header : List Text) (rows : List (List Text)) : List Text :=
  let columns := header.length
  [Latex.beginEnvironment "center".toList,
    Latex.beginEnvironment "tabular".toList ++ Latex.group (List.replicate columns 'l'),
    "\\toprule".toList, headerLine header, "\\midrule".toList] ++
  (fitting columns rows).map (dataLine columns) ++
  ["\\bottomrule".toList, Latex.endEnvironment "tabular".toList,
    Latex.endEnvironment "center".toList]

/-- The table of a grid of cells, whose first row is the header. Without header
cells there is no table. -/
def render : List (List Text) → Text
  | [] => []
  | [] :: _ => []
  | header :: rows => unlines (linesOf header rows)

/-- One notice for each data row that has no place, in order; `row` is the number
of the first row given. -/
def droppedFrom (columns row : Nat) : List (List Text) → List Notice
  | [] => []
  | cells :: rows =>
    let later := droppedFrom columns (row + 1) rows
    if columns < cells.length then .droppedTableRow row cells.length columns :: later else later

/-- The notices about a grid of cells. -/
def notices : List (List Text) → List Notice
  | [] => []
  | [] :: _ => []
  | header :: rows => droppedFrom header.length 1 rows

end SlideDeck.Table
