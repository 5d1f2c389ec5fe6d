import SlideDeck.Html.Element
import SlideDeck.Latex.Environment

/-!
# Tables on the page

The rows of a table stand between double backslashes and the cells of a row
between ampersands. What stands above the middle rule is the header; a table
without that rule has none.
-/

set_option autoImplicit false

namespace SlideDeck.Html

open SlideDeck SlideDeck.Text

/-- The rules that only draw a line. -/
def tableRules : List Text := ["\\toprule".toList, "\\bottomrule".toList, "\\hline".toList]

/-- The rule below the header. -/
def middleRule : Text := "\\midrule".toList

/-- The end of a row. -/
def rowEnd : Text := "\\\\".toList

/-- Removes each of the literals. -/
def removeAny (literals : List Text) (s : Text) : Text :=
  substitute
    (fun s => (literals.findSome? fun literal => skip? literal s).map fun rest => ([], rest)) s

/-- Whether the text behind an ampersand begins a new cell: the ampersand is not
escaped and is not that of an entity. -/
def endsCell (previous : Char) (behind : Text) : Bool :=
  previous != '\\' && !isEntityTail behind

/-- The cells of a row behind the character `previous`. -/
def splitCellsFrom (previous : Char) : Text → List Text
  | [] => [[]]
  | c :: cs =>
    if c = '&' && endsCell previous cs then [] :: splitCellsFrom c cs
    else
      match splitCellsFrom c cs with
      | [] => [[c]]
      | cell :: cells => (c :: cell) :: cells

/-- The cells of a row. -/
def splitCells (row : Text) : List Text := splitCellsFrom (Char.ofNat 0) row

/-- A row as an element; `cell` is the name of its cells. -/
def rowElement (cell row : Text) : Text :=
  element "tr".toList ((splitCells row).flatMap fun content => element cell (trim content))

/-- The rows of a part of a table that have any text. -/
def rowsOf (part : Text) : List Text :=
  ((splitOnText rowEnd part).map trim).filter fun row => !row.isEmpty

/-- The rows of one part of a table as elements. -/
def rowElements (cell part : Text) : List Text := (rowsOf part).map (rowElement cell)

/-- The parts of a table between its middle rules as elements: the first is the
header if there is another. -/
def partElements : List Text → List Text
  | [] => []
  | [part] => rowElements "td".toList part
  | header :: parts => rowElements "th".toList header ++ parts.flatMap (rowElements "td".toList)

/-- A table as an element. -/
def tableElement (body : Text) : Text :=
  openTag "table".toList ++ '\n' ::
    unlines (partElements (splitOnText middleRule (removeAny tableRules body))) ++
    '\n' :: closeTag "table".toList

/-- Matches a table, with its element. -/
def tabular? : Matcher Text := fun s =>
  (skip? (Latex.beginEnvironment "tabular".toList) s).bind fun rest =>
    (Latex.braced? rest).bind fun (_, rest) =>
      (splitOnText? (Latex.endEnvironment "tabular".toList) rest).map fun (body, behind) =>
        (tableElement body, behind)

/-- Turns the tables into elements. -/
def convertTables (s : Text) : Text := substitute tabular? s

end SlideDeck.Html
