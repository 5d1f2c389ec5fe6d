import SlideDeck.Html.Element
import SlideDeck.Latex.Basic
import SlideDeck.Text.WordCharacter

/-!
# Lists on the page

The environments of lists and quotes become tags one by one, and the command of
an item becomes an opening tag. The closing tags of items are then put in line by
line, from the tags with which the lines begin.
-/

set_option autoImplicit false

namespace SlideDeck.Html

open SlideDeck SlideDeck.Text

/-- The environments that become elements, with the names of those. -/
def listEnvironments : List (Text × Text) := [
  ("itemize".toList, "ul".toList),
  ("enumerate".toList, "ol".toList),
  ("quote".toList, "blockquote".toList)]

/-- Turns both ends of one environment into tags. -/
def convertEnvironment (s : Text) (names : Text × Text) : Text :=
  replace (Latex.endEnvironment names.1) (closeTag names.2)
    (replace (Latex.beginEnvironment names.1) (openTag names.2) s)

/-- Turns the environments of lists and quotes into tags. -/
def convertEnvironments (s : Text) : Text := listEnvironments.foldl convertEnvironment s

/-- Matches the command of an item with the blanks behind it. -/
def itemCommand : Matcher Text := fun s =>
  (skip? "\\item".toList s).bind fun rest =>
    if atWordEnd rest then some (openTag "li".toList, trimStart rest) else none

/-- Turns the commands of items into opening tags. -/
def convertItems (s : Text) : Text := substitute itemCommand s

/-- What the beginning of a line means for the items around it. -/
inductive ListMark where
  | opensList
  | item
  | closesList
  | none
  deriving DecidableEq, Repr

/-- Reads the beginning of a line. -/
def ListMark.of (line : Text) : ListMark :=
  let leading := trimStart line
  let begins (tag : Text) : Bool := startsWith tag leading
  if begins (openTag "ul".toList) || begins (openTag "ol".toList) then .opensList
  else if begins (openTag "li".toList) then .item
  else if begins (closeTag "ul".toList) || begins (closeTag "ol".toList) then .closesList
  else .none

/-- What stands before a line, and the lists that are open behind it. For each
open list, innermost first, the stack tells whether an item of it is open. -/
def ListMark.step (opened : List Bool) : ListMark → List Text × List Bool
  | .opensList => ([], false :: opened)
  | .item =>
    match opened with
    | [] => ([], [])
    | itemOpen :: outer => (if itemOpen then [closeTag "li".toList] else [], true :: outer)
  | .closesList =>
    match opened with
    | [] => ([], [])
    | itemOpen :: outer => (if itemOpen then [closeTag "li".toList] else [], outer)
  | .none => ([], opened)

/-- The lines with the closing tags of items between them. -/
def closeItemsFrom : List Bool → List Text → List Text
  | _, [] => []
  | opened, line :: rest =>
    let (before, next) := (ListMark.of line).step opened
    before ++ line :: closeItemsFrom next rest

/-- Closes each item before the next one and before the end of its list. -/
def closeItems (s : Text) : Text := unlines (closeItemsFrom [] (lines s))

end SlideDeck.Html
