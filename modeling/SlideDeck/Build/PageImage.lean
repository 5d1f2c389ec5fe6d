import SlideDeck.Files.Change
import SlideDeck.Text.Number

/-!
# Images of pages

The tool that makes images of pages puts the number of the page behind a common
stem: `page-7.png` or `page-007.png`, or `page.png` for a single page. Images are
found by these names and listed by number, then by name.
-/

set_option autoImplicit false

namespace SlideDeck

open SlideDeck.Text

/-- An image of a page. -/
structure PageImage where
  number : Nat
  path : Path
  deriving DecidableEq, Repr

namespace PageImage

/-- The end of the names of images. -/
def suffix : Text := ".png".toList

/-- The number that the part of a name behind the common stem gives. -/
def numberOf? (rest : Text) : Option Nat :=
  match rest with
  | [] => some 1
  | '-' :: digits => nat32? digits
  | _ => none

/-- The number of the page whose image has the name, if it is such a name. -/
def number? (stem name : Text) : Option Nat :=
  if startsWith stem name && endsWith suffix (name.drop stem.length) then
    (skip? stem (Path.splitName name).1).bind numberOf?
  else none

/-- Follows the names of a directory that is searched. A search begins at `.`, which
is left out as soon as a name follows; a name is followed only if it is there. -/
def descend (tree : FileTree) (here : Location) (place : Path) (name : Text) : Option Path :=
  let next := if place == Path.here then name else Path.child place name
  let there :=
    if name == Path.here || name == Path.above then tree.holdsDirectory here place
    else tree.holds here next
  if there then some next else none

/-- The directory that is searched, as the paths of what is found begin. -/
def searched? (tree : FileTree) (here : Location) (directory : Path) : Option Path :=
  let names := Path.pieces directory
  if directory.isEmpty then some ['/']
  else if Path.isAbsolute directory then
    names.tail.foldlM (descend tree here) ['/']
  else names.foldlM (descend tree here) Path.here

/-- Whether an image comes before another: by number, then by name. -/
def le (a b : PageImage) : Bool :=
  decide (a.number < b.number) || (a.number == b.number && Text.le a.path b.path)

/-- The images with a stem in a directory, by page. -/
def findAll (tree : FileTree) (here : Location) (directory : Path) (stem : Text) :
    List PageImage :=
  match searched? tree here directory with
  | none => []
  | some place =>
    let names := (tree.list here place).toOption.getD []
    (names.filterMap fun name =>
      (number? stem name).map fun number =>
        ⟨number, if place == Path.here then name else Path.child place name⟩).mergeSort le

/-- What may stand between the stem and the end of the name of the first image. -/
def firstMarks : List Text := ["-1".toList, "-01".toList, "-001".toList, "-0001".toList, []]

/-- The image of the first page. -/
def first? (tree : FileTree) (here : Location) (directory : Path) (stem : Text) : Option Path :=
  (firstMarks.map fun mark => Path.child directory (stem ++ mark ++ suffix)).find?
    (tree.holds here)

end PageImage

end SlideDeck
