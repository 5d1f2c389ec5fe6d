import SlideDeck.Files.Walk
import SlideDeck.Text.Utf8

/-!
# Reading and changing files

Reading, writing and removing a file, making a directory and listing its names.
Each operation either does all of its work or answers a fault and does nothing.
-/

set_option autoImplicit false

namespace SlideDeck

open SlideDeck.Text

namespace FileTree

/-- The bytes of the file at a path. -/
def read (tree : FileTree) (here : Location) (path : Path) : Except SystemFault (List UInt8) := do
  match ← tree.find here path with
  | (_, .file content _) => return content
  | (_, .sink) => return []
  | (_, .directory) => throw .isDirectory

/-- The text of the file at a path. -/
def readText (tree : FileTree) (here : Location) (path : Path) : Except SystemFault Text := do
  match Utf8.decode? (← tree.read here path) with
  | some text => return text
  | none => throw .notText

/-- Whether a name leads to another directory, or nowhere, and not to an entry. -/
def isTurn (name : Text) : Bool := Path.isIdle name || name == Path.above

/-- The location of a file that is to be written. -/
def locateFile (tree : FileTree) (here : Location) (path : Path) :
    Except SystemFault Location := do
  checkPath path
  match Path.ending? path with
  | none => throw .isDirectory
  | some ending =>
    let directory ← tree.follow (origin here path) ending.before
    tree.checkDirectory directory
    if ending.slashed || isTurn ending.last then throw .isDirectory
    checkName ending.last
    return ending.last :: directory

/-- Writes a file: the bytes replace those that it had, and it stays executable if
it was. The sink takes them and stays as it is. -/
def write (tree : FileTree) (here : Location) (path : Path) (content : List UInt8) :
    Except SystemFault FileTree := do
  let place ← tree.locateFile here path
  match tree.entryAt place with
  | some .directory => throw .isDirectory
  | some (.file _ executable) => return tree.insert place (.file content executable)
  | some .sink => return tree
  | none => return tree.insert place (.file content false)

/-- Removes a file. -/
def removeFile (tree : FileTree) (here : Location) (path : Path) :
    Except SystemFault FileTree := do
  match ← tree.find here path with
  | (_, .directory) => throw .isDirectory
  | (place, _) => return tree.remove place

/-- Makes one directory in a directory. -/
def makeDirectory (tree : FileTree) (here : Location) (path : Path) :
    Except SystemFault FileTree := do
  checkPath path
  match Path.ending? path with
  | none => throw .alreadyExists
  | some ending =>
    let directory ← tree.follow (origin here path) ending.before
    tree.checkDirectory directory
    if isTurn ending.last then throw .alreadyExists
    checkName ending.last
    match tree.entryAt (ending.last :: directory) with
    | some _ => throw .alreadyExists
    | none => return tree.insert (ending.last :: directory) .directory

/-- The names in the directory at a path. -/
def list (tree : FileTree) (here : Location) (path : Path) : Except SystemFault (List Text) := do
  match ← tree.find here path with
  | (place, .directory) => return tree.names place
  | (_, _) => throw .notDirectory

end FileTree

end SlideDeck
