import SlideDeck.Text.Search

/-!
# Paths

A path is a text of names between slashes. Empty names and the name `.` say
nothing, except that a `.` at the front of a relative path is kept as one of its
components. Paths are shown as they were given, so every operation works on the
text: it cuts the path at a component and leaves the rest as it is.
-/

set_option autoImplicit false

namespace SlideDeck

open SlideDeck.Text

/-- A path as it is written. -/
abbrev Path := Text

namespace Path

/-- The name of the directory itself. -/
def here : Text := ['.']

/-- The name of the directory above. -/
def above : Text := ['.', '.']

/-- Whether the path begins at the root. -/
def isAbsolute (path : Path) : Bool := startsWith ['/'] path

/-- The names between the slashes. -/
def pieces (path : Path) : List Text := splitAt '/' path

/-- Whether the name says nothing. -/
def isIdle (name : Text) : Bool := name.isEmpty || name == here

/-- The names, the last one first, without those at the end of the path that say
nothing. The first name of the path is kept; it is empty for an absolute path
and for the empty one. -/
def dropIdle : List Text → List Text
  | [] => []
  | [first] => [first]
  | name :: earlier => if isIdle name then dropIdle earlier else name :: earlier

/-- The names of the path up to its last component, that one first. -/
def reversed (path : Path) : List Text := dropIdle (pieces path).reverse

/-- The path of names that are listed last one first. -/
def ofReversed : List Text → Path
  | [[]] => ['/']
  | names => join ['/'] names.reverse

/-- The path without its last component. The root and the empty path have none. -/
def parent? (path : Path) : Option Path :=
  match reversed path with
  | [] | [[]] => none
  | [_] => some []
  | _ :: earlier => some (ofReversed (dropIdle earlier))

/-- The name of the last component, if it is a name. -/
def fileName? (path : Path) : Option Text :=
  match reversed path with
  | [] => none
  | name :: _ => if isIdle name || name == above then none else some name

/-- A name cut at its last period: the stem and the extension. A period at the
front belongs to the stem. -/
def splitName (name : Text) : Text × Option Text :=
  match splitOnce '.' name.reverse with
  | some (extension, stem) =>
    if stem.isEmpty then (name, none) else (stem.reverse, some extension.reverse)
  | none => (name, none)

/-- The stem of the last component. -/
def stem? (path : Path) : Option Text := (fileName? path).map fun name => (splitName name).1

/-- The extension of the last component. -/
def extension? (path : Path) : Option Text :=
  (fileName? path).bind fun name => (splitName name).2

/-- Whether the path has the extension, whatever the case of its letters. -/
def hasExtension (extension : Text) (path : Path) : Bool :=
  match extension? path with
  | some own => eqIgnoringCase own extension
  | none => false

/-- The path up to the stem of its last component, with the extension behind it. A
path whose last component is no name stays as it is. -/
def setExtension (extension : Text) (path : Path) : Path :=
  match stem? path, reversed path with
  | some stem, _ :: earlier => join ['/'] ((stem ++ '.' :: extension) :: earlier).reverse
  | _, _ => path

/-- The path with another extension. What the extension had taken goes first, so a
path whose name is then no name loses it and gets no other. -/
def withExtension (extension : Text) (path : Path) : Path :=
  match extension? path with
  | some own => setExtension extension (path.take (path.length - own.length))
  | none => setExtension extension path

/-- The second path as seen from the first. -/
def child (path other : Path) : Path :=
  if isAbsolute other then other
  else if path.isEmpty || endsWith ['/'] path then path ++ other
  else path ++ '/' :: other

/-- The directory of a file: its parent, and the current directory for a bare
name. -/
def directoryOf (path : Path) : Path :=
  match parent? path with
  | some [] | none => here
  | some directory => directory

/-- At most `count` paths above a path, the nearest first. -/
def parentsFrom : Nat → Path → List Path
  | 0, _ => []
  | count + 1, path =>
    match parent? path with
    | some directory => directory :: parentsFrom count directory
    | none => []

/-- The paths above a path, the nearest first. There are fewer of them than
characters. -/
def parents (path : Path) : List Path := parentsFrom path.length path

/-- What a path says about its end. -/
structure Ending where
  /-- The names before the last one. -/
  before : List Text
  last : Text
  /-- Whether slashes follow the last name. -/
  slashed : Bool
  deriving DecidableEq, Repr

/-- The end of a path that does not consist of slashes. -/
def ending? (path : Path) : Option Ending :=
  match (pieces path).reverse.dropWhile List.isEmpty with
  | [] => none
  | last :: reversed => some ⟨reversed.reverse, last, endsWith ['/'] path⟩

/-! ## Components -/

/-- What one step of a path does. -/
inductive Component where
  | root
  | here
  | above
  | name (text : Text)
  deriving DecidableEq, Repr

/-- The component of a name behind the first. -/
def Component.ofName (name : Text) : Option Component :=
  if isIdle name then none else if name == Path.above then some .above else some (.name name)

/-- The components of a path. -/
def components (path : Path) : List Component :=
  match pieces path with
  | [] => []
  | first :: rest =>
    let front :=
      if isAbsolute path then [Component.root]
      else if first == Path.here then [Component.here]
      else (Component.ofName first).toList
    front ++ rest.filterMap Component.ofName

/-- Whether the component is a name. -/
def Component.isName : Component → Bool
  | .name _ => true
  | _ => false

end Path

end SlideDeck
