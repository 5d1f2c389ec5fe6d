import SlideDeck.Failure
import SlideDeck.Files.Tree
import SlideDeck.Path

/-!
# Following paths

A path leads from the current directory, or from the root, through one name after
the other. Every name but the last has to be that of a directory; empty names and
`.` stay where they are, `..` goes up. `follow_cons` says so.
-/

set_option autoImplicit false

namespace SlideDeck

open SlideDeck.Text

namespace FileTree

/-- The number of bytes that a name may have. -/
def longestName : Nat := 255

/-- The number of bytes that a path may have. -/
def longestPath : Nat := 4095

/-- The number of bytes of a text. -/
def byteLength : Text → Nat
  | [] => 0
  | c :: s => c.utf8Size + byteLength s

/-- Refuses a text that cannot be a path at all. -/
def checkPath (path : Path) : Except SystemFault Unit :=
  if path.contains '\x00' then .error .nulInName
  else if path.isEmpty then .error .notFound
  else if longestPath < byteLength path then .error .nameTooLong
  else .ok ()

/-- Refuses a name that is too long. -/
def checkName (name : Text) : Except SystemFault Unit :=
  if longestName < byteLength name then .error .nameTooLong else .ok ()

/-- The items of what is at a place, if that is a directory. -/
def itemsOf : Option FileNode → Except SystemFault Items
  | some (.directory items) => .ok items
  | some _ => .error .notDirectory
  | none => .error .notFound

/-- Refuses a location without a directory. -/
def checkDirectory (tree : FileTree) (place : Location) : Except SystemFault Unit :=
  (itemsOf (tree.nodeAt place)).map fun _ => ()

/-- The way from the root to a place: the names that lead there, the last one first, each
with what is under it. -/
abbrev Trail := List (Text × Option FileNode)

namespace Trail

/-- What is at the end of a way. -/
def node (tree : FileTree) : Trail → Option FileNode
  | [] => some (.directory tree.items)
  | (_, node) :: _ => node

/-- The way to a location. -/
def ofLocation (tree : FileTree) : Location → Trail
  | [] => []
  | name :: parent =>
    let trail := ofLocation tree parent
    (name, (trail.node tree).bind (·.item? name)) :: trail

/-- Goes on to one of the names of the directory at the end of a way. The name need not
be there. -/
def enter (tree : FileTree) (trail : Trail) (name : Text) : Except SystemFault Trail := do
  let items ← itemsOf (trail.node tree)
  checkName name
  return if Path.isIdle name then trail
    else if name = Path.above then trail.tail
    else (name, Keyed.get? name items) :: trail

end Trail

/-- Goes through names, one after the other. -/
def follow (tree : FileTree) (place : Location) (names : List Text) :
    Except SystemFault Location :=
  (names.foldlM (Trail.enter tree) (Trail.ofLocation tree place)).map fun trail =>
    trail.map Prod.fst

/-- The location that a name means in a directory. -/
def move (place : Location) (name : Text) : Location :=
  if Path.isIdle name then place else if name = Path.above then place.tail else name :: place

/-- A name that cannot be entered stops the way. -/
def enter (tree : FileTree) (place : Location) (name : Text) : Except SystemFault Location := do
  tree.checkDirectory place
  checkName name
  return move place name

/-- At the end of the way to a location is what is there. -/
theorem Trail.node_ofLocation (tree : FileTree) (place : Location) :
    (Trail.ofLocation tree place).node tree = tree.nodeAt place := by
  induction place with
  | nil => rfl
  | cons name parent ih => rw [nodeAt_cons, ← ih, Trail.ofLocation, Trail.node]

/-- The way to a location has its names. -/
theorem Trail.map_ofLocation (tree : FileTree) (place : Location) :
    (Trail.ofLocation tree place).map Prod.fst = place := by
  induction place with
  | nil => rfl
  | cons name parent ih => rw [Trail.ofLocation, List.map_cons, ih]

/-- Going on along the way to a location is going on along the way to the next. -/
theorem Trail.enter_ofLocation (tree : FileTree) (place : Location) (name : Text) :
    Trail.enter tree (Trail.ofLocation tree place) name =
      (tree.enter place name).map (Trail.ofLocation tree) := by
  unfold Trail.enter FileTree.enter checkDirectory
  rw [Trail.node_ofLocation]
  cases held : tree.nodeAt place with
  | none => rfl
  | some node =>
    cases node with
    | file content executable => rfl
    | sink => rfl
    | directory items =>
      cases checkName name with
      | error fault => rfl
      | ok _ =>
        simp only [itemsOf, move, bind, Except.bind, pure, Except.pure, Except.map]
        split
        · rfl
        · split
          · cases place <;> rfl
          · simp [Trail.ofLocation, Trail.node_ofLocation, held, FileNode.item?, FileNode.items]

/-- Going through no names stays at the location. -/
theorem follow_nil (tree : FileTree) (place : Location) : tree.follow place [] = .ok place := by
  simp [follow, Trail.map_ofLocation, pure, Except.pure, Except.map]

/-- Going through names enters the first one and goes through the others from there. -/
theorem follow_cons (tree : FileTree) (place : Location) (name : Text) (names : List Text) :
    tree.follow place (name :: names) =
      (tree.enter place name).bind fun next => tree.follow next names := by
  rw [follow, List.foldlM_cons, Trail.enter_ofLocation]
  cases tree.enter place name <;> rfl

/-- Where a path begins. -/
def origin (here : Location) (path : Path) : Location := if Path.isAbsolute path then [] else here

/-- The location that a path means if all of its names are those of directories. -/
def target (here : Location) (path : Path) : Location :=
  (Path.pieces path).foldl move (origin here path)

/-- The location of a path, at which there may be nothing. -/
def locate (tree : FileTree) (here : Location) (path : Path) : Except SystemFault Location := do
  checkPath path
  tree.follow (origin here path) (Path.pieces path)

/-- What is at a path, and where that is. -/
def find (tree : FileTree) (here : Location) (path : Path) :
    Except SystemFault (Location × FileEntry) := do
  let place ← tree.locate here path
  match tree.entryAt place with
  | some entry => return (place, entry)
  | none => throw .notFound

/-- Whether there is something at a path. -/
def holds (tree : FileTree) (here : Location) (path : Path) : Bool :=
  (tree.find here path).toOption.isSome

/-- Whether there is a directory at a path. -/
def holdsDirectory (tree : FileTree) (here : Location) (path : Path) : Bool :=
  match tree.find here path with
  | .ok (_, .directory) => true
  | _ => false

/-- Whether there is a file at a path. -/
def holdsFile (tree : FileTree) (here : Location) (path : Path) : Bool :=
  match tree.find here path with
  | .ok (_, .file ..) => true
  | _ => false

/-- The absolute path of a location, without names that say nothing. -/
def pathOf (place : Location) : Path := '/' :: join ['/'] place.reverse

/-- The absolute path of what is at a path. -/
def absolute (tree : FileTree) (here : Location) (path : Path) : Except SystemFault Path := do
  let (place, _) ← tree.find here path
  return pathOf place

end FileTree

end SlideDeck
