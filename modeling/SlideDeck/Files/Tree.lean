import SlideDeck.Keyed

/-!
# File trees

A file tree is a directory, the root: it holds things under names, and what it holds
is a file with its bytes, the sink, or again a directory. So everything but the root
is in a directory, and a change of one place leaves the others as they are.

A place is looked at by its location, which lists its name and those of the
directories around it from the inside out. `entryAt_insert` and `entryAt_remove` say
that a change of one location leaves all others as they are, as long as it is in a
directory and no directory goes.
-/

set_option autoImplicit false

namespace SlideDeck

/-- A location: its own name and those of the directories around it, the innermost
first. The empty list is the root. -/
abbrev Location := List Text

/-- What is at a place, without what it holds. -/
inductive FileEntry where
  | file (content : List UInt8) (executable : Bool)
  /-- What is written here is gone, and there is nothing to be read. -/
  | sink
  | directory
  deriving DecidableEq, Repr

/-- What is at a place, with what it holds. -/
inductive FileNode where
  | file (content : List UInt8) (executable : Bool)
  | sink
  | directory (items : List (Text × FileNode))

/-- What a directory holds under its names. -/
abbrev Items := Keyed Text FileNode

/-- A tree of files, given by what its root holds. -/
structure FileTree where
  items : Items

namespace FileNode

/-- What the node is, without what it holds. -/
def entry : FileNode → FileEntry
  | .file content executable => .file content executable
  | .sink => .sink
  | .directory _ => .directory

/-- What the node holds; only a directory holds anything. -/
def items : FileNode → Items
  | .directory items => items
  | _ => []

/-- What the node holds under a name. -/
def item? (node : FileNode) (name : Text) : Option FileNode := Keyed.get? name node.items

/-- The node of an entry that holds nothing. -/
def ofEntry : FileEntry → FileNode
  | .file content executable => .file content executable
  | .sink => .sink
  | .directory => .directory []

/-- The node of an entry that takes the place of another: a directory keeps what it
holds. -/
def replacing (old : Option FileNode) : FileEntry → FileNode
  | .directory => .directory ((old.map items).getD [])
  | entry => ofEntry entry

mutual

/-- The node at a location and all that it holds. -/
def entriesAt (place : Location) : FileNode → List (Location × FileEntry)
  | .file content executable => [(place, .file content executable)]
  | .sink => [(place, .sink)]
  | .directory items => (place, .directory) :: itemsAt place items

/-- All that a directory at a location holds. -/
def itemsAt (place : Location) : List (Text × FileNode) → List (Location × FileEntry)
  | [] => []
  | (name, node) :: items => node.entriesAt (name :: place) ++ itemsAt place items

end

end FileNode

namespace Items

/-- What is behind names that lead into each other, the outermost first. -/
def nodeAt : Items → List Text → Option FileNode
  | items, [] => some (.directory items)
  | items, name :: names =>
    match Keyed.get? name items with
    | none => none
    | some (.directory inner) => nodeAt inner names
    | some node => if names.isEmpty then some node else none

/-- Changes what is held in the directory behind names, the outermost first. A
directory that is missing is made. -/
def change (f : Items → Items) : List Text → Items → Items
  | [], items => f items
  | name :: names, items =>
    Keyed.put name (.directory (change f names (((Keyed.get? name items).map
      FileNode.items).getD []))) items

end Items

namespace FileTree

/-- The tree with nothing below its root. -/
def empty : FileTree := ⟨[]⟩

/-- What is at a location, with what it holds. -/
def nodeAt (tree : FileTree) (place : Location) : Option FileNode :=
  Items.nodeAt tree.items place.reverse

/-- What is at a location. -/
def entryAt (tree : FileTree) (place : Location) : Option FileEntry :=
  (tree.nodeAt place).map FileNode.entry

/-- The tree with another content of the directory at a location. -/
def changeAt (tree : FileTree) (place : Location) (f : Items → Items) : FileTree :=
  ⟨Items.change f place.reverse tree.items⟩

/-- The tree with an entry at a location, in place of what was there. The root stays. -/
def insert (tree : FileTree) (place : Location) (entry : FileEntry) : FileTree :=
  match place with
  | [] => tree
  | name :: parent =>
    tree.changeAt parent fun items =>
      Keyed.put name (FileNode.replacing (Keyed.get? name items) entry) items

/-- The tree with nothing at a location. The root stays. -/
def remove (tree : FileTree) (place : Location) : FileTree :=
  match place with
  | [] => tree
  | name :: parent => tree.changeAt parent (Keyed.erase name)

/-- The names in a directory, each of them once. -/
def names (tree : FileTree) (place : Location) : List Text :=
  (((tree.nodeAt place).map FileNode.items).getD []).keys.eraseDups

/-- Everything below the root, a directory before what it holds. -/
def entries (tree : FileTree) : List (Location × FileEntry) := FileNode.itemsAt [] tree.items

/-- The locations at which two trees differ. -/
def differences (before after : FileTree) : List Location :=
  ((before.entries ++ after.entries).map Prod.fst).filter fun place =>
    before.entryAt place != after.entryAt place

end FileTree

/-! ## One change leaves the other places alone -/

namespace Items

/-- What is behind names and one more is what the last but one holds under it. -/
theorem nodeAt_concat (items : Items) (names : List Text) (name : Text) :
    nodeAt items (names ++ [name]) = (nodeAt items names).bind (·.item? name) := by
  induction names generalizing items with
  | nil =>
    cases held : Keyed.get? name items with
    | none => simp [nodeAt, held, FileNode.item?, FileNode.items]
    | some node => cases node <;> simp [nodeAt, held, FileNode.item?, FileNode.items]
  | cons first names ih =>
    cases held : Keyed.get? first items with
    | none => simp [nodeAt, held]
    | some node =>
      cases node with
      | directory inner => simp [nodeAt, held, ih]
      | file content executable =>
        cases names <;> simp [nodeAt, held, FileNode.item?, FileNode.items, Keyed.get?]
      | sink => cases names <;> simp [nodeAt, held, FileNode.item?, FileNode.items, Keyed.get?]

/-- What is behind names, without what it holds. -/
def entryAt (items : Items) (names : List Text) : Option FileEntry :=
  (nodeAt items names).map FileNode.entry

/-- Behind the name of a directory is what that directory holds. -/
theorem entryAt_cons_directory {items inner : Items} {name : Text} {names : List Text}
    (held : Keyed.get? name items = some (.directory inner)) :
    entryAt items (name :: names) = entryAt inner names := by
  simp [entryAt, nodeAt, held]

/-- Whatever is behind a name depends only on what is under that name. -/
theorem entryAt_cons_congr {items others : Items} {name : Text} {names : List Text}
    (same : Keyed.get? name items = Keyed.get? name others) :
    entryAt items (name :: names) = entryAt others (name :: names) := by
  simp [entryAt, nodeAt, same]

/-- What is no directory holds nothing. -/
theorem entryAt_cons_leaf {items : Items} {name : Text} {names : List Text}
    (leaf : entryAt items [name] ≠ some .directory) (below : names ≠ []) :
    entryAt items (name :: names) = none := by
  cases held : Keyed.get? name items with
  | none => simp [entryAt, nodeAt, held]
  | some node =>
    cases node with
    | directory inner => simp [entryAt, nodeAt, held, FileNode.entry] at leaf
    | file content executable => simp [entryAt, nodeAt, held, below]
    | sink => simp [entryAt, nodeAt, held, below]

/-- A change in one directory that is seen at one name only is seen at that place
only. -/
theorem entryAt_change {f : Items → Items} {name : Text} {result : Option FileEntry}
    (seen : ∀ items : Items, entryAt items [name] ≠ some .directory → ∀ names,
      entryAt (f items) names = if names = [name] then result else entryAt items names)
    {parent : List Text} {items : Items} (inside : entryAt items parent = some .directory)
    (leaf : entryAt items (parent ++ [name]) ≠ some .directory) (names : List Text) :
    entryAt (change f parent items) names =
      if names = parent ++ [name] then result else entryAt items names := by
  induction parent generalizing items names with
  | nil => exact seen items leaf names
  | cons first parent ih =>
    cases held : Keyed.get? first items with
    | none => simp [entryAt, nodeAt, held] at inside
    | some node =>
      cases node with
      | file content executable =>
        cases parent <;> simp [entryAt, nodeAt, held, FileNode.entry] at inside
      | sink => cases parent <;> simp [entryAt, nodeAt, held, FileNode.entry] at inside
      | directory inner =>
        rw [entryAt_cons_directory held] at inside
        rw [List.cons_append, entryAt_cons_directory held] at leaf
        cases names with
        | nil => simp [entryAt, nodeAt, FileNode.entry]
        | cons other names =>
          by_cases same : other = first
          · subst same
            have put : Keyed.get? other (change f (other :: parent) items) =
                some (.directory (change f parent inner)) := by
              simp [change, Keyed.get?_put, held, FileNode.items]
            rw [entryAt_cons_directory put, entryAt_cons_directory held, ih inside leaf]
            simp
          · have kept : Keyed.get? other (change f (first :: parent) items) =
                Keyed.get? other items := by
              simp [change, Keyed.get?_put, same]
            rw [entryAt_cons_congr kept]
            simp [same]

/-- Putting an entry under a name is seen there only. -/
theorem entryAt_put (entry : FileEntry) {items : Items} {name : Text}
    (leaf : entryAt items [name] ≠ some .directory) (names : List Text) :
    entryAt (Keyed.put name (FileNode.replacing (Keyed.get? name items) entry) items) names =
      if names = [name] then some entry else entryAt items names := by
  have empty : ((Keyed.get? name items).map FileNode.items).getD [] = [] := by
    cases held : Keyed.get? name items with
    | none => rfl
    | some node =>
      cases node with
      | directory inner => simp [entryAt, nodeAt, held, FileNode.entry] at leaf
      | file content executable => rfl
      | sink => rfl
  cases names with
  | nil => simp [entryAt, nodeAt, FileNode.entry]
  | cons other names =>
    by_cases same : other = name
    · subst same
      by_cases below : names = []
      · subst below
        cases entry <;>
          simp [entryAt, nodeAt, Keyed.get?_put, FileNode.replacing, FileNode.ofEntry,
            FileNode.entry]
      · rw [entryAt_cons_leaf leaf below]
        cases names with
        | nil => exact absurd rfl below
        | cons second names =>
          cases entry <;>
            simp [entryAt, nodeAt, Keyed.get?_put, FileNode.replacing, FileNode.ofEntry, empty,
              Keyed.get?]
    · have kept : entryAt (Keyed.put name (FileNode.replacing (Keyed.get? name items) entry) items)
          (other :: names) = entryAt items (other :: names) :=
        entryAt_cons_congr (by rw [Keyed.get?_put, if_neg same])
      simp [same, kept]

/-- Erasing what is under a name is seen there only. -/
theorem entryAt_erase {items : Items} {name : Text}
    (leaf : entryAt items [name] ≠ some .directory) (names : List Text) :
    entryAt (Keyed.erase name items) names =
      if names = [name] then none else entryAt items names := by
  cases names with
  | nil => simp [entryAt, nodeAt, FileNode.entry]
  | cons other names =>
    by_cases same : other = name
    · subst same
      have gone : entryAt (Keyed.erase other items) (other :: names) = none := by
        simp [entryAt, nodeAt, Keyed.get?_erase]
      rw [gone]
      by_cases below : names = []
      · simp [below]
      · simp [below, entryAt_cons_leaf leaf below]
    · have kept : entryAt (Keyed.erase name items) (other :: names) =
          entryAt items (other :: names) :=
        entryAt_cons_congr (by rw [Keyed.get?_erase, if_neg same])
      simp [same, kept]

end Items

namespace FileTree

variable {tree : FileTree} {name : Text} {parent : Location}

/-- What is at a location is what the directory around it holds under its name. -/
theorem nodeAt_cons : tree.nodeAt (name :: parent) = (tree.nodeAt parent).bind (·.item? name) := by
  rw [nodeAt, List.reverse_cons, Items.nodeAt_concat, nodeAt]

/-- The location of a name in a directory, from the outside in. -/
theorem reverse_eq_iff {other : Location} :
    other.reverse = parent.reverse ++ [name] ↔ other = name :: parent := by
  rw [← List.reverse_cons, List.reverse_inj]

/-- Inserting in a directory changes one location and no other, unless a directory was
there. -/
theorem entryAt_insert {entry : FileEntry} (inside : tree.entryAt parent = some .directory)
    (leaf : tree.entryAt (name :: parent) ≠ some .directory) (other : Location) :
    (tree.insert (name :: parent) entry).entryAt other =
      if other = name :: parent then some entry else tree.entryAt other := by
  have changed := Items.entryAt_change (fun _ => Items.entryAt_put entry) inside
    (by simpa [entryAt, nodeAt, Items.entryAt] using leaf) other.reverse
  simp only [reverse_eq_iff] at changed
  exact changed

/-- Removing what is no directory empties one location and no other. -/
theorem entryAt_remove (inside : tree.entryAt parent = some .directory)
    (leaf : tree.entryAt (name :: parent) ≠ some .directory) (other : Location) :
    (tree.remove (name :: parent)).entryAt other =
      if other = name :: parent then none else tree.entryAt other := by
  have changed := Items.entryAt_change (fun _ => Items.entryAt_erase) inside
    (by simpa [entryAt, nodeAt, Items.entryAt] using leaf) other.reverse
  simp only [reverse_eq_iff] at changed
  exact changed

end FileTree

end SlideDeck
