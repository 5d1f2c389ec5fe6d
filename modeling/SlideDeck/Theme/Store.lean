import SlideDeck.Theme.Theme
import SlideDeck.Toml.Document
import SlideDeck.Workspace

/-!
# The theme store

Themes of one's own are kept in a directory, each in a TOML file that is named after
it. Files that are no themes are left out of the listing; a theme is known by the
name in its file.
-/

set_option autoImplicit false

namespace SlideDeck

open SlideDeck.Text

namespace Theme

/-! ## Files of themes -/

/-- A line of a theme file. -/
def field (name : String) (value : Text) : Text := name.toList ++ " = ".toList ++ Toml.write value

/-- The file of a theme. -/
def render (theme : Theme) : Text :=
  terminated [field "name" theme.name, field "base_theme" theme.base,
    field "color_theme" theme.color, field "aspect_ratio" theme.aspectRatio]

/-- Reads the file of a theme. Fields that a theme does not have are ignored. -/
def read? (s : Text) : Option Theme := do
  let document ← Toml.readDocument s
  let textOf : String → Option Text := fun name => Toml.textAt? document name.toList
  return {
    name := ← textOf "name"
    base := ← textOf "base_theme"
    color := ← textOf "color_theme"
    aspectRatio := ← textOf "aspect_ratio" }

end Theme

/-- A directory with files of themes. -/
structure ThemeStore where
  directory : Path
  deriving DecidableEq, Repr

namespace ThemeStore

/-- The file of a theme with a name. -/
def fileOf (store : ThemeStore) (name : Text) : Path :=
  Path.child store.directory (name ++ ".toml".toList)

/-- The theme of a file. -/
def themeIn (tree : FileTree) (here : Location) (file : Path) : Except Failure Theme := do
  let text ← (tree.readText here file).mapError .unreadable
  match Theme.read? text with
  | some theme => return theme
  | none => throw (.theme .invalidFile)

/-- Whether a file counts: its theme, or the notice about it. -/
def examine (tree : FileTree) (here : Location) (file : Path) : Theme ⊕ Notice :=
  match themeIn tree here file with
  | .ok theme => if theme.isComplete then .inl theme else .inr (.themeFileIncomplete file)
  | .error failure => .inr (.themeFileUnreadable file failure)

/-- The files of themes among those with the names. -/
def filesOf (store : ThemeStore) (names : List Text) : List Path :=
  (names.map (Path.child store.directory)).filter (Path.hasExtension "toml".toList)

/-- Whether a theme comes before another: by name. -/
def le (a b : Theme) : Bool := Text.le a.name b.name

/-- All themes, by name. A directory that is missing has none. -/
def loadAll (store : ThemeStore) : Activity (List Theme) := do
  if !(← Activity.look fun tree here => tree.holds here store.directory) then return []
  let found := store.filesOf (← Activity.listNames store.directory)
  let examined ← Activity.look fun tree here => found.map (examine tree here)
  Activity.noticeAll (examined.filterMap Sum.getRight?)
  return (examined.filterMap Sum.getLeft?).mergeSort le

/-- The theme with a name. -/
def get (store : ThemeStore) (name : Text) : Activity (Option Theme) := do
  return (← store.loadAll).find? fun theme => theme.name == name

/-- Writes a theme to its file, in place of what was there. The result is the path of
the file. -/
def save (store : ThemeStore) (theme : Theme) : Activity Path := do
  Activity.ofExcept (Theme.checkName theme.name)
  if !theme.isComplete then throw (.theme (.emptyFields theme.name))
  Activity.ensureDirectory store.directory
  Activity.writeText .unreadable (store.fileOf theme.name) theme.render
  return store.fileOf theme.name

/-- Removes the file of a theme. The result tells whether there was one. -/
def remove (store : ThemeStore) (name : Text) : Activity Bool := do
  Activity.ofExcept (Theme.checkName name)
  let file := store.fileOf name
  if !(← Activity.look fun tree here => tree.holds here file) then return false
  Activity.orFail .unreadable (← Activity.change fun tree here => tree.removeFile here file)
  return true

end ThemeStore

end SlideDeck
