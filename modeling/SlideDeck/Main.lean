import SlideDeck.CommandLine.Program
import SlideDeck.Tool.Programs
import Std.Time.Format

/-!
# The command line

The outer layer of the program. It reads from the disk what is at the paths that the
arguments name and beside them, runs the program on that file tree, writes what the
program changed, prints what it printed, and ends with its status. While something
is watched it looks at the disk again and again.
-/

set_option autoImplicit false

namespace SlideDeck.CommandLine

open SlideDeck SlideDeck.Text

/-! ## The disk -/

/-- What is at a location on the disk, with the names in it if it is a directory. A
file counts as executable if it says what runs it, and what is neither a file nor a
directory takes everything and holds nothing. -/
def diskEntry (place : Location) : IO (Option (FileEntry × List Text)) := do
  let path := String.ofList (FileTree.pathOf place)
  try
    let items ← (← IO.FS.realPath path).readDir
    return some (.directory, items.toList.map fun item => item.fileName.toList)
  catch _ =>
    try
      if (← (← IO.FS.realPath path).metadata).type == .other then return some (.sink, [])
      let content := (← IO.FS.readBinFile path).toList
      return some (.file content ((Script.interpreter? (Script.ofBytes content)).isSome), [])
    catch _ => return none

/-- Adds what is at a location to a tree, and answers the names in it. -/
def load (tree : FileTree) (place : Location) : IO (FileTree × List Text) := do
  if place.isEmpty then return (tree, [])
  match ← diskEntry place with
  | some (entry, names) => return (tree.insert place entry, names)
  | none => return (tree, [])

/-- Adds a location, the locations around it, and what is in it to a tree. -/
def loadAll (tree : FileTree) (place : Location) : IO FileTree := do
  let mut tree := tree
  for depth in List.range place.length do
    tree := (← load tree (place.drop (depth + 1))).1
  let (own, names) ← load tree place
  tree := own
  for name in names do
    tree := (← load tree (name :: place)).1
  return tree

/-- The file tree of the current directory and of what is at and beside some paths. -/
def loadPaths (here : Location) (paths : List Path) : IO FileTree :=
  let places := here :: paths.flatMap fun path =>
    [FileTree.target here path, FileTree.target here (Path.directoryOf path)]
  places.eraseDups.foldlM loadAll FileTree.empty

/-- The file tree of the current directory, the paths that the arguments name, and the
directory of themes. -/
def loadTree (here : Location) (environment : Session.Environment) (arguments : List Text) :
    IO FileTree := do
  let themes := (Settings.ofEnvironment environment).themeDirectory.toList ++
    (Session.defaultThemes? environment).toList
  loadPaths here (themes ++ namedPaths arguments)

/-- Writes the differences between two trees to the disk. -/
def store (before after : FileTree) : IO Unit := do
  for (place, entry) in after.entries do
    if before.entryAt place != some entry then
      let path := String.ofList (FileTree.pathOf place)
      match entry with
      | .directory => IO.FS.createDirAll path
      | .file content _ => IO.FS.writeBinFile path ⟨content.toArray⟩
      | .sink => pure ()
  for (place, entry) in before.entries.reverse do
    if (after.entryAt place).isNone then
      let path := String.ofList (FileTree.pathOf place)
      match entry with
      | .directory => IO.FS.removeDir path
      | _ => IO.FS.removeFile path

/-! ## The host -/

/-- The variables of the environment that the program reads. -/
def variableNames : List String :=
  ["HOME", "XDG_CONFIG_HOME", "BEAMER_THEME", "BEAMER_COLOR_THEME", "BEAMER_ASPECT_RATIO",
    "BEAMER_ENGINE", "BEAMER_ENGINE_PASSES", "BEAMER_PREVIEW_TOOL", "BEAMER_PREVIEW_WIDTH",
    "BEAMER_IMAGE_VIEWER", "BEAMER_HTML_THEME_BASE", "BEAMER_THEME_DIR", "BEAMER_DEBOUNCE_MS"]

/-- The environment of the program. -/
def readEnvironment : IO Session.Environment :=
  variableNames.foldlM (fun environment name => do
    match ← IO.getEnv name with
    | some value => return environment.put name.toList value.toList
    | none => return environment) []

/-- The host of the program. Addresses are not fetched. -/
def readHost (environment : Session.Environment) : IO Host := do
  let here := (Path.pieces (← IO.currentDir).toString.toList).filter fun name => !name.isEmpty
  let today := (← Std.Time.DateTime.now).format "MMMM d, uuuu"
  let bytes := (← IO.getRandomBytes 16).toList
  return {
    here := here.reverse
    run := Programs.runner environment
    fetch := fun address => .error (.notFetched ("no connection for ".toList ++ address))
    today := today.toList
    freshName := ofNat (bytes.foldl (fun number byte => 256 * number + byte.toNat) 0) }

/-! ## Running -/

/-- Prints what a run printed and writes what it changed. -/
def finish (before : FileTree) (ended : Ended) : IO Unit := do
  store before ended.files
  for notice in ended.notices do
    IO.eprintln (String.ofList notice.message)
  IO.print (String.ofList ended.output)
  IO.eprint (String.ofList ended.errors)
  (← IO.getStdout).flush

/-- Builds what is watched again whenever a file beside the source has changed. -/
partial def keepWatching (host : Host) (watch : Build.Watch) (before : FileTree) : IO Unit := do
  IO.sleep (UInt32.ofNat watch.settleTime)
  let files ← loadPaths host.here (watch.job.source :: watch.job.page.toList)
  if Build.calls watch.job before files host.here then
    let ended := runAgain host files watch
    finish files ended
    keepWatching host watch ended.files
  else keepWatching host watch files

end SlideDeck.CommandLine

open SlideDeck SlideDeck.CommandLine in
/-- Runs the program on the disk. -/
def main (arguments : List String) : IO UInt32 := do
  let arguments := arguments.map String.toList
  let environment ← readEnvironment
  let host ← readHost environment
  let files ← loadTree host.here environment arguments
  let ended := run host environment files arguments
  finish files ended
  match ended.watch with
  | some watch => keepWatching host watch ended.files
  | none => pure ()
  return UInt32.ofNat ended.status
