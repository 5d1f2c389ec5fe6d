import SlideDeck.Files.Change
import SlideDeck.Notice
import SlideDeck.Tool.Command

/-!
# Workspaces

An activity works in a workspace: it reads and changes files, starts commands,
prints, and leaves notices. It finds its current directory, the other programs and
the date at a host, which it does not change. What an activity did before it failed
stays done.
-/

set_option autoImplicit false

namespace SlideDeck

open SlideDeck.Text

/-- An order in which the names in a directory are listed. No name is left out, and none is
listed twice. -/
structure Listing where
  order : List Text → List Text
  perm : ∀ names, (order names).Perm names

/-- The names are listed as the directory holds them. -/
def Listing.asHeld : Listing := ⟨id, fun names => List.Perm.refl names⟩

/-- What activities find and do not change. -/
structure Host where
  /-- The current directory. -/
  here : Location
  /-- How commands are run. -/
  run : Runner
  /-- How addresses are fetched. -/
  fetch : Text → Except Failure Text
  /-- The date. -/
  today : Text
  /-- A text that occurs in no name. -/
  freshName : Text
  /-- How the names in a directory are listed. -/
  listing : Listing := .asHeld

/-- What activities change. -/
structure Workspace where
  files : FileTree
  notices : List Notice := []
  /-- The commands that were to be started, in order. -/
  started : List Command := []
  /-- What was printed. -/
  output : Text := []
  /-- What programs printed as their errors. -/
  errors : Text := []

/-- An activity at a host in a workspace. -/
abbrev Activity := ReaderT Host (ExceptT Failure (StateM Workspace))

namespace Activity

/-- Does an activity: its result, and the workspace that it leaves. -/
def perform {α : Type} (activity : Activity α) (host : Host) (workspace : Workspace) :
    Except Failure α × Workspace :=
  activity host workspace

/-- Leaves a notice. -/
def notice (what : Notice) : Activity Unit :=
  modify fun workspace => { workspace with notices := workspace.notices ++ [what] }

/-- Leaves notices. -/
def noticeAll (what : List Notice) : Activity Unit :=
  modify fun workspace => { workspace with notices := workspace.notices ++ what }

/-- Prints a text. -/
def print (text : Text) : Activity Unit :=
  modify fun workspace => { workspace with output := workspace.output ++ text }

/-- Prints a line. -/
def printLine (line : Text) : Activity Unit := print (line ++ ['\n'])

/-- The result, or the failure that the fault means. -/
def orFail {α : Type} (failure : SystemFault → Failure) : Except SystemFault α → Activity α
  | .ok value => pure value
  | .error fault => throw (failure fault)

/-- A result that is no matter of the workspace. -/
def ofExcept {α : Type} : Except Failure α → Activity α
  | .ok value => pure value
  | .error failure => throw failure

/-- What an operation on the files answers, from the current directory. -/
def look {α : Type} (operation : FileTree → Location → α) : Activity α := do
  return operation (← get).files (← read).here

/-- Changes the files; a fault changes nothing. -/
def change (operation : FileTree → Location → Except SystemFault FileTree) :
    Activity (Except SystemFault Unit) := do
  match ← look operation with
  | .ok files =>
    modify fun workspace => { workspace with files }
    return .ok ()
  | .error fault => return .error fault

/-! ## Files -/

/-- Refuses a path without a file. -/
def checkFile (path : Path) : Activity Unit := do
  if !(← look fun tree here => tree.holds here path) then throw (.missing path)
  if !(← look fun tree here => tree.holdsFile here path) then throw (.invalid (.notFile path))

/-- The text of a file. -/
def readText (path : Path) : Activity Text := do
  orFail .unreadable (← look fun tree here => tree.readText here path)

/-- Writes a text to a file. -/
def writeText (failure : SystemFault → Failure) (path : Path) (text : Text) : Activity Unit := do
  orFail failure (← change fun tree here => tree.write here path (Utf8.encode text))

/-- The names in a directory, in the order in which they are listed here. -/
def listNames (path : Path) : Activity (List Text) := do
  let names ← orFail .unreadable (← look fun tree here => tree.list here path)
  return (← read).listing.order names

/-- Makes the first of some directories, each of which is in the next one, and
those of the others that are missing. -/
def makeDirectories : List Path → Activity Unit
  | [] => pure ()
  | path :: above => do
    if path.isEmpty then return
    match ← change fun tree here => tree.makeDirectory here path with
    | .ok () => return
    | .error .notFound =>
      makeDirectories above
      match ← change fun tree here => tree.makeDirectory here path with
      | .ok () => return
      | .error fault => unlessThere path fault
    | .error fault => unlessThere path fault
where
  /-- A fault counts only if the directory is not there. -/
  unlessThere (path : Path) (fault : SystemFault) : Activity Unit := do
    if !(← look fun tree here => tree.holdsDirectory here path) then throw (.unreadable fault)

/-- Makes a directory, with those around it, if it is missing. -/
def ensureDirectory (path : Path) : Activity Unit := do
  if path.isEmpty then return
  if !(← look fun tree here => tree.holds here path) then
    makeDirectories (path :: Path.parents path)
  else if !(← look fun tree here => tree.holdsDirectory here path) then
    throw (.invalid (.notDirectory path))

/-- Makes the directory of a file, if it is missing. -/
def ensureParent (path : Path) : Activity Unit :=
  match Path.parent? path with
  | some directory => ensureDirectory directory
  | none => pure ()

/-- Makes a directory if it is missing, and refuses one in which no file can be
made. -/
def checkWritable (path : Path) : Activity Unit := do
  ensureDirectory path
  let probe := Path.child path (".write_probe_".toList ++ (← read).freshName ++ ".tmp".toList)
  match ← change fun tree here => tree.write here probe [] with
  | .error fault => throw (.invalid (.notWritable path fault))
  | .ok () =>
    match ← change fun tree here => tree.removeFile here probe with
    | .error fault => notice (.probeKept probe fault)
    | .ok () => return

/-- The absolute path of what is at a path. -/
def absolute (path : Path) : Activity Path := do
  orFail (fun fault => .invalid (.noAbsolutePath path fault))
    (← look fun tree here => tree.absolute here path)

/-! ## Commands -/

/-- Starts a command and waits for its end. -/
def start (command : Command) : Activity (Except SystemFault Ran) := do
  modify fun workspace => { workspace with started := workspace.started ++ [command] }
  let host ← read
  match host.run (← get).files host.here command with
  | .ok ran =>
    modify fun workspace => { workspace with files := ran.files }
    return .ok ran
  | .error fault => return .error fault

/-- Prints what a program printed. -/
def passOn (ran : Ran) : Activity Unit :=
  modify fun workspace => { workspace with
    output := workspace.output ++ Utf8.decodeLossy ran.output
    errors := workspace.errors ++ Utf8.decodeLossy ran.errors }

end Activity

end SlideDeck
