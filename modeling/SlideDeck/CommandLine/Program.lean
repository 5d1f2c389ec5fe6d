import SlideDeck.CommandLine.Help
import SlideDeck.CommandLine.Session

/-!
# The program

The whole program as a function: from its arguments, its environment and the files
to its exit status, what it prints, and the files that it leaves.
-/

set_option autoImplicit false

namespace SlideDeck.CommandLine

open SlideDeck SlideDeck.Text

/-- How the program ended. -/
structure Ended where
  status : Nat
  output : Text := []
  errors : Text := []
  files : FileTree
  /-- The notices that its log tells. -/
  notices : List Notice := []
  /-- What is watched from then on. -/
  watch : Option Build.Watch := none

/-- The levels of the log. -/
def logLevels : List Text :=
  ["off", "error", "warn", "info", "debug", "trace"].map String.toList

/-- What is said about the level of the log. -/
def logLevelErrors (level : Text) : Text :=
  if logLevels.contains (lowerAscii level) then []
  else "Invalid log level: ".toList ++ level ++ ". Using 'warn' instead.\n".toList

/-- The status of a request that was done. -/
def doneStatus : Nat := 0

/-- The status of a request that was not done. -/
def complaintStatus : Nat := 1

/-- The status of arguments that do not fit. -/
def misuseStatus : Nat := 2

/-- What is said about arguments that do not fit. -/
def misuseErrors : Text :=
  "error: the arguments do not fit\n\n".toList ++ topLevel.usage ++
    "\n\nFor more information, try '--help'.\n".toList

/-- How the program ends if it does not begin with a request. -/
def stopped (files : FileTree) : Stop → Ended
  | .misuse => { status := misuseStatus, errors := misuseErrors, files }
  | .version => { status := doneStatus, output := versionLine, files }
  | .help path =>
    match helpAt? path with
    | some text => { status := doneStatus, output := text, files }
    | none => { status := misuseStatus, errors := misuseErrors, files }

/-- The texts in arguments that may be paths. -/
def namedPaths (arguments : List Text) : List Path :=
  arguments.flatMap fun argument => (argument :: splitAt '=' argument).flatMap (splitAt ',')

/-- The notices that are told at a level of the log, of which an unknown one counts as
the default. -/
def told (level : Text) (notices : List Notice) : List Notice :=
  if lowerAscii level == "off".toList then []
  else if lowerAscii level == "error".toList then notices.filter Notice.isError
  else notices

/-- Runs the program. -/
def run (host : Host) (environment : Session.Environment) (files : FileTree)
    (arguments : List Text) : Ended :=
  match Invocation.read arguments with
  | .error stop => stopped files stop
  | .ok ⟨request, level⟩ =>
    let settings := Settings.ofEnvironment environment
    let start : Workspace := { files, errors := logLevelErrors level }
    let (result, final) := Session.perform environment settings request host start
    match result with
    | .ok watch =>
      ⟨doneStatus, final.output, final.errors, final.files, told level final.notices, watch⟩
    | .error complaint =>
      ⟨complaintStatus, final.output,
        final.errors ++ "Error: ".toList ++ complaint.message ++ ['\n'], final.files,
        told level final.notices, none⟩

/-- Builds what is watched again after a change of the files. -/
def runAgain (host : Host) (files : FileTree) (watch : Build.Watch) : Ended :=
  let final := ((Build.buildAgain watch.job).perform host { files }).2
  ⟨doneStatus, final.output, final.errors, final.files, final.notices, some watch⟩

end SlideDeck.CommandLine
