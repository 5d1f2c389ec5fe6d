import SlideDeck.Settings
import SlideDeck.Workspace

/-!
# Compilation

The typesetting engine turns a LaTeX file into a PDF file beside it. It works in the
directory of the file and may run several times, since a pass uses what the one
before it wrote; the first pass that fails ends the compilation.
-/

set_option autoImplicit false

namespace SlideDeck.Build

open SlideDeck SlideDeck.Text

/-- How many lines of the log of a program are kept. -/
def keptLines : Nat := 20

/-- The end of what a program printed, its errors behind its output. -/
def logOf (ran : Ran) : Text :=
  let printed := lines (Utf8.decodeLossy ran.output ++ Utf8.decodeLossy ran.errors)
  unlines (printed.drop (printed.length - keptLines))

/-- The command that starts the engine on a file of its directory. -/
def engineCommand (engine : Text) (directory : Path) (name : Text) : Command where
  program := engine
  arguments := ["-interaction=nonstopmode".toList, "-halt-on-error".toList, name]
  directory := directory

/-- One pass of the engine over a file. -/
def pass (engine : Text) (file : Path) (name : Text) : Activity Unit := do
  match ← Activity.start (engineCommand engine (Path.directoryOf file) name) with
  | .error .notFound => throw (.engineMissing engine)
  | .error fault => throw (.unreadable fault)
  | .ok ran => if !ran.succeeded then throw (.compilationFailed file (logOf ran))

/-- Does an activity a number of times. -/
def times : Nat → Activity Unit → Activity Unit
  | 0, _ => pure ()
  | count + 1, activity => do
    activity
    times count activity

/-- Compiles a file. The result is the path of the PDF file. -/
def compile (file : Path) (options : CompileOptions) : Activity Path := do
  Activity.checkFile file
  match Path.fileName? file with
  | none => throw (.invalid (.notFilePath file))
  | some name =>
    times options.passes (pass options.engine file name)
    return Path.withExtension "pdf".toList file

end SlideDeck.Build
