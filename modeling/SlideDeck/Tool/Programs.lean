import SlideDeck.Tool.Command
import SlideDeck.Tool.Script.Run

/-!
# The programs of a host

A name with a slash is the path of a program, which is a script in the file tree or an
installed program; a name without one is the name of a program that is installed. The
installed programs are the small ones that scripts use, the ones that run scripts
among them.
-/

set_option autoImplicit false

namespace SlideDeck.Programs

open SlideDeck SlideDeck.Text

/-- Whether a text of a command cannot be given to the system. -/
def holdsNul (text : Text) : Bool := text.contains '\x00'

/-- Refuses a command that cannot be given to the system. -/
def checkCommand (command : Command) : Except SystemFault Unit :=
  if (command.program :: command.directory :: command.arguments).any holdsNul then
    .error .nulInCommand
  else .ok ()

/-- What the name of an installed program starts. In the directories of installed programs
the names of the directory itself and of the one above are those of directories. -/
def startInstalled (name : Text) (arguments : List Text) : Except SystemFault Script.Start := do
  FileTree.checkName name
  if Script.isInstalled name then return ⟨name, name, arguments⟩
  throw (if name == Path.here || name == Path.above then .permissionDenied else .notFound)

/-- Runs commands, which see some variables. -/
def runner (environment : Text.Entries) : Runner := fun files here command => do
  checkCommand command
  let (place, entry) ← files.find here command.directory
  if entry != .directory then throw .notDirectory
  let arguments := command.arguments.map Script.ofText
  let start ←
    if command.program.contains '/' then
      Script.Start.ofPath files place (Script.ofText command.program) arguments
    else startInstalled command.program arguments
  return Script.runAlone files place environment (Script.Shell.runStart start)

end SlideDeck.Programs
