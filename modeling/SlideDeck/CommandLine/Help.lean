import SlideDeck.CommandLine.Invocation

/-!
# Help

What the program says about a level of its commands: the subject, how the level is
used, and a section each for its commands, operands and options.

A section has a row for each of its members, and the texts about them begin in one
column behind the longest member. Where the members take much of the width and some
text does not fit beside them, each text of the section stands in a line of its own.
-/

set_option autoImplicit false

namespace SlideDeck.CommandLine

open SlideDeck SlideDeck.Text

/-- The name of the program. -/
def programName : Text := "beamer-slides".toList

/-- The version of the program. -/
def programVersion : Text := "0.1.0".toList

/-- How many columns help has. -/
def width : Nat := 100

/-- A number of blanks. -/
def blanks (count : Nat) : Text := List.replicate count ' '

/-! ## Rows -/

/-- A member of a section. -/
structure Row where
  /-- What stands in front of the member and does not count for its length. -/
  lead : Text := []
  /-- The member. -/
  face : Text
  about : Text
  /-- What is said about the value that counts where none is given. -/
  remark : Text := []
  deriving DecidableEq, Repr

/-- The text about a member. -/
def Row.text (row : Row) : Text :=
  if row.remark.isEmpty then row.about else row.about ++ ' ' :: row.remark

/-- How much room the longest member of a section takes. -/
def longest (rows : List Row) : Nat := rows.foldl (fun most row => max most row.face.length) 2

/-- How many columns of a section are not for the texts. -/
def taken (rows : List Row) : Nat := longest rows + 12

/-- Whether the texts of a section stand in lines of their own: its members take more
than two fifths of the width, and some text is longer than what they leave. -/
def isBroken (rows : List Row) : Bool :=
  let taken := taken rows
  taken ≤ width && 2 * width < 5 * taken &&
    rows.any fun row => width - taken < row.about.length + row.remark.length

/-- A row of a section. -/
def rowLine (broken : Bool) (longest : Nat) (row : Row) : Text :=
  let gap := if broken then '\n' :: blanks 10 else blanks (longest + 2 - row.face.length)
  blanks 2 ++ row.lead ++ row.face ++ gap ++ row.text

/-- A section, or nothing if it has no rows. -/
def titled? (title : String) (rows : List Row) : Option Text :=
  if rows.isEmpty then none
  else some (unlines (title.toList :: rows.map (rowLine (isBroken rows) (longest rows))))

/-! ## Members -/

/-- What stands for a value. -/
def placeholder (name : Text) : Text :=
  '<' :: name.map (fun c => if c = '-' then '_' else c.toUpper) ++ ['>']

/-- An option as it is written, with what stands for its value. -/
def OptionSpec.face (spec : OptionSpec) : Text :=
  let name := '-' :: '-' :: spec.name
  if spec.kind = .flag then name else name ++ ' ' :: placeholder spec.name

/-- The letter of an option in front of it, or the room for it. -/
def leadOf : Option Char → Text
  | some letter => ['-', letter, ',', ' ']
  | none => blanks 4

/-- The row of an option. -/
def OptionSpec.row (spec : OptionSpec) : Row where
  lead := leadOf spec.letter
  face := spec.face
  about := spec.about
  remark :=
    match spec.standard with
    | some value => "[default: ".toList ++ value ++ [']']
    | none => []

/-- The row of an operand. -/
def OperandSpec.row (spec : OperandSpec) : Row where
  face := placeholder spec.name
  about := spec.about

/-- The flags with which the arguments ask about a level. -/
def Level.questions (level : Level) : List OptionSpec :=
  let help := { flag "help" "Print help" with letter := some 'h' }
  let version := { flag "version" "Print version" with letter := some 'V' }
  if level.path.isEmpty then [help, version] else [help]

/-- The rows of the commands of a level. -/
def Level.commandRows (level : Level) : List Row :=
  if level.commands.isEmpty then []
  else
    (level.commands ++
      [("help".toList, "Print this message or the help of the given subcommand(s)".toList)]).map
      fun (name, about) => { face := name, about }

/-! ## Texts -/

/-- The place of the command in the usage of a level. The outermost level can do
without one. -/
def Level.commandPlace (level : Level) : List Text :=
  if level.commands.isEmpty then []
  else if level.path.isEmpty then ["[COMMAND]".toList]
  else ["<COMMAND>".toList]

/-- How a level is used. -/
def Level.usage (level : Level) : Text :=
  let wanted := (level.options.filter OptionSpec.wanted).map OptionSpec.face
  let operands := level.operands.map fun spec => placeholder spec.name
  "Usage: ".toList ++ join [' '] (programName :: level.path ++ "[OPTIONS]".toList :: wanted ++
    operands ++ level.commandPlace)

/-- What the program says about a level. -/
def Level.help (level : Level) : Text :=
  let parts := [
    titled? "Commands:" level.commandRows,
    titled? "Arguments:" (level.operands.map OperandSpec.row),
    titled? "Options:" ((level.options ++ level.questions).map OptionSpec.row)]
  join "\n\n".toList (level.about :: level.usage :: parts.filterMap id) ++ ['\n']

/-- What the program says about its version. -/
def versionLine : Text := programName ++ ' ' :: programVersion ++ ['\n']

/-- What the program says about the level at a path. -/
def helpAt? (path : List Text) : Option Text :=
  (levels.find? fun level => level.path == path).map Level.help

end SlideDeck.CommandLine
