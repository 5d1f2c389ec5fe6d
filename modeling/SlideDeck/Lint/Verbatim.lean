import SlideDeck.Latex.Environment

/-!
# Lines that are no LaTeX

The lines of an environment whose content is no LaTeX, its first and last line
included. Other checks pass over them.
-/

set_option autoImplicit false

namespace SlideDeck.Lint

open SlideDeck SlideDeck.Text

/-- The environment without LaTeX that a line begins, if it begins one. -/
def begunVerbatim? (code : Text) : Option Text :=
  Latex.verbatimEnvironments.find? fun name => includes (Latex.beginEnvironment name) code

/-- Whether the line ends the environment. -/
def endsVerbatim (name line : Text) : Bool := includes (Latex.endEnvironment name) line

/-- Whether the line is inside, and the environment that is open behind it, when
`opened` is open before it. -/
def verbatimStep (opened : Option Text) (line : Text) : Bool × Option Text :=
  match opened with
  | some name => (true, if endsVerbatim name line then none else some name)
  | none =>
    let code := Latex.codeOf line
    match begunVerbatim? code with
    | some name => (true, if endsVerbatim name code then none else some name)
    | none => (false, none)

/-- Which lines are inside, when `opened` is open before them. -/
def verbatimMaskFrom : Option Text → List Text → List Bool
  | _, [] => []
  | opened, line :: rest =>
    let (inside, next) := verbatimStep opened line
    inside :: verbatimMaskFrom next rest

/-- Which lines are inside an environment without LaTeX. -/
def verbatimMask (ls : List Text) : List Bool := verbatimMaskFrom none ls

/-- A line with its number. -/
abbrev NumberedLine := Nat × Text

/-- The lines with their numbers, `number` being that of the first. -/
def numberedFrom (number : Nat) : List Text → List NumberedLine
  | [] => []
  | line :: rest => (number, line) :: numberedFrom (number + 1) rest

/-- The lines of a source with their numbers. -/
def numbered (ls : List Text) : List NumberedLine := numberedFrom 1 ls

/-- The lines that the mask does not mark. -/
def unmasked : List Bool → List NumberedLine → List NumberedLine
  | inside :: mask, line :: rest =>
    if inside then unmasked mask rest else line :: unmasked mask rest
  | _, _ => []

end SlideDeck.Lint
