import SlideDeck.Lint.Issue
import SlideDeck.Lint.Verbatim

/-!
# Balance

Braces and environments have to be closed in the order in which they were opened.
Braces are counted: a closing brace without partner is reported where it stands,
and the opening braces that are left are reported together at the end.
Environments are kept on a stack, innermost first. Inside an environment without
LaTeX nothing but its own end is seen.
-/

set_option autoImplicit false

namespace SlideDeck.Lint

open SlideDeck SlideDeck.Text

/-! ## Braces -/

/-- The unescaped braces outside comments, with the numbers of their lines. -/
def bracesOfLines (ls : List NumberedLine) : List (Nat × Latex.Brace) :=
  ls.flatMap fun (number, line) =>
    (Latex.bracesOf (Latex.codeOf line)).map fun brace => (number, brace)

/-- The lines of the closing braces without partner, when `depth` braces are open
before. -/
def strayBracesFrom : Nat → List (Nat × Latex.Brace) → List Nat
  | _, [] => []
  | depth, (_, .opening) :: rest => strayBracesFrom (depth + 1) rest
  | 0, (line, .closing) :: rest => line :: strayBracesFrom 0 rest
  | depth + 1, (_, .closing) :: rest => strayBracesFrom depth rest

/-- How many braces are open behind, when `depth` are open before. -/
def openBracesFrom : Nat → List (Nat × Latex.Brace) → Nat
  | depth, [] => depth
  | depth, (_, .opening) :: rest => openBracesFrom (depth + 1) rest
  | depth, (_, .closing) :: rest => openBracesFrom (depth - 1) rest

/-- The issues about braces. `lastLine` is where those left open are reported. -/
def braceIssues (lastLine : Nat) (ls : List NumberedLine) : List Issue :=
  let braces := bracesOfLines ls
  let left := openBracesFrom 0 braces
  (strayBracesFrom 0 braces).map (fun line => ⟨line, .strayClosingBrace⟩) ++
    if left = 0 then [] else [⟨lastLine, .unclosedBraces left⟩]

/-! ## Environments -/

/-- The environments that are open, innermost first, with the lines on which they
begin, and the one among them whose content is no LaTeX. -/
structure Nesting where
  opened : List (Text × Nat) := []
  verbatim : Option Text := none
  deriving DecidableEq, Repr

/-- The part of a line in which ends of environments are seen. -/
def Nesting.visible (nesting : Nesting) (line : Text) : Text :=
  if nesting.verbatim.isSome then line else Latex.codeOf line

/-- Whether one end of an environment counts. -/
def Nesting.sees (nesting : Nesting) : Latex.EnvironmentEnd → Bool
  | .opens _ => nesting.verbatim.isNone
  | .closes name => nesting.verbatim.isNone || nesting.verbatim == some name

/-- What one end of an environment that counts does. -/
def Nesting.meet (nesting : Nesting) (line : Nat) : Latex.EnvironmentEnd → List Issue × Nesting
  | .opens name =>
    let verbatim := if Latex.verbatimEnvironments.contains name then some name else none
    ([], { opened := (name, line) :: nesting.opened, verbatim })
  | .closes name =>
    match nesting.opened with
    | [] => ([⟨line, .endWithoutBegin name⟩], {})
    | (innermost, openedAt) :: opened =>
      let issues :=
        if innermost = name then []
        else [⟨line, .crossedEnvironments innermost openedAt name⟩]
      (issues, { opened })

/-- What one end of an environment does. -/
def Nesting.step (nesting : Nesting) (line : Nat) (environmentEnd : Latex.EnvironmentEnd) :
    List Issue × Nesting :=
  if nesting.sees environmentEnd then nesting.meet line environmentEnd else ([], nesting)

/-- What the ends of environments on one line do. -/
def Nesting.run (line : Nat) : Nesting → List Latex.EnvironmentEnd → List Issue × Nesting
  | nesting, [] => ([], nesting)
  | nesting, environmentEnd :: rest =>
    let (issues, next) := nesting.step line environmentEnd
    let (later, last) := Nesting.run line next rest
    (issues ++ later, last)

/-- The environments left open, outermost first. -/
def Nesting.unclosed (nesting : Nesting) : List Issue :=
  nesting.opened.reverse.map fun (name, line) => ⟨line, .unclosedEnvironment name⟩

/-- The issues about environments on the lines, when `nesting` is open before. -/
def environmentIssuesFrom : Nesting → List NumberedLine → List Issue
  | nesting, [] => nesting.unclosed
  | nesting, (number, line) :: rest =>
    let (issues, next) := nesting.run number (Latex.environmentEnds (nesting.visible line))
    issues ++ environmentIssuesFrom next rest

/-- The issues about environments. -/
def environmentIssues (ls : List NumberedLine) : List Issue := environmentIssuesFrom {} ls

end SlideDeck.Lint
