import SlideDeck.Latex.Basic
import SlideDeck.Text.Search

/-!
# The ends of environments

Reading environments sees only their ends: the commands that begin and end one,
with the name between the braces. The environments whose content is no LaTeX are
listed here, for every reader that has to pass over them.
-/

set_option autoImplicit false

namespace SlideDeck.Latex

open SlideDeck.Text

/-- One end of an environment. -/
inductive EnvironmentEnd where
  | opens (name : Text)
  | closes (name : Text)
  deriving DecidableEq, Repr

/-- The text between braces at the front, up to the first closing brace, and the
text behind it. -/
def braced? : Text → Option (Text × Text)
  | '\x7b' :: rest => splitOnce '\x7d' rest
  | _ => none

/-- The text between brackets at the front, up to the first closing bracket, and
the text behind it. -/
def bracketed? : Text → Option (Text × Text)
  | '[' :: rest => splitOnce ']' rest
  | _ => none

/-- The text behind what stands between brackets at the front, if anything
does. -/
def dropBracketed (s : Text) : Text :=
  match bracketed? s with
  | some (_, rest) => rest
  | none => s

/-- Matches one end of an environment. Blanks around the name do not count. -/
def environmentEnd? : Matcher EnvironmentEnd := fun s =>
  match skip? "\\begin".toList s with
  | some rest => (braced? rest).map fun (name, behind) => (.opens (trim name), behind)
  | none =>
    (skip? "\\end".toList s).bind fun rest =>
      (braced? rest).map fun (name, behind) => (.closes (trim name), behind)

/-- The ends of environments in a text, in order. -/
def environmentEnds (s : Text) : List EnvironmentEnd := matchesOf environmentEnd? s

/-- The environments whose content is no LaTeX. -/
def verbatimEnvironments : List Text := [
  "lstlisting".toList, "verbatim".toList, "Verbatim".toList, "minted".toList,
  "comment".toList]

end SlideDeck.Latex
