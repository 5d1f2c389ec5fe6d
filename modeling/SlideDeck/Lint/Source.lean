import SlideDeck.Lint.Balance
import SlideDeck.Lint.Advice
import SlideDeck.Notice

/-!
# Checking a source

All checks of a LaTeX source together, and the errors among them that stop a
build. A build is more lenient: it does not count the braces of lines that are
no LaTeX.
-/

set_option autoImplicit false

namespace SlideDeck.Lint

open SlideDeck SlideDeck.Text

/-- The issues about markers that the source lacks. -/
def markerIssues (source : Text) : List Issue :=
  (Marker.all.filter fun marker => !includes marker.text source).map fun marker =>
    ⟨1, .missingMarker marker⟩

/-- The number of the last line; a source without lines has one. -/
def lastLine (ls : List Text) : Nat := max ls.length 1

/-- All issues of a source, by line. -/
def issues (source : Text) : List Issue :=
  let ls := lines source
  let mask := verbatimMask ls
  byLine <|
    markerIssues source ++ braceIssues (lastLine ls) (numbered ls) ++
    environmentIssues (numbered ls) ++ titleIssues mask (numbered ls) ++
    underscoreIssues mask (numbered ls)

/-- The errors of a source that stop a build, by line. -/
def blockers (source : Text) : List Issue :=
  let ls := lines source
  byLine <|
    (markerIssues source ++
      braceIssues (lastLine ls) (unmasked (verbatimMask ls) (numbered ls)) ++
      environmentIssues (numbered ls)).filter Issue.isError

/-- The source with its issues mended, as far as that can be done: not at all. -/
def fix (source : Text) : Text := source

/-- The notices about mending a source. -/
def fixNotices : List Notice := [.fixesNotImplemented]

end SlideDeck.Lint
