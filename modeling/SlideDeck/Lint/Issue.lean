import SlideDeck.Text.Number

/-!
# Issues

What the checks of a LaTeX source find: a finding at a line. A finding knows its
severity, the name of its rule and its wording.
-/

set_option autoImplicit false

namespace SlideDeck.Lint

open SlideDeck

/-- Whether a finding stops a build or is advice. -/
inductive Severity where
  | error
  | warning
  deriving DecidableEq, Repr

/-- What every document needs somewhere. -/
inductive Marker where
  | documentClass
  | beginDocument
  | endDocument
  deriving DecidableEq, Repr

/-- What a check found. -/
inductive Finding where
  | missingMarker (marker : Marker)
  | strayClosingBrace
  | unclosedBraces (count : Nat)
  | endWithoutBegin (name : Text)
  | crossedEnvironments (opened : Text) (line : Nat) (closed : Text)
  | unclosedEnvironment (name : Text)
  | untitledFrame
  | unescapedUnderscore
  /-- A finding of another checker, in its own words. -/
  | described (severity : Severity) (rule message : Text)
  deriving DecidableEq, Repr

/-- A finding at a line. The first line is number 1. -/
structure Issue where
  line : Nat
  finding : Finding
  deriving DecidableEq, Repr

/-! ## Wording -/

/-- The text of a marker. -/
def Marker.text : Marker → Text
  | .documentClass => "\\documentclass".toList
  | .beginDocument => "\\begin\x7bdocument\x7d".toList
  | .endDocument => "\\end\x7bdocument\x7d".toList

/-- The rule that asks for a marker. -/
def Marker.rule : Marker → Text
  | .documentClass => "document-class".toList
  | .beginDocument => "begin-document".toList
  | .endDocument => "end-document".toList

/-- How the absence of a marker is reported. -/
def Marker.message : Marker → Text
  | .documentClass => "Missing \\documentclass declaration".toList
  | marker => "Missing ".toList ++ marker.text

/-- All markers. -/
def Marker.all : List Marker := [.documentClass, .beginDocument, .endDocument]

/-- Missing titles and underscores are advice; all other findings are errors. -/
def Finding.severity : Finding → Severity
  | .untitledFrame | .unescapedUnderscore => .warning
  | .described severity _ _ => severity
  | _ => .error

/-- The name of the rule. -/
def Finding.rule : Finding → Text
  | .missingMarker marker => marker.rule
  | .strayClosingBrace | .unclosedBraces _ => "brace-balance".toList
  | .endWithoutBegin _ | .crossedEnvironments .. | .unclosedEnvironment _ =>
    "environment-balance".toList
  | .untitledFrame => "frame-title".toList
  | .unescapedUnderscore => "unescaped-underscore".toList
  | .described _ rule _ => rule

/-- The beginning of an environment, as it is quoted. -/
def beginning (name : Text) : Text := "\\begin\x7b".toList ++ name ++ "\x7d".toList

/-- The end of an environment, as it is quoted. -/
def ending (name : Text) : Text := "\\end\x7b".toList ++ name ++ "\x7d".toList

/-- The wording of a finding. -/
def Finding.message : Finding → Text
  | .missingMarker marker => marker.message
  | .strayClosingBrace => "Unmatched closing brace".toList
  | .unclosedBraces count => Text.ofNat count ++ " unclosed brace(s)".toList
  | .endWithoutBegin name => ending name ++ " without matching ".toList ++ beginning name
  | .crossedEnvironments opened line closed =>
    beginning opened ++ " on line ".toList ++ Text.ofNat line ++ " closed by ".toList ++
      ending closed
  | .unclosedEnvironment name => beginning name ++ " is never closed".toList
  | .untitledFrame => "Frame has no title".toList
  | .unescapedUnderscore => "Unescaped underscore outside math mode".toList
  | .described _ _ message => message

/-- Whether the issue is an error. -/
def Issue.isError (issue : Issue) : Bool := issue.finding.severity == .error

/-! ## Order -/

/-- Puts an issue before the first that stands on no earlier line. -/
def Issue.insert (issue : Issue) : List Issue → List Issue
  | [] => [issue]
  | other :: issues =>
    if issue.line ≤ other.line then issue :: other :: issues
    else other :: Issue.insert issue issues

/-- The issues by line; those of one line keep their order. -/
def byLine (issues : List Issue) : List Issue := issues.foldr Issue.insert []

/-! ## Summary and report -/

/-- How many errors and warnings there are. -/
structure Summary where
  errors : Nat
  warnings : Nat
  deriving DecidableEq, Repr

/-- Counts issues. -/
def Summary.of (issues : List Issue) : Summary where
  errors := issues.countP Issue.isError
  warnings := issues.countP fun issue => !issue.isError

/-- Whether there are errors. -/
def Summary.hasErrors (summary : Summary) : Bool := 0 < summary.errors

/-- The wording of a summary. -/
def Summary.message (summary : Summary) : Text :=
  Text.ofNat summary.errors ++ " error(s), ".toList ++ Text.ofNat summary.warnings ++
    " warning(s)".toList

/-- The mark in front of a reported issue. -/
def Severity.mark : Severity → Char
  | .error => Char.ofNat 0x2717
  | .warning => Char.ofNat 0x26A0

/-- One issue of a report about a file. -/
def Issue.report (file : Text) (issue : Issue) : Text :=
  issue.finding.severity.mark :: ' ' :: file ++ ':' :: Text.ofNat issue.line ++
    ' ' :: issue.finding.message ++ " (".toList ++ issue.finding.rule ++ ")".toList

/-- A report about a file: its issues and their summary, one a line. -/
def report (file : Text) (issues : List Issue) : Text :=
  Text.terminated (issues.map (Issue.report file) ++ [(Summary.of issues).message])

end SlideDeck.Lint
