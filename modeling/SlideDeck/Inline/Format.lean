import SlideDeck.Inline.Emoji
import SlideDeck.Latex.Basic

/-!
# Inline formatting

A line of slide text may hold code between backquotes, bold text between double
asterisks and italic text between asterisks. Emoji go first; then the code spans
are cut out, so that their text is escaped and nothing else; the text around
them is escaped before its emphasis is turned into commands, so that the braces
of those commands are never escaped.
-/

set_option autoImplicit false

namespace SlideDeck.Inline

open SlideDeck SlideDeck.Text

/-! ## Code spans -/

/-- The character around code spans. -/
def backquote : Char := '\x60'

/-- A part of a line: text, or the content of a code span. -/
inductive Span where
  | text (s : Text)
  | code (s : Text)
  deriving DecidableEq, Repr

/-- The non-empty content of a code span behind its opening backquote, and the
text behind the closing one. -/
def codeSpan? (s : Text) : Option (Text × Text) :=
  match splitOnce backquote s with
  | some ([], _) => none
  | other => other

/-- Puts one character in front of the first text part. -/
def Span.consText (c : Char) : List Span → List Span
  | .text s :: spans => .text (c :: s) :: spans
  | spans => .text [c] :: spans

/-- The parts of the line behind the first `covered` characters. -/
def spansFrom : Nat → Text → List Span
  | _, [] => []
  | covered + 1, _ :: cs => spansFrom covered cs
  | 0, c :: cs =>
    match if c = backquote then codeSpan? cs else none with
    | some (code, rest) => .code code :: spansFrom (cs.length - rest.length) cs
    | none => Span.consText c (spansFrom 0 cs)

/-- The parts of a line: code spans, and the text around them. A backquote that
opens no code span is text. -/
def spans (s : Text) : List Span := spansFrom 0 s

/-! ## Emphasis -/

/-- Matches a bold span: two asterisks, the shortest text of at least one
character on one line, two asterisks. -/
def boldSpan : Matcher Text
  | '*' :: '*' :: c :: cs =>
    if c = '\n' then none
    else
      (splitBefore (· ≠ '\n') (skip? ['*', '*']) cs).map fun (body, rest) =>
        (Latex.command "textbf".toList (c :: body), rest)
  | _ => none

/-- Matches an italic span: an asterisk, text without asterisks, an asterisk. -/
def italicSpan : Matcher Text
  | '*' :: cs =>
    match splitOnce '*' cs with
    | some (c :: body, rest) => some (Latex.command "textit".toList (c :: body), rest)
    | _ => none
  | _ => none

/-- Turns the emphasis of escaped text into commands, bold text first. -/
def emphasize (s : Text) : Text := substitute italicSpan (substitute boldSpan s)

/-! ## Whole lines -/

/-- One part of a line as LaTeX. -/
def Span.toLatex : Span → Text
  | .text s => emphasize (Latex.escape s)
  | .code s => Latex.command "texttt".toList (Latex.escape s)

/-- A line of slide text as LaTeX. -/
def format (s : Text) : Text := (spans (sanitize s)).flatMap Span.toLatex

end SlideDeck.Inline
