import SlideDeck.Lint.Issue
import SlideDeck.Lint.Verbatim

/-!
# Advice

Two checks that no build depends on: a frame should have a title, and an
underscore outside of math, names and code should be escaped.
-/

set_option autoImplicit false

namespace SlideDeck.Lint

open SlideDeck SlideDeck.Text

/-! ## Frame titles -/

/-- What follows the beginning of a frame on its line. -/
structure FrameHead where
  /-- The options in brackets, if there are any. -/
  options : Option Text
  /-- The text behind them. -/
  rest : Text
  deriving DecidableEq, Repr

/-- The text behind an overlay specification in angle brackets, if it begins with
one. -/
def dropOverlay (s : Text) : Text :=
  match s with
  | '<' :: behind =>
    match splitOnce '>' behind with
    | some (_, rest) => rest
    | none => s
  | _ => s

/-- Reads what follows the beginning of a frame. -/
def FrameHead.read (s : Text) : FrameHead :=
  let s := dropOverlay s
  match Latex.bracketed? s with
  | some (options, rest) => ⟨some options, rest⟩
  | none => ⟨none, s⟩

/-- The first frame that begins in the code of a line. -/
def frameHead? (code : Text) : Option FrameHead :=
  (splitOnText? (Latex.beginEnvironment "frame".toList) code).map fun (_, behind) =>
    .read behind

/-- Whether the text begins with one of the literals. -/
def startsWithAny (literals : List Text) (s : Text) : Bool :=
  literals.any fun literal => startsWith literal s

/-- Whether a title stands on the line of the frame. -/
def FrameHead.titled (head : FrameHead) : Bool :=
  startsWithAny ["\x7b".toList, "\\frametitle".toList, "\\titlepage".toList]
    (trimStart head.rest)

/-- The options that say that a frame has no title. -/
def untitledOptions : List Text := [
  "plain".toList, "standout".toList, "noframenumbering".toList]

/-- The key of an option. -/
def optionKey (option : Text) : Text := trim (option.takeWhile (· ≠ '='))

/-- Whether the options say that the frame has no title. -/
def FrameHead.exempt (head : FrameHead) : Bool :=
  match head.options with
  | some options =>
    (splitAt ',' options).any fun option => untitledOptions.contains (optionKey option)
  | none => false

/-- Whether the line gives the frame that begins on the line before a title. -/
def titlesFrame (line : Text) : Bool :=
  startsWithAny ["\\frametitle".toList, "\\titlepage".toList, "\\maketitle".toList]
    (trimStart line)

/-- Whether the line begins a frame without title; `next` is the line after it. -/
def lacksTitle (line next : Text) : Bool :=
  match frameHead? (Latex.codeOf line) with
  | some head => !head.titled && !head.exempt && !titlesFrame next
  | none => false

/-- The issues about frame titles. -/
def titleIssues : List Bool → List NumberedLine → List Issue
  | inside :: mask, (number, line) :: rest =>
    let next := match rest with
      | [] => []
      | (_, next) :: _ => next
    let later := titleIssues mask rest
    if !inside && lacksTitle line next then ⟨number, .untitledFrame⟩ :: later else later
  | _, _ => []

/-! ## Underscores -/

/-- The text behind a span at the front, if there is such a span. -/
abbrev SpanEnd := Text → Option Text

/-- A fixed text. -/
def literalSpan (literal : Text) : SpanEnd := skip? literal

/-- From an opening to the nearest closing text. -/
def delimitedSpan (opening closing : Text) : SpanEnd := fun s =>
  (skip? opening s).bind fun rest =>
    (splitBefore (· ≠ '\n') (skip? closing) rest).map Prod.snd

/-- Between two dollar signs. -/
def mathSpan : SpanEnd
  | '$' :: rest => (splitOnce '$' rest).map Prod.snd
  | _ => none

/-- A command with an argument in braces. -/
def argumentSpan (name : Text) : SpanEnd := fun s =>
  (skip? ('\\' :: name) s).bind fun rest => (Latex.braced? rest).map Prod.snd

/-- The text without a star at its front. -/
def dropStar : Text → Text
  | '*' :: rest => rest
  | rest => rest

/-- The commands whose argument is a name and no text. -/
def namingCommands : List Text := [
  "label".toList, "ref".toList, "eqref".toList, "pageref".toList, "cite".toList,
  "url".toList, "href".toList, "includegraphics".toList, "input".toList,
  "include".toList, "usepackage".toList, "lstinline".toList]

/-- A naming command with star, option and argument. -/
def namingSpan : SpanEnd
  | '\\' :: rest =>
    if namingCommands.contains (rest.takeWhile Char.isAlpha) then
      (Latex.braced? (Latex.dropBracketed (dropStar (rest.dropWhile Char.isAlpha)))).map Prod.snd
    else none
  | _ => none

/-- The characters of command names, inner ones included. -/
def isCommandChar (c : Char) : Bool := c.isAlpha || c == '@'

/-- The name of a command, with its star. -/
def commandSpan : SpanEnd
  | '\\' :: c :: rest =>
    if isCommandChar c then some (dropStar (rest.dropWhile isCommandChar)) else none
  | _ => none

/-- The spans in which underscores are right, in the order in which they are
removed: escaped dollar signs go before math. -/
def underscoreSpans : List SpanEnd := [
  literalSpan "\\$".toList,
  delimitedSpan "$$".toList "$$".toList,
  mathSpan,
  delimitedSpan "\\(".toList "\\)".toList,
  delimitedSpan "\\[".toList "\\]".toList,
  argumentSpan "texttt".toList,
  namingSpan,
  literalSpan "\\_".toList,
  commandSpan]

/-- The text without the spans of one kind. -/
def removeSpans (span : SpanEnd) (s : Text) : Text :=
  substitute (fun s => (span s).map fun rest => ([], rest)) s

/-- The text of a line outside of all those spans. -/
def plainText (line : Text) : Text :=
  underscoreSpans.foldl (fun s span => removeSpans span s) (Latex.codeOf line)

/-- The issues about underscores. -/
def underscoreIssues (mask : List Bool) (ls : List NumberedLine) : List Issue :=
  ((unmasked mask ls).filter fun (_, line) => '_' ∈ plainText line).map fun (number, _) =>
    ⟨number, .unescapedUnderscore⟩

end SlideDeck.Lint
