import SlideDeck.Html.Lists
import SlideDeck.Html.Listing
import SlideDeck.Html.Tabular

/-!
# Fragments of a page

The body of a frame becomes a piece of HTML by a fixed sequence of conversions,
each of them over the whole text. Markup that the sequence does not foresee comes
out approximately.
-/

set_option autoImplicit false

namespace SlideDeck.Html

open SlideDeck SlideDeck.Text

/-! ## Characters that were written as commands -/

/-- Turns the commands that stand for one character into that character. -/
def convertSymbols (s : Text) : Text :=
  replace (Latex.symbol "textasciicircum".toList) ['^']
    (replace (Latex.symbol "textasciitilde".toList) ['~']
      (replace (Latex.symbol "textbackslash".toList) backslash s))

/-! ## Emphasis -/

/-- Whether the character is a brace. -/
def isBrace (c : Char) : Bool := c == '\x7b' || c == '\x7d'

/-- The text between braces at the front, when it holds no other braces, and the
text behind it. -/
def innermost? : Text → Option (Text × Text)
  | '\x7b' :: rest =>
    match rest.dropWhile (fun c => !isBrace c) with
    | '\x7d' :: behind => some (rest.takeWhile (fun c => !isBrace c), behind)
    | _ => none
  | _ => none

/-- Matches a command whose argument holds no braces, and puts it into an
element. -/
def spanCommand (names : List Text) (tag : Text) : Matcher Text := fun s =>
  names.findSome? fun name =>
    (skip? ('\\' :: name) s).bind fun rest =>
      (innermost? rest).map fun (body, behind) => (element tag body, behind)

/-- Turns the bold commands into elements. -/
def convertBold (s : Text) : Text := substitute (spanCommand ["textbf".toList] "strong".toList) s

/-- Turns the innermost emphasis commands into elements. -/
def convertInnermost (s : Text) : Text :=
  substitute (spanCommand ["texttt".toList] "code".toList)
    (substitute (spanCommand ["textit".toList, "emph".toList] "em".toList) (convertBold s))

/-- Does something a number of times. -/
def repeated (step : Text → Text) : Nat → Text → Text
  | 0, s => s
  | n + 1, s => repeated step n (step s)

/-- Turns emphasis commands into elements, up to four levels deep. -/
def convertEmphasis (s : Text) : Text := repeated convertInnermost 4 s

/-! ## Comments -/

/-- Removes the comments behind a character: `escaped` tells whether it is a
backslash, and `inside` whether it belongs to a comment. -/
def dropCommentsFrom (escaped inside : Bool) : Text → Text
  | [] => []
  | c :: cs =>
    if c = '\n' then c :: dropCommentsFrom false false cs
    else if inside then dropCommentsFrom false true cs
    else if c = '%' && !escaped then dropCommentsFrom false true cs
    else c :: dropCommentsFrom (c == '\\') false cs

/-- Removes each comment: what stands on a line from the first percent sign
without a backslash before it. -/
def dropComments (s : Text) : Text := dropCommentsFrom false false s

/-! ## Commands that leave nothing -/

/-- What centers text. -/
def centering : List Text := [
  Latex.beginEnvironment "center".toList, Latex.endEnvironment "center".toList,
  "\\centering".toList]

/-- The commands that set the size of text. -/
def sizes : List Text := [
  "tiny".toList, "scriptsize".toList, "footnotesize".toList, "small".toList,
  "normalsize".toList, "large".toList, "Large".toList, "LARGE".toList, "huge".toList,
  "Huge".toList]

/-- The text behind a command that sets the size. -/
def sizeCommand? (s : Text) : Option Text :=
  sizes.findSome? fun name =>
    (skip? ('\\' :: name) s).bind fun rest => if atWordEnd rest then some rest else none

/-- Removes what `span` finds. -/
def remove (span : Text → Option Text) (s : Text) : Text :=
  substitute (fun s => (span s).map fun rest => ([], rest)) s

/-- Stands where a picture would. -/
def picturePlaceholder : Text :=
  element "p".toList (element "em".toList "[Diagram: see the compiled PDF]".toList)

/-- Matches a picture. -/
def picture? : Matcher Text := fun s =>
  (skip? (Latex.beginEnvironment "tikzpicture".toList) s).bind fun rest =>
    (splitOnText? (Latex.endEnvironment "tikzpicture".toList) rest).map fun (_, behind) =>
      (picturePlaceholder, behind)

/-- The text without a star at its front. -/
def withoutStar : Text → Text
  | '*' :: rest => rest
  | rest => rest

/-- The text behind the name of a command and its star. -/
def commandName? : Text → Option Text
  | '\\' :: c :: rest =>
    if c.isAlpha then some (withoutStar (rest.dropWhile Char.isAlpha)) else none
  | _ => none

/-- The text behind a command with an option, if it has one, and an argument
without braces. -/
def commandWithArgument? (s : Text) : Option Text :=
  (commandName? s).bind fun rest => (innermost? (Latex.dropBracketed rest)).map Prod.snd

/-! ## Braces and escapes -/

/-- Removes the braces behind a character that is a backslash or not. -/
def dropGroupBracesFrom (escaped : Bool) : Text → Text
  | [] => []
  | c :: cs =>
    if isBrace c && !escaped then dropGroupBracesFrom false cs
    else c :: dropGroupBracesFrom (c == '\\') cs

/-- Removes the braces without a backslash before them. -/
def dropGroupBraces (s : Text) : Text := dropGroupBracesFrom false s

/-- The escapes that are left, with what they stand for, in the order in which
they are resolved. -/
def escapes : List (Text × Text) := [
  ("\\_".toList, "_".toList),
  ("\\&".toList, ampersand),
  ("\\%".toList, "%".toList),
  ("\\$".toList, "$".toList),
  ("\\#".toList, "#".toList),
  ("\\\x7b".toList, "\x7b".toList),
  ("\\\x7d".toList, "\x7d".toList)]

/-- Resolves the escapes that are left. -/
def resolveEscapes (s : Text) : Text :=
  escapes.foldl (fun s (written, meant) => replace written meant s) s

/-! ## Blank lines -/

/-- The blanks between two paragraphs. -/
def isGapChar (c : Char) : Bool := isLineBlank c || c == '\n'

/-- Matches two or more newlines with blanks between and behind them. -/
def gap? : Matcher Text
  | '\n' :: rest =>
    if '\n' ∈ rest.takeWhile isGapChar then some (['\n', '\n'], rest.dropWhile isGapChar)
    else none
  | _ => none

/-- Leaves one blank line between paragraphs. -/
def collapseGaps (s : Text) : Text := substitute gap? s

/-! ## The whole sequence -/

/-- The conversions before the listings are taken out. -/
def convertMarkup (s : Text) : Text :=
  convertEmphasis <| convertSymbols <| closeItems <| convertItems <| convertEnvironments <|
    replace "[fragile]".toList [] <| escapeAngles s

/-- Removes the commands that are left. -/
def dropCommands (s : Text) : Text :=
  remove commandName? <| remove commandWithArgument? <| substitute picture? <|
    remove sizeCommand? <| removeAny centering s

/-- The conversions after the listings are taken out. -/
def convertRest (s : Text) : Text :=
  collapseGaps <| resolveEscapes <| dropGroupBraces <| dropCommands <|
    replace rowEnd (openTag "br".toList) <| convertTables <| dropComments s

/-- The body of a frame as a piece of HTML. -/
def fragment (body : Text) : Text :=
  let (text, blocks) := takeListings (convertMarkup body)
  putListings (trim (convertRest text)) blocks

end SlideDeck.Html
