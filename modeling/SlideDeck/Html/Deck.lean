import SlideDeck.Html.Fragment
import SlideDeck.Notice

/-!
# Decks

A deck is a presentation as it is read back from a LaTeX document: title, author
and date, and the titled frames with their notes. Titles, contents and notes of a
deck are HTML.
-/

set_option autoImplicit false

namespace SlideDeck

open SlideDeck.Text

/-- A slide of a deck. -/
structure DeckSlide where
  title : Text := []
  content : Text := []
  notes : Option Text := none
  deriving DecidableEq, Repr

/-- A presentation read back from a document. -/
structure Deck where
  title : Text := []
  author : Text := []
  date : Option Text := none
  slides : List DeckSlide := []
  deriving DecidableEq, Repr

namespace Deck

/-! ## Title, author and date -/

/-- The argument of the first use of a command, up to the first closing brace,
trimmed. -/
def argumentOf? (name source : Text) : Option Text :=
  (find? (fun s => (skip? ('\\' :: name) s).bind Latex.braced?) source).map fun (argument, _) =>
    trim argument

/-- The title of a document. -/
def titleOf (source : Text) : Text :=
  ((argumentOf? "title".toList source).map Html.fragment).getD "Presentation".toList

/-- The author of a document. -/
def authorOf (source : Text) : Text :=
  ((argumentOf? "author".toList source).map Html.fragment).getD []

/-- The date of a document, if it has one that does not change. -/
def dateOf (source : Text) : Option Text :=
  ((argumentOf? "date".toList source).filter fun date =>
    !date.isEmpty && date != "\\today".toList).map Html.fragment

/-! ## Frames -/

/-- A titled frame as it is written. -/
structure Frame where
  title : Text
  body : Text
  deriving DecidableEq, Repr

/-- The title that ends a line, in braces with nothing but blanks behind them. -/
def lineTitle? (line : Text) : Option Text :=
  match (line.reverse.dropWhile Html.isLineBlank) with
  | '\x7d' :: reversed => some reversed.reverse
  | _ => none

/-- Matches a titled frame. Its title is the rest of its first line; its body ends
at the first end of a frame, wherever that stands. -/
def frame? : Matcher Frame := fun s =>
  (skip? (Latex.beginEnvironment "frame".toList) s).bind fun rest =>
    match Latex.dropBracketed rest with
    | '\x7b' :: rest =>
      (splitOnce '\n' rest).bind fun (line, behind) =>
        (lineTitle? line).bind fun title =>
          (splitOnText? (Latex.endEnvironment "frame".toList) behind).map fun (body, behind) =>
            (⟨title, body⟩, behind)
    | _ => none

/-- The titled frames of a document, each with the text behind it. -/
def framesOf (source : Text) : List (Frame × Text) :=
  matchesOf (fun s => (frame? s).map fun (frame, behind) => ((frame, behind), behind)) source

/-! ## Notes -/

/-- The text up to the closing brace that leaves `depth` open braces. A brace
behind a backslash does not count; `escaped` tells whether a backslash stands
before the text. -/
def balancedFrom (escaped : Bool) (depth : Nat) : Text → Option Text
  | [] => none
  | c :: cs =>
    if c = '\x7b' && !escaped then (balancedFrom false (depth + 1) cs).map (c :: ·)
    else if c = '\x7d' && !escaped then
      match depth with
      | 0 => some []
      | depth + 1 => (balancedFrom false depth cs).map (c :: ·)
    else (balancedFrom (c == '\\') depth cs).map (c :: ·)

/-- The text behind the opening brace of a note that directly follows. -/
def noteStart? (behind : Text) : Option Text :=
  (skip? "\\note".toList (trimStart behind)).bind fun rest => skip? ['\x7b'] (trimStart rest)

/-- The text of a note that directly follows. -/
def note? (behind : Text) : Option Text :=
  (noteStart? behind).bind fun rest => (balancedFrom false 0 rest).map trim

/-- The notices about what follows a frame. -/
def noteNotices (behind : Text) : List Notice :=
  match noteStart? behind with
  | some rest => if (balancedFrom false 0 rest).isNone then [.unterminatedNote] else []
  | none => []

/-- A note as HTML: its text, in which only bold commands are converted. -/
def noteHtml (note : Text) : Text := Html.convertBold note

/-! ## Documents -/

/-- The slide of a frame with the text behind it. -/
def slideOf (frame : Frame) (behind : Text) : DeckSlide where
  title := Html.fragment frame.title
  content := Html.fragment frame.body
  notes := (note? behind).map noteHtml

/-- The deck of a LaTeX document. -/
def read (source : Text) : Deck where
  title := titleOf source
  author := authorOf source
  date := dateOf source
  slides := (framesOf source).map fun (frame, behind) => slideOf frame behind

/-- The notices about a LaTeX document. -/
def notices (source : Text) : List Notice :=
  (framesOf source).flatMap fun (_, behind) => noteNotices behind

end Deck

end SlideDeck
