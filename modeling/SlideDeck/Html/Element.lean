import SlideDeck.Text.Search

/-!
# Tags and entities

The building blocks of the HTML text that the library writes.
-/

set_option autoImplicit false

namespace SlideDeck.Html

open SlideDeck SlideDeck.Text

/-- An opening tag; `name` may carry attributes. -/
def openTag (name : Text) : Text := '<' :: name ++ ['>']

/-- A closing tag. -/
def closeTag (name : Text) : Text := "</".toList ++ name ++ ['>']

/-- An element without attributes. -/
def element (name body : Text) : Text := openTag name ++ body ++ closeTag name

/-- The entity of an opening angle bracket. -/
def lessThan : Text := "&lt;".toList

/-- The entity of a closing angle bracket. -/
def greaterThan : Text := "&gt;".toList

/-- The entity of an ampersand. -/
def ampersand : Text := "&amp;".toList

/-- The entity of a backslash. -/
def backslash : Text := "&#92;".toList

/-- One character with angle brackets as entities. -/
def escapeAngle (c : Char) : Text :=
  if c = '<' then lessThan else if c = '>' then greaterThan else [c]

/-- The text with angle brackets as entities. -/
def escapeAngles (s : Text) : Text := s.flatMap escapeAngle

/-- One character with angle brackets and ampersands as entities. -/
def escapeMarkup (c : Char) : Text := if c = '&' then ampersand else escapeAngle c

/-- The text whose angle brackets are entities, with angle brackets again. -/
def unescapeAngles (s : Text) : Text := replace greaterThan ['>'] (replace lessThan ['<'] s)

/-- Escapes code in which the angle brackets are entities already: ampersands
become entities too, but those entities stay as they are. -/
def escapeCode (s : Text) : Text := (unescapeAngles s).flatMap escapeMarkup

/-- Whether the characters up to the next semicolon satisfy `allowed`, and there
is at least one. -/
def entityBody (allowed : Char → Bool) (s : Text) : Bool :=
  !(s.takeWhile allowed).isEmpty && startsWith [';'] (s.dropWhile allowed)

/-- Whether an entity goes on behind its ampersand. -/
def isEntityTail : Text → Bool
  | '#' :: rest => entityBody Char.isDigit rest
  | rest => entityBody Char.isLower rest

/-- The text behind a tag at the front; there is at least one character between
its brackets. -/
def tag? : Text → Option Text
  | '<' :: rest =>
    match splitOnce '>' rest with
    | some (_ :: _, behind) => some behind
    | _ => none
  | _ => none

/-- The text without its tags. -/
def stripTags (s : Text) : Text := substitute (fun s => (tag? s).map fun rest => ([], rest)) s

end SlideDeck.Html
