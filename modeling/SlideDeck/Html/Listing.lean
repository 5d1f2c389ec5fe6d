import SlideDeck.Html.Element
import SlideDeck.Latex.Environment
import SlideDeck.Text.Number

/-!
# Code on the page

The listings of a frame are taken out before the other conversions and put back
behind them, so that their text is left alone. Meanwhile a marker with the number
of the listing stands in its place.
-/

set_option autoImplicit false

namespace SlideDeck.Html

open SlideDeck SlideDeck.Text

/-- The character around the number of a listing in its marker. -/
def markerChar : Char := Char.ofNat 0

/-- The marker of a listing. -/
def marker (index : Nat) : Text := markerChar :: Text.ofNat index ++ [markerChar]

/-- The blanks within a line. -/
def isLineBlank (c : Char) : Bool := c == ' ' || c == '\t'

/-- The text without one newline at its front. -/
def dropNewline : Text → Text
  | '\n' :: rest => rest
  | rest => rest

/-- The environments that hold code. -/
def codeEnvironments : List Text := ["lstlisting".toList, "verbatim".toList]

/-- The text behind the first of the literals with which the text begins. -/
def skipAny? (literals : List Text) (s : Text) : Option Text :=
  literals.findSome? fun literal => skip? literal s

/-- The text behind the end of a listing, blanks and one newline before it
included. -/
def listingEnd? (s : Text) : Option Text :=
  skipAny? (codeEnvironments.map Latex.endEnvironment) ((dropNewline s).dropWhile isLineBlank)

/-- The code of a listing and the text behind it. The blanks and one newline behind
its head are no code. -/
def listingBody? (s : Text) : Option (Text × Text) :=
  splitBefore (fun _ => true) listingEnd? (dropNewline (s.dropWhile isLineBlank))

/-- The characters of a language in the options of a listing. -/
def isLanguageChar (c : Char) : Bool := c.isAlpha || c == '+' || c == '#'

/-- The language that the options of a listing name. -/
def languageOf? (options : Text) : Option Text :=
  find? (fun s => (skip? "language=".toList s).bind fun rest =>
    let name := rest.takeWhile isLanguageChar
    if name.isEmpty then none else some name) options

/-- The attribute that names the language of code. -/
def languageClass (options : Option Text) : Text :=
  match options.bind languageOf? with
  | some name => " class=\"language-".toList ++ lowerAscii name ++ "\"".toList
  | none => []

/-- Code as an element. -/
def codeBlock (options : Option Text) (code : Text) : Text :=
  element "pre".toList
    (openTag ("code".toList ++ languageClass options) ++ escapeCode code ++
      closeTag "code".toList)

/-- Reads a listing behind its head: with options if that is possible, and
otherwise without. -/
def listingTail? (s : Text) : Option (Text × Text) :=
  let withOptions := (Latex.bracketed? s).bind fun (options, rest) =>
    (listingBody? rest).map fun (code, behind) => (codeBlock (some options) code, behind)
  withOptions.or ((listingBody? s).map fun (code, behind) => (codeBlock none code, behind))

/-- Matches a listing, with its element. -/
def listing? : Matcher Text := fun s =>
  (skipAny? (codeEnvironments.map Latex.beginEnvironment) s).bind listingTail?

/-- Takes the listings out behind the first `covered` characters: the text with
markers, numbered from `index`, and the elements of the listings. -/
def takeListingsFrom : Nat → Nat → Text → Text × List Text
  | _, _, [] => ([], [])
  | index, covered + 1, _ :: cs => takeListingsFrom index covered cs
  | index, 0, c :: cs =>
    match listing? (c :: cs) with
    | some (block, rest) =>
      let (text, blocks) := takeListingsFrom (index + 1) (cs.length - rest.length) cs
      (marker index ++ text, block :: blocks)
    | none =>
      let (text, blocks) := takeListingsFrom index 0 cs
      (c :: text, blocks)

/-- Takes the listings out: the text with markers, and the elements of the
listings. -/
def takeListings (s : Text) : Text × List Text := takeListingsFrom 0 0 s

/-- Puts listings in the place of their markers; `index` is the number of the
first. -/
def putListingsFrom (index : Nat) (s : Text) : List Text → Text
  | [] => s
  | block :: blocks => putListingsFrom (index + 1) (replace (marker index) block s) blocks

/-- Puts the listings in the place of their markers. -/
def putListings (s : Text) (blocks : List Text) : Text := putListingsFrom 0 s blocks

end SlideDeck.Html
