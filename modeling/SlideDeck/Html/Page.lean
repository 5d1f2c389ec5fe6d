import SlideDeck.Html.Deck
import SlideDeck.Resource

/-!
# Pages

A deck as one HTML page: a title section, a section for each slide and a closing
section, with the theme of the page and its further resources around them.
-/

set_option autoImplicit false

namespace SlideDeck

open SlideDeck.Text

/-- How a deck is put on a page. -/
structure PageOptions where
  theme : Text := "default".toList
  /-- The address or directory of the theme. -/
  themeBase : Text := "themes".toList
  stylesheets : List Resource := []
  scripts : List Resource := []
  /-- Whether the content of the resources stands in the page. -/
  embed : Bool := true
  deriving DecidableEq, Repr

namespace Page

/-- The style of every page. -/
def style : List Text := [
  "body \x7b margin: 0; font-family: sans-serif; \x7d".toList,
  "section \x7b box-sizing: border-box; min-height: 100vh; padding: 4vh 6vw; \x7d".toList,
  "section h2 \x7b margin-top: 0; \x7d".toList,
  "pre \x7b overflow-x: auto; \x7d".toList,
  "table \x7b border-collapse: collapse; margin: 1em auto; \x7d".toList,
  "th, td \x7b padding: 0.3em 0.8em; border-bottom: 1px solid #ccc; \x7d".toList,
  "aside.notes \x7b display: none; \x7d".toList]

/-- The text without slashes at its end. -/
def dropSlashes (s : Text) : Text := (s.reverse.dropWhile (· == '/')).reverse

/-- A file of the theme. -/
def themeFile (options : PageOptions) (extension : Text) : Text :=
  dropSlashes options.themeBase ++ '/' :: options.theme ++ '.' :: extension

/-- The tags of the resources that can be included. -/
def tags (read : Resource.Reader) (use : Resource.Use) (embed : Bool)
    (resources : List Resource) : List Text :=
  resources.filterMap fun resource => (resource.tag read use embed).toOption

/-- The notices about the resources that cannot be included. -/
def resourceNotices (read : Resource.Reader) (embed : Bool) (resources : List Resource) :
    List Notice :=
  resources.filterMap fun resource =>
    match resource.tag read .script embed with
    | .ok _ => none
    | .error failure => some (.resourceLeftOut resource.path failure)

/-- An element with attributes; `head` is its name with them. -/
def elementWith (head name body : Text) : Text :=
  Html.openTag head ++ body ++ Html.closeTag name

/-- The title section. -/
def titleSection (deck : Deck) (today : Text) : List Text :=
  [Html.openTag "section class=\"title-slide\"".toList, Html.element "h1".toList deck.title] ++
  (if deck.author.isEmpty then []
    else [elementWith "p class=\"author\"".toList "p".toList deck.author]) ++
  [elementWith "p class=\"date\"".toList "p".toList (deck.date.getD today),
    Html.closeTag "section".toList]

/-- The section of a slide. -/
def slideSection (slide : DeckSlide) : List Text :=
  [Html.openTag "section class=\"slide\"".toList] ++
  (if slide.title.isEmpty then [] else [Html.element "h2".toList slide.title]) ++
  (if slide.content.isEmpty then [] else [slide.content]) ++
  (match slide.notes with
    | some notes => [elementWith "aside class=\"notes\"".toList "aside".toList notes]
    | none => []) ++
  [Html.closeTag "section".toList]

/-- The closing section. -/
def closingSection : List Text := [
  Html.openTag "section class=\"closing\"".toList,
  Html.element "h2".toList "Questions?".toList,
  Html.closeTag "section".toList]

/-- The head of a page. -/
def head (deck : Deck) (options : PageOptions) (stylesheets : List Text) : List Text :=
  ["<!DOCTYPE html>".toList, "<html lang=\"en\">".toList, "<head>".toList,
    "<meta charset=\"UTF-8\">".toList,
    "<meta name=\"viewport\" content=\"width=device-width, initial-scale=1.0\">".toList,
    Html.element "title".toList (Html.stripTags deck.title),
    "<link rel=\"stylesheet\" href=\"".toList ++ themeFile options "css".toList ++ "\">".toList,
    "<style>".toList] ++ style ++ ["</style>".toList] ++ stylesheets ++ ["</head>".toList]

/-- The body of a page. -/
def body (deck : Deck) (options : PageOptions) (today : Text) (scripts : List Text) : List Text :=
  ["<body>".toList, "<main class=\"deck\">".toList] ++ titleSection deck today ++
  deck.slides.flatMap slideSection ++ closingSection ++
  ["</main>".toList,
    "<script src=\"".toList ++ themeFile options "js".toList ++ "\"></script>".toList] ++
  scripts ++ ["</body>".toList, "</html>".toList]

/-- A deck as a page. A deck without date shows `today`. -/
def render (read : Resource.Reader) (today : Text) (deck : Deck) (options : PageOptions) : Text :=
  terminated <|
    head deck options (tags read .stylesheet options.embed options.stylesheets) ++
    body deck options today (tags read .script options.embed options.scripts)

/-- The notices about a page. -/
def notices (read : Resource.Reader) (options : PageOptions) : List Notice :=
  resourceNotices read options.embed options.stylesheets ++
    resourceNotices read options.embed options.scripts

/-- The page of a LaTeX document. -/
def ofLatex (read : Resource.Reader) (today : Text) (source : Text) (options : PageOptions) :
    Text :=
  render read today (Deck.read source) options

/-- The notices about a LaTeX document and its page. -/
def noticesOfLatex (read : Resource.Reader) (source : Text) (options : PageOptions) :
    List Notice :=
  Deck.notices source ++ notices read options

end Page

end SlideDeck
