import SlideDeck.Slide.Block

/-!
# Documents

A presentation as a complete document for the typesetting engine: preamble, title
page, one frame for each slide with its notes behind it, and a closing frame.

The settings of a document come from the metadata of the presentation; what it
leaves open comes from the options of the caller.
-/

set_option autoImplicit false

namespace SlideDeck

open SlideDeck.Text SlideDeck.Markdown

namespace Document

/-! ## Settings -/

/-- What holds where the metadata of a presentation says nothing. -/
structure Options where
  theme : Text := "Madrid".toList
  colorTheme : Text := "default".toList
  aspectRatio : Text := "169".toList
  title : Option Text := none
  author : Option Text := none
  date : Option Text := none
  deriving DecidableEq, Repr

/-- The settings of one document. Title, author and date are LaTeX. -/
structure Settings where
  theme : Text
  colorTheme : Text
  aspectRatio : Text
  title : Text
  author : Text
  date : Text
  deriving DecidableEq, Repr

/-- The first value that is not blank under the keys, trimmed. -/
def lookup (metadata : Entries) (keys : List Text) : Option Text :=
  ((keys.filterMap metadata.get?).map trim).find? fun value => !value.isEmpty

/-- The aspect ratios of the document class. -/
def aspectRatios : List Text := [
  "1610".toList, "169".toList, "149".toList, "54".toList, "43".toList, "32".toList,
  "141".toList, "235".toList]

/-- The ASCII digits of a text. -/
def digitsOf (value : Text) : Text := value.filter Char.isDigit

/-- The aspect ratio that a text means: its digits, if the document class knows
them, and 16:9 otherwise. -/
def normalizeAspectRatio (value : Text) : Text :=
  if aspectRatios.contains (digitsOf value) then digitsOf value else "169".toList

/-- The notices about an aspect ratio. -/
def aspectRatioNotices (value : Text) : List Notice :=
  if aspectRatios.contains (digitsOf value) then [] else [.unsupportedAspectRatio value]

/-- A text of the title page. -/
def titleText (s : Text) : Text := Latex.escape (Inline.sanitize s)

/-- The aspect ratio as it was given. -/
def givenAspectRatio (metadata : Entries) (options : Options) : Text :=
  (lookup metadata ["aspectRatio".toList, "aspectratio".toList, "aspect_ratio".toList,
    "aspect".toList]).getD options.aspectRatio

/-- The settings that metadata and options make together. -/
def settings (metadata : Entries) (options : Options) : Settings where
  theme := (lookup metadata ["theme".toList]).getD options.theme
  colorTheme :=
    (lookup metadata ["colorTheme".toList, "colortheme".toList, "color_theme".toList]).getD
      options.colorTheme
  aspectRatio := normalizeAspectRatio (givenAspectRatio metadata options)
  title :=
    (((lookup metadata ["title".toList]).or options.title).map titleText).getD
      "Presentation".toList
  author := (((lookup metadata ["author".toList]).or options.author).map titleText).getD []
  date :=
    (((lookup metadata ["date".toList]).or options.date).map titleText).getD "\\today".toList

/-! ## Parts of a document -/

/-- A command that loads a package. -/
def package (name : Text) : Text := Latex.command "usepackage".toList name

/-- The part of the preamble that is the same in all documents. -/
def preamble : List Text := [
  Latex.commandWith "usepackage".toList "utf8".toList "inputenc".toList,
  Latex.commandWith "usepackage".toList "T1".toList "fontenc".toList,
  package "lmodern".toList,
  package "graphicx".toList,
  package "booktabs".toList,
  package "listings".toList,
  package "tikz".toList,
  Latex.command "usetikzlibrary".toList "arrows.meta,positioning,shapes".toList,
  Latex.command "lstset".toList
    "basicstyle=\\ttfamily\\small, breaklines=true, frame=single, columns=fullflexible".toList,
  Latex.command "setbeamertemplate".toList "navigation symbols".toList ++ Latex.group []]

/-- The lines up to the beginning of the text. -/
def opening (settings : Settings) (hasNotes : Bool) : List Text :=
  [Latex.commandWith "documentclass".toList ("aspectratio=".toList ++ settings.aspectRatio)
      "beamer".toList,
    Latex.command "usetheme".toList settings.theme,
    Latex.command "usecolortheme".toList settings.colorTheme] ++
  preamble ++
  (if hasNotes then [Latex.command "setbeameroption".toList "show notes".toList] else []) ++
  [[],
    Latex.command "title".toList settings.title,
    Latex.command "author".toList settings.author,
    Latex.command "date".toList settings.date,
    [],
    Latex.beginEnvironment "document".toList,
    []]

/-- The frame of the title page. -/
def titleFrame : List Text := [
  Latex.beginEnvironment "frame".toList, "\\titlepage".toList,
  Latex.endEnvironment "frame".toList, []]

/-- The option of a frame that holds a listing. -/
def fragileOption (body : Text) : Text :=
  if Text.includes (Latex.beginEnvironment Slide.listing) body then "[fragile]".toList else []

/-- The lines of a note, if it has a text. -/
def noteLines (note : Text) : List Text :=
  if note.isEmpty then [] else ["\\note\x7b".toList, note, "\x7d".toList]

/-- The frame of a slide, with its note behind it. -/
def frame (slide : Slide) : List Text :=
  let body := Slide.body slide.content
  [Latex.beginEnvironment "frame".toList ++ fragileOption body ++
      Latex.group (Inline.format slide.title)] ++
  (if body.isEmpty then [] else [body]) ++
  [Latex.endEnvironment "frame".toList] ++
  noteLines (Slide.noteBody slide.notes) ++ [[]]

/-- The last frame and the end of the text. -/
def closing : List Text := [
  Latex.beginEnvironment "frame".toList ++ "[plain]".toList, "\\centering".toList,
  Latex.group "\\Huge Questions?".toList, Latex.endEnvironment "frame".toList, [],
  Latex.endEnvironment "document".toList]

/-! ## Documents -/

/-- A presentation as a document. -/
def render (presentation : Presentation) (options : Options) : Text :=
  terminated <|
    opening (settings presentation.metadata options) presentation.hasNotes ++ titleFrame ++
    presentation.slides.flatMap frame ++ closing

/-- The notices about a presentation. -/
def notices (presentation : Presentation) (options : Options) : List Notice :=
  aspectRatioNotices (givenAspectRatio presentation.metadata options) ++
    presentation.slides.flatMap fun slide => Slide.notices slide.content

/-- The document of a Markdown source. -/
def ofMarkdown (source : Text) (options : Options) : Text :=
  render (Presentation.read source) options

/-- The notices about a Markdown source. -/
def noticesOfMarkdown (source : Text) (options : Options) : List Notice :=
  Presentation.notices source ++ notices (Presentation.read source) options

end Document

end SlideDeck
