import SlideDeck.Markdown.Metadata
import SlideDeck.Text.Search

/-!
# Presentations

A presentation is its metadata and its slides. In the source a slide begins at a
heading of the second level or at a break; everything up to the next such line
belongs to it. A line that begins with `Note:` or `Notes:` turns to the speaker
notes of the slide. Between two fences nothing of this holds: there every line
is code.
-/

set_option autoImplicit false

namespace SlideDeck.Markdown

open SlideDeck SlideDeck.Text

/-! ## Fences -/

/-- The mark that opens and closes a block of code. -/
def fenceMark : Text := List.replicate 3 '\x60'

/-- The text behind the mark, if the line is a fence. -/
def fenceTag? (line : Text) : Option Text := skip? fenceMark (trim line)

/-- Whether the line is a fence. -/
def isFence (line : Text) : Bool := (fenceTag? line).isSome

/-- Whether the line after `line` is inside a block of code. -/
def insideAfter (inside : Bool) (line : Text) : Bool := if isFence line then !inside else inside

/-! ## Slides -/

/-- A slide as it was written: its title, the lines of its content and those of
its speaker notes. -/
structure Slide where
  title : Text := []
  content : List Text := []
  notes : List Text := []
  deriving DecidableEq, Repr

/-- Whether at least one line of the notes has text. -/
def Slide.hasNotes (slide : Slide) : Bool := slide.notes.any fun line => !isBlankText line

/-- Whether there is nothing on the slide. -/
def Slide.isBlank (slide : Slide) : Bool :=
  slide.title.isEmpty && !slide.hasNotes && slide.content.all isBlankText

/-- A presentation: its metadata and its slides. -/
structure Presentation where
  metadata : Entries := []
  slides : List Slide := []
  deriving DecidableEq, Repr

/-- Whether any slide has notes. -/
def Presentation.hasNotes (presentation : Presentation) : Bool :=
  presentation.slides.any Slide.hasNotes

/-! ## The role of a line -/

/-- What a line outside of code does. -/
inductive Role where
  /-- Opens a slide without title. -/
  | slideBreak
  /-- Turns to the notes, with the first of their text. -/
  | notes (text : Text)
  /-- Opens a slide with this title. -/
  | slideTitle (title : Text)
  /-- Gives the presentation its title. -/
  | documentTitle (title : Text)
  /-- Belongs to the slide as it is. -/
  | plain
  deriving DecidableEq, Repr

/-- The text behind the marker of notes. -/
def notesText? (leading : Text) : Option Text :=
  (skip? "Notes:".toList leading).or (skip? "Note:".toList leading)

/-- The role of a line outside of code that is no fence. -/
def Role.of (line : Text) : Role :=
  let leading := trimStart line
  if isBreak line then .slideBreak
  else
    match notesText? leading with
    | some text => .notes (trim text)
    | none =>
      match skip? "## ".toList leading with
      | some title => .slideTitle (trim title)
      | none =>
        match skip? "# ".toList leading with
        | some title => .documentTitle (trim title)
        | none => .plain

/-! ## Reading a source -/

/-- The lists of a slide that lines can go to. -/
inductive Part where
  | content
  | notes
  deriving DecidableEq, Repr

/-- How far a source has been read. -/
structure Reading where
  metadata : Entries := []
  /-- The slides that are complete. -/
  slides : List Slide := []
  /-- The slide that is being read. -/
  current : Option Slide := none
  /-- Where its lines go. -/
  part : Part := .content
  /-- Whether the next line is inside a block of code. -/
  insideCode : Bool := false
  deriving DecidableEq, Repr

namespace Reading

/-- Completes the current slide. One with nothing on it is dropped. -/
def close (reading : Reading) : Reading :=
  let slides := match reading.current with
    | some slide => if slide.isBlank then reading.slides else reading.slides ++ [slide]
    | none => reading.slides
  { reading with slides, current := none, part := .content }

/-- Completes the current slide and begins `slide`. -/
def start (reading : Reading) (slide : Slide) : Reading :=
  { reading.close with current := some slide }

/-- Adds a line to the current slide. Before the first slide it is dropped. -/
def push (reading : Reading) (line : Text) : Reading :=
  match reading.current with
  | none => reading
  | some slide =>
    let slide := match reading.part with
      | .content => { slide with content := slide.content ++ [line] }
      | .notes => { slide with notes := slide.notes ++ [line] }
    { reading with current := some slide }

/-- Turns to the notes of the current slide. -/
def startNotes (reading : Reading) (text : Text) : Reading :=
  if reading.current.isNone then reading
  else
    let turned := { reading with part := .notes }
    if text.isEmpty then turned else turned.push text

/-- Gives the presentation its title, unless it has one. -/
def setTitle (reading : Reading) (title : Text) : Reading :=
  if reading.metadata.hasKey "title".toList then reading
  else { reading with metadata := reading.metadata.put "title".toList title }

/-- Does what the role of a line says. -/
def play (reading : Reading) (line : Text) : Role → Reading
  | .slideBreak => reading.start {}
  | .notes text => reading.startNotes text
  | .slideTitle title => reading.start { title }
  | .documentTitle title => reading.setTitle title
  | .plain => reading.push line

/-- Reads one line. -/
def step (reading : Reading) (line : Text) : Reading :=
  let read :=
    if isFence line || reading.insideCode then reading.push line
    else reading.play line (Role.of line)
  { read with insideCode := insideAfter reading.insideCode line }

/-- Reads lines one after the other. -/
def run (reading : Reading) (ls : List Text) : Reading := ls.foldl step reading

/-- The presentation that has been read. -/
def finish (reading : Reading) : Presentation :=
  let closed := reading.close
  { metadata := closed.metadata, slides := closed.slides }

end Reading

/-- The presentation of the lines of a source. -/
def Presentation.ofSections (sections : Sections) : Presentation :=
  (Reading.run { metadata := readMetadata sections.metadata } sections.body).finish

/-- The presentation of a source. -/
def Presentation.read (source : Text) : Presentation :=
  .ofSections (Sections.ofLines (lines source))

/-- The notices about a source. -/
def Presentation.notices (source : Text) : List Notice :=
  (Sections.ofLines (lines source)).notices

end SlideDeck.Markdown
