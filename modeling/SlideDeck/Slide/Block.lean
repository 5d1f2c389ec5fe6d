import SlideDeck.Markdown.Presentation
import SlideDeck.Slide.Table
import SlideDeck.Slide.Diagram
import SlideDeck.Text.DecimalDigit

/-!
# Blocks of a slide

The content of a slide is a sequence of blocks: lists, tables, code, headings,
quotes and paragraphs. A block of several lines stays open until a line comes
that does not continue it; at most one is open at a time. Each block is then
written as the lines of the page.
-/

set_option autoImplicit false

namespace SlideDeck.Slide

open SlideDeck SlideDeck.Text SlideDeck.Markdown

/-! ## The kind of a line -/

/-- The two kinds of lists. -/
inductive ListKind where
  | bulleted
  | numbered
  deriving DecidableEq, Repr

/-- What a line outside of code is. -/
inductive LineKind where
  | fence (tag : Text)
  | separator
  | row (cells : List Text)
  | blank
  | item (kind : ListKind) (text : Text)
  | minorHeading (text : Text)
  | majorHeading (text : Text)
  | quote (text : Text)
  | paragraph (text : Text)
  deriving DecidableEq, Repr

/-- The text of an item behind its marker: a blank has to follow the marker, and
the text is one line. -/
def itemText? (behind : Text) : Option Text :=
  match behind with
  | [] => none
  | c :: _ =>
    let text := trimStart behind
    if isBlank c && '\n' ∉ text then some (trim text) else none

/-- The text of an item with a hyphen or an asterisk in front. -/
def bulleted? (line : Text) : Option Text :=
  match trimStart line with
  | c :: behind => if c = '-' || c = '*' then itemText? behind else none
  | [] => none

/-- The text of an item with a number and a period in front. -/
def numbered? (line : Text) : Option Text :=
  let leading := trimStart line
  match leading.takeWhile isDecimalDigit, leading.dropWhile isDecimalDigit with
  | _ :: _, '.' :: behind => itemText? behind
  | _, _ => none

/-- The kind of a line of running text: neither a table row nor blank nor an
item. -/
def LineKind.ofText (line : Text) : LineKind :=
  match skip? "#### ".toList line with
  | some text => .minorHeading (trim text)
  | none =>
    match skip? "### ".toList line with
    | some text => .majorHeading (trim text)
    | none =>
      match skip? "> ".toList line with
      | some text => .quote (trim text)
      | none => .paragraph line

/-- The kind of a line outside of code. -/
def LineKind.of (line : Text) : LineKind :=
  match fenceTag? line with
  | some tag => .fence (trim tag)
  | none =>
    if Table.isRow line then
      if Table.isSeparator line then .separator else .row (Table.cellsOf line)
    else if isBlankText line then .blank
    else
      match bulleted? line with
      | some text => .item .bulleted text
      | none =>
        match numbered? line with
        | some text => .item .numbered text
        | none => .ofText (trim line)

/-! ## Blocks -/

/-- A block of a slide. -/
inductive Block where
  | list (kind : ListKind) (items : List Text)
  | table (rows : List (List Text))
  | code (tag : Text) (lines : List Text) (closed : Bool)
  | minorHeading (text : Text)
  | majorHeading (text : Text)
  | quote (text : Text)
  | paragraph (text : Text)
  deriving DecidableEq, Repr

/-- The block that further lines may continue. -/
inductive Opened where
  | nothing
  | list (kind : ListKind) (items : List Text)
  | table (rows : List (List Text))
  | code (tag : Text) (lines : List Text)
  deriving DecidableEq, Repr

/-- The block that was open, ended by something else than its own end. -/
def Opened.blocks : Opened → List Block
  | .nothing => []
  | .list kind items => [.list kind items]
  | .table rows => [.table rows]
  | .code tag lines => [.code tag lines false]

/-- The tag of code without tag. -/
def untagged : Text := "text".toList

/-- What a line outside of code does: the blocks it completes, and the block that
is then open. -/
def Opened.meet (opened : Opened) : LineKind → List Block × Opened
  | .fence tag => (opened.blocks, .code (if tag.isEmpty then untagged else tag) [])
  | .separator =>
    match opened with
    | .table rows => ([], .table rows)
    | _ => (opened.blocks, .nothing)
  | .row cells =>
    match opened with
    | .table rows => ([], .table (rows ++ [cells]))
    | _ => (opened.blocks, .table [cells])
  | .blank => (opened.blocks, .nothing)
  | .item kind text =>
    match opened with
    | .list openKind items =>
      if openKind = kind then ([], .list kind (items ++ [text]))
      else (opened.blocks, .list kind [text])
    | _ => (opened.blocks, .list kind [text])
  | .minorHeading text => (opened.blocks ++ [.minorHeading text], .nothing)
  | .majorHeading text => (opened.blocks ++ [.majorHeading text], .nothing)
  | .quote text => (opened.blocks ++ [.quote text], .nothing)
  | .paragraph text => (opened.blocks ++ [.paragraph text], .nothing)

/-- What a line does: in code, only a fence is more than one more line. -/
def Opened.step (opened : Opened) (line : Text) : List Block × Opened :=
  match opened with
  | .code tag lines =>
    if isFence line then ([.code tag lines true], .nothing)
    else ([], .code tag (lines ++ [line]))
  | _ => opened.meet (LineKind.of line)

/-- The blocks that the lines complete, behind what is open. -/
def blocksFrom : Opened → List Text → List Block
  | opened, [] => opened.blocks
  | opened, line :: rest =>
    let (done, next) := opened.step line
    done ++ blocksFrom next rest

/-- The blocks of the content of a slide. -/
def blocksOf (content : List Text) : List Block := blocksFrom .nothing content

/-! ## Blocks on the page -/

/-- The environment of a list. -/
def ListKind.environment : ListKind → Text
  | .bulleted => "itemize".toList
  | .numbered => "enumerate".toList

/-- The lines from the first to the last that is not blank. -/
def dropBlankEnds (ls : List Text) : List Text :=
  ((ls.dropWhile isBlankText).reverse.dropWhile isBlankText).reverse

/-- The tags of code whose language can be set, with the name of the language. -/
def languages : List (Text × Text) := [
  ("bash".toList, "bash".toList),
  ("sh".toList, "sh".toList),
  ("shell".toList, "bash".toList),
  ("c".toList, "C".toList),
  ("cpp".toList, "C++".toList),
  ("c++".toList, "C++".toList),
  ("csharp".toList, "[Sharp]C".toList),
  ("fortran".toList, "Fortran".toList),
  ("haskell".toList, "Haskell".toList),
  ("html".toList, "HTML".toList),
  ("java".toList, "Java".toList),
  ("latex".toList, "[LaTeX]TeX".toList),
  ("tex".toList, "TeX".toList),
  ("lisp".toList, "Lisp".toList),
  ("make".toList, "make".toList),
  ("matlab".toList, "Matlab".toList),
  ("perl".toList, "Perl".toList),
  ("php".toList, "PHP".toList),
  ("python".toList, "Python".toList),
  ("py".toList, "Python".toList),
  ("r".toList, "R".toList),
  ("ruby".toList, "Ruby".toList),
  ("sql".toList, "SQL".toList),
  ("xml".toList, "XML".toList)]

/-- The language of a tag, whatever the case of its letters. -/
def language? (tag : Text) : Option Text :=
  (languages.find? fun entry => eqIgnoringCase entry.1 tag).map Prod.snd

/-- The tag of code that is a diagram. -/
def diagramTag : Text := "mermaid".toList

/-- The environment of code. -/
def listing : Text := "lstlisting".toList

/-- The option of a listing that names its language. -/
def languageOption (tag : Text) : Text :=
  match language? tag with
  | some name => "[language=".toList ++ name ++ [']']
  | none => []

/-- The lines of code that has text. -/
def codeLines (tag : Text) (body : List Text) : List Text :=
  if tag = diagramTag then [Diagram.pictureOf (unlines body)]
  else
    [Latex.beginEnvironment listing ++ languageOption tag, unlines body,
      Latex.endEnvironment listing]

/-- The parts of the page for a block, each beginning on a line of its own. -/
def Block.parts : Block → List Text
  | .list kind items =>
    Latex.beginEnvironment kind.environment ::
      items.map (fun text => "\\item ".toList ++ Inline.format text) ++
      [Latex.endEnvironment kind.environment]
  | .table rows =>
    let rendered := Table.render rows
    if rendered.isEmpty then [] else [rendered]
  | .code tag lines _ =>
    let body := dropBlankEnds lines
    if body.isEmpty then [] else codeLines tag body
  | .minorHeading text => [Latex.command "textbf".toList (Inline.format text), []]
  | .majorHeading text =>
    [Latex.group ("\\large".toList ++ Latex.command "textbf".toList (Inline.format text)), []]
  | .quote text =>
    [Latex.beginEnvironment "quote".toList, Inline.format text, Latex.endEnvironment "quote".toList]
  | .paragraph text => [Inline.format text, []]

/-- The content of a slide as the body of a frame. -/
def body (content : List Text) : Text := trim (unlines ((blocksOf content).flatMap Block.parts))

/-- The notices about a block. -/
def Block.notices : Block → List Notice
  | .table rows => Table.notices rows
  | .code tag lines closed =>
    let body := dropBlankEnds lines
    (if closed then [] else [.unclosedCode]) ++
      if !body.isEmpty && tag = diagramTag then Diagram.notices (unlines body) else []
  | _ => []

/-- The notices about the content of a slide. -/
def notices (content : List Text) : List Notice := (blocksOf content).flatMap Block.notices

/-! ## Speaker notes -/

/-- The lines of the notes that have text, each as LaTeX. -/
def noteLines (notes : List Text) : List Text :=
  ((notes.map trim).filter fun line => !line.isEmpty).map Inline.format

/-- Speaker notes as the body of a note. -/
def noteBody (notes : List Text) : Text := join " \\\\\n".toList (noteLines notes)

end SlideDeck.Slide
