import SlideDeck.Keyed
import SlideDeck.Notice

/-!
# Metadata

A presentation may begin with a block of settings between two lines of three
hyphens, one `key: value` a line. A value may stand in quotes; an empty one
counts as not given.
-/

set_option autoImplicit false

namespace SlideDeck.Markdown

open SlideDeck SlideDeck.Text

/-- Whether the line is a delimiter of the metadata block, or, further down, a
break between slides. -/
def isBreak (line : Text) : Bool := trim line == "---".toList

/-- The characters with which a key begins. -/
def isKeyStart (c : Char) : Bool := c.isAlpha || c == '_'

/-- The characters of a key. -/
def isKeyChar (c : Char) : Bool := c.isAlphanum || c == '_' || c == '-'

/-- The text without the quotes around it, when it is the same mark at both
ends. -/
def stripQuotes (mark : Char) (s : Text) : Option Text :=
  match s with
  | first :: second :: rest =>
    let inner := second :: rest
    if first = mark && inner.getLast? = some mark then some inner.dropLast else none
  | _ => none

/-- The value as it is meant: without blanks around it, and without the quotes
then around it. -/
def unquote (value : Text) : Text :=
  let value := trim value
  match stripQuotes '\x22' value with
  | some inner => inner
  | none => (stripQuotes '\x27' value).getD value

/-- Reads a trimmed line of the metadata block: a key and its value. -/
def setting? (line : Text) : Option (Text × Text) :=
  match line with
  | [] => none
  | c :: cs =>
    if isKeyStart c then
      let key := c :: cs.takeWhile isKeyChar
      match trimStart (cs.dropWhile isKeyChar) with
      | ':' :: value => some (key, unquote value)
      | _ => none
    else none

/-- Adds what a line of the metadata block says. -/
def addEntry (metadata : Entries) (line : Text) : Entries :=
  match setting? (trim line) with
  | some (key, value) => if value.isEmpty then metadata else metadata.put key value
  | none => metadata

/-- The lines of a source, cut into the metadata block and the body. -/
structure Sections where
  /-- The lines between the delimiters, or up to the end of the source. -/
  metadata : List Text
  /-- Whether a metadata block was begun and never ended. -/
  unclosed : Bool
  /-- The lines behind the metadata block. -/
  body : List Text
  deriving DecidableEq, Repr

/-- The lines up to the closing delimiter, and those behind it. -/
def Sections.ofBlock : List Text → Sections
  | [] => ⟨[], true, []⟩
  | line :: rest =>
    if isBreak line then ⟨[], false, rest⟩
    else
      let later := ofBlock rest
      { later with metadata := line :: later.metadata }

/-- Cuts the lines of a source. There is a metadata block only if its delimiter is
the first line. -/
def Sections.ofLines : List Text → Sections
  | [] => ⟨[], false, []⟩
  | line :: rest => if isBreak line then ofBlock rest else ⟨[], false, line :: rest⟩

/-- The settings of a metadata block. -/
def readMetadata (block : List Text) : Entries := block.foldl addEntry []

/-- One notice for each line that is neither blank nor a setting; `number` is the
number of the first line given. -/
def malformedFrom (number : Nat) : List Text → List Notice
  | [] => []
  | line :: rest =>
    let later := malformedFrom (number + 1) rest
    if (setting? (trim line)).isNone && !isBlankText line then
      .malformedMetadata number line :: later
    else later

/-- The notices about the metadata block, whose first line is the second of the
source. -/
def Sections.notices (sections : Sections) : List Notice :=
  malformedFrom 2 sections.metadata ++ if sections.unclosed then [.unclosedMetadata] else []

end SlideDeck.Markdown
