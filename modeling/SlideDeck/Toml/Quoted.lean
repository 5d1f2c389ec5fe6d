import SlideDeck.Text.Number
import SlideDeck.Text.Search

/-!
# Quoted text in TOML

A text is written in one of four forms: in double quotes, where a backslash begins
an escape, or in single quotes, where every character stands for itself; and each of
the two on one line or, in three quotes, over several. The writer takes the first
form that needs no escape, and an escaping form where there is none.
-/

set_option autoImplicit false

namespace SlideDeck.Toml

open SlideDeck SlideDeck.Text

/-- The mark around an escaping form. -/
def doubleMark : Char := '\x22'

/-- The mark around a form without escapes. -/
def singleMark : Char := '\x27'

/-- How a text is quoted. -/
structure Form where
  /-- Whether a backslash begins an escape. -/
  escaping : Bool
  /-- Whether the text may go over several lines. -/
  multiline : Bool
  deriving DecidableEq, Repr

/-! ## Writing -/

/-- Whether a character is a control character. -/
def isControl (c : Char) : Bool := c.toNat < 0x20 || c.toNat == 0x7F

/-- Whether a character can be written only as an escape. -/
def needsEscape (c : Char) : Bool := isControl c && c != '\t' && c != '\n'

/-- The length of the longest run of a character, when `current` of them stand in
front of the text. -/
def longestRunFrom (mark : Char) (current : Nat) : Text → Nat
  | [] => current
  | c :: rest =>
    if c = mark then longestRunFrom mark (current + 1) rest
    else max current (longestRunFrom mark 0 rest)

/-- The length of the longest run of a character. -/
def longestRun (mark : Char) (s : Text) : Nat := longestRunFrom mark 0 s

/-- Whether a form shows a text without any escape. -/
def Form.suits (form : Form) (s : Text) : Bool :=
  !s.any needsEscape && !(form.escaping && s.contains '\\') &&
  (form.multiline || !s.contains '\n') &&
  decide (longestRun (if form.escaping then doubleMark else singleMark) s ≤
    if form.multiline then 2 else 0)

/-- The forms in the order in which the writer tries them. -/
def Form.all : List Form := [⟨true, false⟩, ⟨false, false⟩, ⟨true, true⟩, ⟨false, true⟩]

/-- The form of a text. -/
def formOf (s : Text) : Form :=
  (Form.all.find? fun form => form.suits s).getD ⟨true, s.contains '\n'⟩

/-- A number below 256 as four hexadecimal digits. -/
def fourDigits (n : Nat) : Text :=
  let digits := (hexOfNat n).map Char.toUpper
  List.replicate (4 - digits.length) '0' ++ digits

/-- The escape of a character that has one. -/
def escape? (multiline : Bool) (c : Char) : Option Text :=
  if c = '\x08' then some "\\b".toList
  else if c = '\t' then some "\\t".toList
  else if c = '\n' then (if multiline then none else some "\\n".toList)
  else if c = '\x0c' then some "\\f".toList
  else if c = '\r' then some "\\r".toList
  else if c = '\\' then some "\\\\".toList
  else if isControl c then some ('\\' :: 'u' :: fourDigits c.toNat)
  else none

/-- The text with escapes. Of the marks in a row, of which `marks` stand in front, as
many stay as the form allows. -/
def escapeFrom (multiline : Bool) (marks : Nat) : Text → Text
  | [] => []
  | c :: rest =>
    if c = doubleMark then
      if marks < (if multiline then 2 else 0) then c :: escapeFrom multiline (marks + 1) rest
      else '\\' :: c :: escapeFrom multiline 0 rest
    else (escape? multiline c).getD [c] ++ escapeFrom multiline 0 rest

/-- The mark that stands before and behind a text. -/
def Form.delimiter (form : Form) : Text :=
  List.replicate (if form.multiline then 3 else 1)
    (if form.escaping then doubleMark else singleMark)

/-- A text in a form. A newline directly behind the first mark does not belong to
the text; it stands before a text that goes over several lines. -/
def writeAs (form : Form) (s : Text) : Text :=
  form.delimiter ++ (if form.multiline && s.contains '\n' then ['\n'] else []) ++
    (if form.escaping then escapeFrom form.multiline 0 s else s) ++ form.delimiter

/-- A text in its form. -/
def write (s : Text) : Text := writeAs (formOf s) s

/-! ## Reading -/

/-- What reading answers: what was read, and the text behind it. -/
abbrev Reader (α : Type) := Text → Option (α × Text)

/-- Whether a character may stand in a text or a comment on one line. -/
def isInline (c : Char) : Bool := c == '\t' || !isControl c

/-- A blank that does not end the line. -/
def isSpace (c : Char) : Bool := c == ' ' || c == '\t'

/-- The text behind a line end. -/
def skipNewline? : Text → Option Text
  | '\n' :: rest => some rest
  | '\r' :: '\n' :: rest => some rest
  | _ => none

/-- The value of a hexadecimal digit. -/
def hexDigit? (c : Char) : Option Nat :=
  if c.isDigit then some (c.toNat - '0'.toNat)
  else if 'a' ≤ c && c ≤ 'f' then some (c.toNat - 'a'.toNat + 10)
  else if 'A' ≤ c && c ≤ 'F' then some (c.toNat - 'A'.toNat + 10)
  else none

/-- The character whose code is given in hexadecimal digits. -/
def coded? (digits : Text) : Option Char := do
  let values ← digits.mapM hexDigit?
  let code := values.foldl (fun value digit => 16 * value + digit) 0
  if code.isValidChar then some (Char.ofNat code) else none

/-- The character of an escape with one letter. -/
def escaped? (letter : Char) : Option Char :=
  if letter = 'b' then some '\x08'
  else if letter = 't' then some '\t'
  else if letter = 'n' then some '\n'
  else if letter = 'f' then some '\x0c'
  else if letter = 'r' then some '\r'
  else if letter = doubleMark then some doubleMark
  else if letter = '\\' then some '\\'
  else none

/-- What was read, with something in front of it. -/
def after (front : Text) (found : Option (Text × Text)) : Option (Text × Text) :=
  found.map fun (s, rest) => (front ++ s, rest)

/-- Reads an escaping form on one line, behind its first mark. -/
def readBasic : Reader Text
  | [] => none
  | '\\' :: 'u' :: a :: b :: c :: d :: rest =>
    (coded? [a, b, c, d]).bind fun char => after [char] (readBasic rest)
  | '\\' :: 'U' :: a :: b :: c :: d :: e :: f :: g :: h :: rest =>
    (coded? [a, b, c, d, e, f, g, h]).bind fun char => after [char] (readBasic rest)
  | '\\' :: letter :: rest =>
    (escaped? letter).bind fun char => after [char] (readBasic rest)
  | c :: rest =>
    if c = doubleMark then some ([], rest)
    else if isInline c then after [c] (readBasic rest)
    else none

/-- Reads a form without escapes on one line, behind its first mark. -/
def readLiteral : Reader Text
  | [] => none
  | c :: rest =>
    if c = singleMark then some ([], rest)
    else if isInline c then after [c] (readLiteral rest)
    else none

/-- What several marks in a row mean: fewer than three belong to the text; three
end it, and two more before them belong to it. -/
def onMarks (mark : Char) (marks : Nat) (rest : Text) (more : Option (Text × Text)) :
    Option (Text × Text) :=
  if marks < 3 then after (List.replicate marks mark) more
  else if marks ≤ 5 then some (List.replicate (marks - 3) mark, rest)
  else none

/-- Reads an escaping form over several lines, behind `marks` marks. While `skipping`,
blanks and line ends do not belong to the text. -/
def readMultiBasic (skipping : Bool) (marks : Nat) : Reader Text
  | [] => onMarks doubleMark marks [] none
  | '\\' :: 'u' :: a :: b :: c :: d :: rest =>
    onMarks doubleMark marks ('\\' :: 'u' :: a :: b :: c :: d :: rest)
      ((coded? [a, b, c, d]).bind fun char => after [char] (readMultiBasic false 0 rest))
  | '\\' :: 'U' :: a :: b :: c :: d :: e :: f :: g :: h :: rest =>
    onMarks doubleMark marks ('\\' :: 'U' :: a :: b :: c :: d :: e :: f :: g :: h :: rest)
      ((coded? [a, b, c, d, e, f, g, h]).bind fun char =>
        after [char] (readMultiBasic false 0 rest))
  | '\\' :: letter :: rest =>
    onMarks doubleMark marks ('\\' :: letter :: rest)
      (match escaped? letter with
        | some char => after [char] (readMultiBasic false 0 rest)
        | none =>
          if (skipNewline? ((letter :: rest).dropWhile isSpace)).isSome then
            readMultiBasic true 0 (letter :: rest)
          else none)
  | '\r' :: '\n' :: rest =>
    onMarks doubleMark marks ('\r' :: '\n' :: rest)
      (after (if skipping then [] else ['\n']) (readMultiBasic skipping 0 rest))
  | c :: rest =>
    if c = doubleMark then readMultiBasic false (marks + 1) rest
    else
      onMarks doubleMark marks (c :: rest)
        (if skipping && (isSpace c || c == '\n') then readMultiBasic true 0 rest
          else if isInline c || c == '\n' then after [c] (readMultiBasic false 0 rest)
          else none)

/-- Reads a form without escapes over several lines, behind `marks` marks. -/
def readMultiLiteral (marks : Nat) : Reader Text
  | [] => onMarks singleMark marks [] none
  | '\r' :: '\n' :: rest =>
    onMarks singleMark marks ('\r' :: '\n' :: rest) (after ['\n'] (readMultiLiteral 0 rest))
  | c :: rest =>
    if c = singleMark then readMultiLiteral (marks + 1) rest
    else
      onMarks singleMark marks (c :: rest)
        (if isInline c || c == '\n' then after [c] (readMultiLiteral 0 rest) else none)

/-- The text without a line end at its front. -/
def dropNewline (s : Text) : Text := (skipNewline? s).getD s

/-- Reads a text in one of the two forms on one line. -/
def readLine : Reader Text
  | [] => none
  | c :: rest =>
    if c = doubleMark then readBasic rest
    else if c = singleMark then readLiteral rest
    else none

/-- Reads a text in any form. -/
def readText : Reader Text := fun s =>
  match skip? (List.replicate 3 doubleMark) s, skip? (List.replicate 3 singleMark) s with
  | some rest, _ => readMultiBasic false 0 (dropNewline rest)
  | none, some rest => readMultiLiteral 0 (dropNewline rest)
  | none, none => readLine s

end SlideDeck.Toml
