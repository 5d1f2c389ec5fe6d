import SlideDeck.Text.Number
import SlideDeck.Text.Search
import SlideDeck.Tool.Script.Bytes

/-!
# The place up to which a script has been read

What is read of a script is taken from its front: a cursor holds the text that is left
and the number of its line. Here is what stands at such a place (operators, keywords,
signs of redirections and the texts of several lines), and what can be wrong with it.
-/

set_option autoImplicit false

namespace SlideDeck.Script

open SlideDeck SlideDeck.Text

/-! ## What can be wrong -/

/-- Something that stands in a script. -/
inductive Found where
  | word
  | redirection
  | newline
  | endOfFile
  /-- An operator or a word with a meaning of its own. -/
  | fixed (text : Text)
  deriving DecidableEq, Repr

namespace Found

/-- What stands there, in words. -/
def message : Found → Text
  | .word => "word".toList
  | .redirection => "redirection".toList
  | .newline => "newline".toList
  | .endOfFile => "end of file".toList
  | .fixed text => '\x22' :: text ++ ['\x22']

end Found

/-- What is wrong with a script. -/
inductive Problem where
  /-- Something stands where it has no place, and maybe in the place of something. -/
  | unexpected (found : Found) (wanted : Option Found)
  | unterminatedQuote
  | unterminatedBrace
  | unterminatedSum
  | unterminatedOutput
  | badLoopVariable
  | badFunctionName
  deriving DecidableEq, Repr

namespace Problem

/-- What is wrong, in words. -/
def message : Problem → Text
  | .unexpected found none => found.message ++ " unexpected".toList
  | .unexpected found (some wanted) =>
    found.message ++ " unexpected (expecting ".toList ++ wanted.message ++ [')']
  | .unterminatedQuote => "Unterminated quoted string".toList
  | .unterminatedBrace => "Missing '\x7d'".toList
  | .unterminatedSum => "Missing '))'".toList
  | .unterminatedOutput => "EOF in backquote substitution".toList
  | .badLoopVariable => "Bad for loop variable".toList
  | .badFunctionName => "Bad function name".toList

end Problem

/-! ## The place up to which a script has been read -/

/-- A place in a script. -/
structure Cursor where
  rest : Text
  line : Nat := 1
  /-- The lines behind the current one that have been taken as texts. -/
  taken : Nat := 0
  deriving DecidableEq, Repr

/-- Reads something of a script. -/
abbrev Reader := StateT Cursor (Except (Nat × Problem))

namespace Reader

/-- Stops reading. -/
def problem {α : Type} (what : Problem) : Reader α := do throw ((← get).line, what)

/-- The text that is still to be read. -/
def rest : Reader Text := do return (← get).rest

/-- Goes behind the next character. -/
def advance : Reader Unit :=
  modify fun cursor =>
    match cursor.rest with
    | [] => cursor
    | '\n' :: rest => ⟨rest, cursor.line + 1 + cursor.taken, 0⟩
    | _ :: rest => { cursor with rest }

/-- Goes behind some characters that are no newlines. -/
def skip (count : Nat) : Reader Unit :=
  modify fun cursor => { cursor with rest := cursor.rest.drop count }

/-- The text behind blanks, continued lines and a comment, and how many lines were
continued. -/
def blanksFrom (count : Nat) : Text → Nat × Text
  | ' ' :: rest => blanksFrom count rest
  | '\t' :: rest => blanksFrom count rest
  | '\\' :: '\n' :: rest => blanksFrom (count + 1) rest
  | '#' :: rest => (count, rest.dropWhile (· != '\n'))
  | rest => (count, rest)

/-- Goes behind blanks. -/
def skipBlanks : Reader Unit :=
  modify fun cursor =>
    let (count, rest) := blanksFrom 0 cursor.rest
    { cursor with rest, line := cursor.line + count }

/-- Goes behind blanks and at most `limit` ends of lines. -/
def skipLinesFrom : Nat → Reader Unit
  | 0 => pure ()
  | limit + 1 => do
    skipBlanks
    match ← rest with
    | '\n' :: _ =>
      advance
      skipLinesFrom limit
    | _ => pure ()

/-- Goes behind blanks and ends of lines. -/
def skipLines : Reader Unit := do skipLinesFrom ((← rest).length + 1)

end Reader

/-! ## Operators and words with a meaning -/

/-- Whether the character ends a word outside quotes. -/
def endsWord (c : Char) : Bool :=
  [' ', '\t', '\n', ';', '&', '|', '<', '>', '(', ')'].contains c

/-- The operators that are no redirections, the longer ones first. -/
def operators : List Text := [";;", "&&", "||", ";", "&", "|", "(", ")"].map String.toList

/-- The operator at the front of a text. -/
def operator? (s : Text) : Option Text := operators.find? fun operator => startsWith operator s

/-- The words that have a meaning where a command begins. -/
def keywords : List Text :=
  ["!", "\x7b", "\x7d", "case", "do", "done", "elif", "else", "esac", "fi", "for", "if", "in",
    "then", "until", "while"].map String.toList

/-- The keywords behind which no command can begin. -/
def closers : List Text :=
  ["\x7d", "do", "done", "elif", "else", "esac", "fi", "then"].map String.toList

/-- Whether the character makes a word more than the text that it is. -/
def isActive (c : Char) : Bool := ['\\', '\x27', '\x22', '$', '\x60'].contains c

/-- The word at the front of a text, if it is what it says. -/
def literal? (s : Text) : Option Text :=
  let word := s.takeWhile (!endsWord ·)
  if word.isEmpty || word.any isActive then none else some word

/-- The keyword at the front of a text. -/
def keyword? (s : Text) : Option Text :=
  (literal? s).bind fun word => if keywords.contains word then some word else none

/-- The descriptor that stands before a sign of a redirection, which has one digit. -/
def descriptor? (s : Text) : Option (Nat × Text) :=
  let digits := (s.take 1).takeWhile Char.isDigit
  match s.drop digits.length with
  | '<' :: rest => some ((digits? digits).getD 0, '<' :: rest)
  | '>' :: rest => some ((digits? digits).getD 1, '>' :: rest)
  | _ => none

/-- What stands at the front of a text. -/
def foundAt (s : Text) : Found :=
  match s with
  | [] => .endOfFile
  | '\n' :: _ => .newline
  | _ =>
    match operator? s, descriptor? s, keyword? s with
    | some operator, _, _ => .fixed operator
    | _, some _, _ => .redirection
    | _, _, some keyword => .fixed keyword
    | _, _, _ => .word

namespace Reader

/-- Stops at what stands here. The end of a line has been read when it is found. -/
def unexpected {α : Type} (wanted : Option Found) : Reader α := do
  let found := foundAt (← rest)
  if found == .newline then modify fun cursor => { cursor with line := cursor.line + 1 }
  problem (.unexpected found wanted)

/-- Goes behind an operator that has to stand here. -/
def expectOperator (operator : String) : Reader Unit := do
  skipBlanks
  if operator? (← rest) == some operator.toList then skip operator.length
  else unexpected (some (.fixed operator.toList))

/-- Goes behind a keyword that has to stand here, maybe on a later line. -/
def expectKeyword (keyword : String) : Reader Unit := do
  skipLines
  if keyword? (← rest) == some keyword.toList then skip keyword.length
  else unexpected (some (.fixed keyword.toList))

end Reader

/-! ## Texts in a script -/

/-- The rest of a line, up to the newline that ends it, and what is behind that.
Newlines in quotes do not end a line. -/
def lineEndFrom : Option Char → Text → Text × Text
  | _, [] => ([], [])
  | some '\x27', c :: rest =>
    let (line, behind) := lineEndFrom (if c = '\x27' then none else some '\x27') rest
    (c :: line, behind)
  | quote, '\\' :: c :: rest =>
    let (line, behind) := lineEndFrom quote rest
    ('\\' :: c :: line, behind)
  | none, '\n' :: rest => ([], rest)
  | quote, c :: rest =>
    let next :=
      if c = '\x22' then (if quote.isSome then none else some '\x22')
      else if c = '\x27' && quote.isNone then some '\x27'
      else quote
    let (line, behind) := lineEndFrom next rest
    (c :: line, behind)

/-- The lines up to one that says `ending`, and the lines behind that one if it is there.
Tabs at the front of a line count only if `tabs` says so. -/
def linesUpTo (tabs : Bool) (ending : Text) : List Text → List Text × Option (List Text)
  | [] => ([], none)
  | line :: lines =>
    let line := if tabs then line else line.dropWhile (· == '\t')
    if line == ending then ([], some lines)
    else
      let (before, behind) := linesUpTo tabs ending lines
      (line :: before, behind)

/-- The text of a word as it is written, without its quotes, and whether it had any. -/
def unquotedFrom : Option Char → Text → Text × Bool
  | _, [] => ([], false)
  | some '\x27', '\x27' :: rest => ((unquotedFrom none rest).1, true)
  | some '\x22', '\x22' :: rest => ((unquotedFrom none rest).1, true)
  | some quote, c :: rest => (c :: (unquotedFrom (some quote) rest).1, true)
  | none, '\\' :: c :: rest => (c :: (unquotedFrom none rest).1, true)
  | none, '\x27' :: rest => ((unquotedFrom (some '\x27') rest).1, true)
  | none, '\x22' :: rest => ((unquotedFrom (some '\x22') rest).1, true)
  | none, c :: rest =>
    let (word, quoted) := unquotedFrom none rest
    (c :: word, quoted)

namespace Reader

/-- Takes the lines behind the current one, up to one that says `ending`. -/
def takeLines (tabs : Bool) (ending : Text) : Reader Text := do
  let cursor ← get
  let (line, behind) := lineEndFrom none cursor.rest
  let (lines, others) := linesUpTo tabs ending (splitAt '\n' behind)
  let behind :=
    match others with
    | none | some [] => []
    | some others => '\n' :: join ['\n'] others
  set { cursor with rest := line ++ behind, taken := cursor.taken + lines.length + 1 }
  if others.isNone then return join ['\n'] lines
  return lines.flatMap fun line => line ++ ['\n']

end Reader

end SlideDeck.Script
