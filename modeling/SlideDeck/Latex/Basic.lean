import SlideDeck.Text.Basic

/-!
# Commands, environments and escaping

The building blocks of the LaTeX text that the library writes: a command with
one argument, the two ends of an environment, and the escape of a character that
has a meaning of its own.

Reading needs the opposite view: a character is *escaped* when an odd number of
backslashes stands directly before it. The part of a line before its first
unescaped percent sign is its *code* (`codeOf`), and the unescaped braces of the
code are the ones that group (`bracesOf`).
-/

set_option autoImplicit false

namespace SlideDeck.Latex

open SlideDeck

/-! ## Writing -/

/-- The text between braces. -/
def group (body : Text) : Text := '\x7b' :: body ++ ['\x7d']

/-- A command with its argument in braces. -/
def command (name body : Text) : Text := '\\' :: name ++ group body

/-- A command with an option in brackets and its argument in braces. -/
def commandWith (name option body : Text) : Text :=
  '\\' :: name ++ '[' :: option ++ ']' :: group body

/-- A command that stands for a character: it has an empty argument, so that it
does not swallow the blanks behind it. -/
def symbol (name : Text) : Text := command name []

/-- The line that begins an environment. -/
def beginEnvironment (name : Text) : Text := command "begin".toList name

/-- The line that ends an environment. -/
def endEnvironment (name : Text) : Text := command "end".toList name

/-- The characters that a backslash in front turns into text. -/
def backslashEscaped (c : Char) : Bool :=
  c == '_' || c == '&' || c == '%' || c == '$' || c == '#' || c == '\x7b' || c == '\x7d'

/-- One character of text as LaTeX. -/
def escapeChar (c : Char) : Text :=
  if c = '\\' then symbol "textbackslash".toList
  else if backslashEscaped c then ['\\', c]
  else if c = '~' then symbol "textasciitilde".toList
  else if c = '^' then symbol "textasciicircum".toList
  else [c]

/-- Text as LaTeX: each character is escaped once and on its own, so that the
commands for backslash, tilde and circumflex stay whole. -/
def escape (s : Text) : Text := s.flatMap escapeChar

/-! ## Reading -/

/-- Whether the character after `c` is escaped, when `escaped` tells whether `c`
is. -/
def escapesNext (escaped : Bool) (c : Char) : Bool := c == '\\' && !escaped

/-- The code of a line that begins escaped or not: what stands before its first
unescaped percent sign. -/
def codeFrom (escaped : Bool) : Text → Text
  | [] => []
  | c :: cs =>
    if c = '%' && !escaped then [] else c :: codeFrom (escapesNext escaped c) cs

/-- The code of a line. -/
def codeOf (line : Text) : Text := codeFrom false line

/-- A brace that groups. -/
inductive Brace where
  | opening
  | closing
  deriving DecidableEq, Repr

/-- The unescaped braces of a text that begins escaped or not, in order. -/
def bracesFrom (escaped : Bool) : Text → List Brace
  | [] => []
  | c :: cs =>
    let rest := bracesFrom (escapesNext escaped c) cs
    if escaped then rest
    else if c = '\x7b' then .opening :: rest
    else if c = '\x7d' then .closing :: rest
    else rest

/-- The unescaped braces of a text, in order. -/
def bracesOf (s : Text) : List Brace := bracesFrom false s

/-! ## Laws -/

/-- The code of a line is its beginning. -/
theorem codeFrom_isPrefix (escaped : Bool) (line : Text) : codeFrom escaped line <+: line := by
  induction line generalizing escaped with
  | nil => exact List.nil_prefix
  | cons c cs ih =>
    rw [codeFrom]
    split
    · exact List.nil_prefix
    · exact List.cons_prefix_cons.mpr ⟨rfl, ih _⟩

end SlideDeck.Latex
