import SlideDeck.Text.Basic

/-!
# The statements of a script

A script is a list of statements. A statement is a simple command, or is made of
other statements: they run one after the other, depend on the success of each other,
are repeated, or are kept under a name.

The words of a command are not yet texts. A word is a list of pieces: text that
stands for itself, and the values of variables, sums and the outputs of other
statements, which are put in when the word is used. Each piece keeps whether it
stood in quotes, since only what did not is cut into several texts and taken as a
pattern of file names.
-/

set_option autoImplicit false

namespace SlideDeck.Script

/-- How a file is opened. -/
inductive OpenMode where
  | read
  /-- What the file had goes, unless files are protected. -/
  | write
  /-- What the file had goes. -/
  | replace
  | append
  | readAndWrite
  deriving DecidableEq, Repr

mutual

/-- A piece of a word. -/
inductive Piece where
  | plain (text : Text) (quoted : Bool)
  /-- The value of a variable or of an argument, or what is made of it. -/
  | parameter (name : Text) (use : Use) (quoted : Bool)
  /-- The value of a sum. -/
  | arithmetic (expression : List Piece) (quoted : Bool)
  /-- What statements print. -/
  | output (statements : List Statement) (quoted : Bool)

/-- What is made of the value of a variable. A value counts as missing if the variable
has none or, where `evenEmpty` says so, if it is empty. -/
inductive Use where
  | value
  | length
  /-- The word in place of a missing value. -/
  | orElse (evenEmpty : Bool) (word : List Piece)
  /-- The word in place of a missing value, which it becomes. -/
  | orAssign (evenEmpty : Bool) (word : List Piece)
  /-- A missing value ends the script. -/
  | orFail (evenEmpty : Bool) (message : List Piece)
  /-- The word in place of a value that is not missing. -/
  | ifThere (evenEmpty : Bool) (word : List Piece)
  /-- The value without the shortest or the longest part at its front or its end that
  matches a pattern. -/
  | without (atEnd longest : Bool) (pattern : List Piece)
  /-- Nothing that makes sense. -/
  | nonsense

/-- Where a command reads from or prints to. -/
inductive Redirection where
  | toFile (descriptor : Nat) (mode : OpenMode) (path : List Piece)
  /-- The descriptor leads where another one leads, or nowhere for `-`. -/
  | toDescriptor (descriptor : Nat) (other : List Piece)
  /-- The command reads a text. -/
  | toText (descriptor : Nat) (text : List Piece)

/-- A statement. -/
inductive Statement where
  /-- A command with assignments before it. -/
  | simple (line : Nat) (assignments : List (Text × List Piece)) (words : List (List Piece))
    (redirections : List Redirection)
  | redirected (line : Nat) (body : Statement) (redirections : List Redirection)
  /-- Each statement reads what the one before it prints. -/
  | pipeline (parts : List Statement)
  | negated (body : Statement)
  /-- The second statement runs if the success of the first is as `wanted`. -/
  | pair (first : Statement) (wanted : Bool) (second : Statement)
  | background (body : Statement)
  | group (body : List Statement)
  /-- Changes of variables in the body are not seen outside. -/
  | subshell (body : List Statement)
  | choice (test yes no : List Statement)
  /-- The body runs again as long as the success of the test is as `wanted`. -/
  | loop (wanted : Bool) (test body : List Statement)
  /-- The body runs for each item; without items, for each argument. -/
  | each (line : Nat) (name : Text) (items : Option (List (List Piece)))
    (body : List Statement)
  /-- The first body runs that has a pattern which matches the subject. -/
  | select (line : Nat) (subject : List Piece) (arms : List (List (List Piece) × List Statement))
  /-- The body is kept under a name. -/
  | define (name : Text) (body : Statement)

end

/-- A word. -/
abbrev Word := List Piece

end SlideDeck.Script
