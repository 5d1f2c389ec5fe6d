import SlideDeck.Files.Change
import SlideDeck.Text.Number
import SlideDeck.Text.Search
import SlideDeck.Tool.Script.Bytes

/-!
# What installed programs are asked and answer

The small programs that scripts find installed are asked with arguments, an input and
files, and answer with a status, what they print, and changed files. Most of them serve
their operands one by one; one that cannot be served is told about, and the others are
still served. As in scripts, characters stand for bytes.
-/

set_option autoImplicit false

namespace SlideDeck.Utility

open SlideDeck SlideDeck.Text SlideDeck.Script

/-- What a program is asked. -/
structure Request where
  /-- The name by which the program is called. -/
  name : Text
  arguments : List Text
  input : Text := []
  files : FileTree
  here : Location

/-- What a program has answered so far. -/
structure Served where
  files : FileTree
  output : Text := []
  errors : Text := []
  status : Nat := 0

/-- How a program serves what it is asked. -/
abbrev Service := Request → Served

namespace Request

/-- Nothing is done yet. -/
def served (request : Request) : Served := { files := request.files }

/-- The letters of the options, and the operands. Behind two hyphens there are operands
only. -/
def split (request : Request) : List Char × List Text :=
  let isOption (word : Text) : Bool := startsWith ['-'] word && word.length > 1
  let words := request.arguments.takeWhile (· != "--".toList)
  ((words.filter isOption).flatMap fun word => word.drop 1,
    words.filter (!isOption ·) ++ (request.arguments.drop words.length).tail)

/-- The operands. -/
def operands (request : Request) : List Text := request.split.2

/-- Whether there is an option of a letter. -/
def has (request : Request) (letter : Char) : Bool := request.split.1.contains letter

/-- The operands, and the value of the option of a letter, which stands behind the letter
or in the next argument. -/
def valued (letters : List Char) (request : Request) : List (Char × Text) × List Text :=
  go request.arguments
where
  /-- The values and the operands of arguments. -/
  go : List Text → List (Char × Text) × List Text
    | [] => ([], [])
    | [word] =>
      match word with
      | '-' :: letter :: value =>
        if letters.contains letter then ([(letter, value)], [])
        else if letter == '-' && value.isEmpty then ([], [])
        else ((letter :: value).map (·, []), [])
      | _ => ([], [word])
    | word :: next :: rest =>
      match word with
      | '-' :: letter :: value =>
        if letters.contains letter then
          if value.isEmpty then
            let (values, operands) := go rest
            ((letter, next) :: values, operands)
          else
            let (values, operands) := go (next :: rest)
            ((letter, value) :: values, operands)
        else if letter == '-' && value.isEmpty then ([], next :: rest)
        else
          let (values, operands) := go (next :: rest)
          ((letter :: value).map (·, []) ++ values, operands)
      | _ =>
        let (values, operands) := go (next :: rest)
        (values, word :: operands)

end Request

namespace Served

/-- Prints a text. -/
def put (served : Served) (s : Text) : Served := { served with output := served.output ++ s }

/-- Tells about something that is wrong. -/
def tell (served : Served) (request : Request) (what : Text) (status : Nat) : Served :=
  { served with
    errors := served.errors ++ request.name ++ ": ".toList ++ what ++ ['\n']
    status }

/-- Tells how the program is used wrongly. -/
def misused (served : Served) (request : Request) (what : Text) (status : Nat) : Served :=
  let served := served.tell request what status
  { served with errors := served.errors ++ "Try '".toList ++ request.name ++
      " --help' for more information.\n".toList }

/-- Takes files, or tells about a fault. -/
def take (served : Served) (request : Request) (what : Text) :
    Except SystemFault FileTree → Served
  | .ok files => { served with files }
  | .error fault => served.tell request (what ++ ": ".toList ++ fault.words) 1

end Served

/-- The number that decimal digits are, with a sign if it is negative. -/
def decimal? : Text → Option Int
  | '-' :: digits => (digits? digits).map fun number => -(number : Int)
  | digits => (digits? digits).map fun number => (number : Int)

/-- A name in quotes. -/
def quote (name : Text) : Text := '\x27' :: name ++ ['\x27']

/-- Whether an operand stands for the input. -/
def isInput (operand : Text) : Bool := operand == ['-'] || operand == "/dev/stdin".toList

/-- The bytes of an operand: those of a file, or the input. -/
def Request.content (request : Request) (operand : Text) : Except SystemFault Text :=
  if isInput operand then .ok request.input
  else (request.files.read request.here (toText operand)).map ofBytes

end SlideDeck.Utility
