import SlideDeck.Tool.Utility.Calculation
import SlideDeck.Tool.Utility.Edit
import SlideDeck.Tool.Utility.FileUtility
import SlideDeck.Tool.Utility.Search

/-!
# Installed programs

The programs that a host has besides scripts, by their names.
-/

set_option autoImplicit false

namespace SlideDeck.Utility

open SlideDeck SlideDeck.Text SlideDeck.Script

/-- The program that ends with a status. -/
def ending (status : Nat) : Service := fun request => { request.served with status }

/-- The program that waits, for which no time passes. -/
def sleep : Service := fun request =>
  match request.arguments with
  | [] => request.served.misused request "missing operand".toList 1
  | arguments =>
    let isTime (word : Text) : Bool :=
      word.head?.any fun c => c.isDigit || c == '.'
    let about (word : Text) : Text := "invalid time interval ".toList ++ quote word
    match (arguments.filter (!isTime ·)).reverse with
    | [] => request.served
    | last :: others =>
      let told := others.reverse.foldl (fun served word => served.tell request (about word) 1)
        request.served
      told.misused request (about last) 1

/-- The program that prints the same text always. -/
def fixed (text : String) : Service := fun request =>
  request.served.put (text.toList ++ ['\n'])

/-- Prints texts, in which escapes have a meaning only if an option says so. -/
def say : Service := fun request =>
  let isOption (word : Text) : Bool :=
    startsWith ['-'] word && word.length > 1 && (word.drop 1).all ['n', 'e', 'E'].contains
  let options := request.arguments.takeWhile isOption
  let letters := options.flatten
  let text := join [' '] (request.arguments.drop options.length)
  let (text, stops) := if letters.contains 'e' then unescape text else (text, false)
  request.served.put (if stops || letters.contains 'n' then text else text ++ ['\n'])

/-- The installed programs. -/
def services : List (String × Service) :=
  [("true", ending 0), ("false", ending 1), ("cat", cat), ("touch", touch), ("rm", remove),
    ("rmdir", removeDirectory), ("mkdir", makeDirectory), ("cp", transfer false),
    ("mv", transfer true), ("ls", list), ("chmod", changeMode), ("tee", tee),
    ("head", part false), ("tail", part true), ("wc", count), ("sort", sort), ("uniq", unique),
    ("tac", reversed true), ("rev", reversed false), ("tr", translate), ("cut", cutOut),
    ("seq", sequence), ("basename", baseName), ("dirname", directoryName), ("sleep", sleep),
    ("grep", search false false), ("egrep", search false true), ("fgrep", search true false),
    ("sed", edit), ("expr", calculate), ("echo", say), ("sync", ending 0),
    ("uname", fixed "Linux"), ("date", fixed "Thu Jan  1 00:00:00 UTC 1970")]

/-- The service of an installed program. -/
def service? (name : Text) : Option Service :=
  (services.find? fun entry => entry.1.toList == name).map Prod.snd

/-- The programs that read the input, the letters of their options with values, and how many
operands come before the files that they read instead. -/
def readers : List (String × String × Nat) :=
  [("cat", "", 0), ("head", "nc", 0), ("tail", "nc", 0), ("wc", "", 0), ("sort", "kto", 0),
    ("uniq", "", 0), ("tac", "", 0), ("rev", "", 0), ("cut", "dfcb", 0), ("grep", "em", 1),
    ("egrep", "em", 1), ("fgrep", "em", 1), ("sed", "e", 1), ("tr", "", 2), ("tee", "", 99)]

/-- Whether a program reads its input. -/
def readsInput (name : Text) (request : Request) : Bool :=
  match readers.find? fun entry => entry.1.toList == name with
  | none => false
  | some (_, letters, front) =>
    let (values, operands) := request.valued letters.toList
    let files := operands.drop (if values.any fun value => value.1 == 'e' then 0 else front)
    files.isEmpty || files.any isInput

end SlideDeck.Utility
