import SlideDeck.Tool.Script.Builtin
import SlideDeck.Tool.Utility.Installed

/-!
# Starting programs

A path starts an installed program, or a script whose first line names the program that
runs it. That one can be a script as well, so in the end each path starts an installed
program with arguments, or nothing (`Start.ofPath`).

Here are also the arguments of the two installed programs that start others: the shell,
which runs scripts, and the one that changes variables for another program.
-/

set_option autoImplicit false

namespace SlideDeck.Script

open SlideDeck SlideDeck.Text

/-! ## Installed programs -/

/-- The programs that run scripts. -/
def shellNames : List Text := ["sh", "dash", "bash"].map String.toList

/-- The programs that do the same as a command of scripts. -/
def commandNames : List Text := ["printf", "test", "[", "pwd", "kill"].map String.toList

/-- Whether a program of a name is installed. -/
def isInstalled (name : Text) : Bool :=
  shellNames.contains name || commandNames.contains name || name == "env".toList ||
    name == "printenv".toList || (Utility.service? name).isSome

/-- The directories of installed programs. -/
def programDirectories : List Text :=
  ["/bin/", "/usr/bin/", "/usr/local/bin/"].map String.toList

/-- The name of the installed program at a path. -/
def installedAt? (path : Text) : Option Text :=
  programDirectories.findSome? fun directory => (skip? directory path).filter isInstalled

/-! ## Scripts -/

/-- The program that runs a script, and the argument that it gets before the script:
what the first line says behind the sign that makes it one. -/
def interpreter? (source : Text) : Option (Text × Option Text) :=
  let isGap (c : Char) : Bool := c == ' ' || c == '\t'
  (skip? "#!".toList source).bind fun rest =>
    let line := (rest.takeWhile (· != '\n')).dropWhile isGap
    let program := line.takeWhile (!isGap ·)
    let argument := ((line.drop program.length).dropWhile isGap).reverse.dropWhile isGap
    if program.isEmpty then none
    else some (program, if argument.isEmpty then none else some argument.reverse)

/-- An installed program that is started. -/
structure Start where
  installed : Text
  /-- The name by which it is called. -/
  name : Text
  arguments : List Text
  deriving DecidableEq, Repr

/-- How many scripts run each other by their first lines. -/
def deepestScript : Nat := 6

/-- What a path starts, with at most so many scripts on the way. -/
def Start.ofPathFrom (files : FileTree) (here : Location) :
    Nat → Text → List Text → Except SystemFault Start
  | 0, _, _ => .error (.described "Too many levels of symbolic links (os error 40)".toList)
  | depth + 1, path, arguments =>
    match installedAt? path with
    | some installed => .ok ⟨installed, path, arguments⟩
    | none => do
      match ← files.find here (toText path) with
      | (_, .file content true) =>
        match interpreter? (ofBytes content) with
        | none => throw .notExecutable
        | some (program, argument) =>
          ofPathFrom files here depth program (argument.toList ++ path :: arguments)
      | _ => throw .permissionDenied

/-- What a path starts. -/
def Start.ofPath (files : FileTree) (here : Location) (path : Text) (arguments : List Text) :
    Except SystemFault Start :=
  ofPathFrom files here deepestScript path arguments

/-! ## Arguments of the shell -/

/-- The letters of the options of the shell. -/
def shellLetters : List Char := optionLetters.map Prod.snd ++ "cilosEIV".toList

/-- The options of letters behind a sign, and the arguments behind them, or what is wrong
with the letters. One of them takes the name of an option from the arguments. -/
def optionsOf (sign : Char) : List Char → List Text → Except Text (List Char × List Text)
  | [], arguments => .ok ([], arguments)
  | letter :: letters, arguments => do
    if !shellLetters.contains letter then throw ("Illegal option ".toList ++ [sign, letter])
    if letter != 'o' then
      let (options, arguments) ← optionsOf sign letters arguments
      return (letter :: options, arguments)
    else
      match arguments with
      | [] => optionsOf sign letters []
      | name :: arguments =>
        match optionLetters.find? fun option => option.1.toList == name with
        | some (_, letter) =>
          let (options, arguments) ← optionsOf sign letters arguments
          return (letter :: options, arguments)
        | none => throw ("Illegal option ".toList ++ sign :: 'o' :: ' ' :: name)

/-- The options, by their letters, and the arguments behind them, or what is wrong with
the options. -/
def shellOptionsFrom : Nat → List Text → Except Text (List Char × List Text)
  | 0, arguments => .ok ([], arguments)
  | fuel + 1, (sign :: letters) :: rest =>
    if sign != '-' && sign != '+' then .ok ([], (sign :: letters) :: rest)
    else if sign == '-' && (letters.isEmpty || letters == ['-']) then .ok ([], rest)
    else do
      let (options, rest) ← optionsOf sign letters rest
      let (more, arguments) ← shellOptionsFrom fuel rest
      return (if sign == '-' then options ++ more else more, arguments)
  | _ + 1, arguments => .ok ([], arguments)

/-- The options of the shell and the arguments behind them. -/
def shellOptions (arguments : List Text) : Except Text (List Char × List Text) :=
  shellOptionsFrom (arguments.length + 1) arguments

/-! ## Arguments of the program that changes variables -/

/-- A program to be started with changed variables. -/
structure Changed where
  /-- Which variables it does not see. -/
  hides : Text → Bool := fun _ => false
  /-- The variables that it sees besides. -/
  values : List (Text × Text) := []
  /-- The program and its arguments. -/
  command : List Text := []

/-- Reads arguments: options, variables, and a program with its arguments. -/
def Changed.ofArgumentsFrom : Nat → List Text → Changed
  | 0, _ => {}
  | _ + 1, [] => {}
  | fuel + 1, word :: rest =>
    if word == "-i".toList || word == ['-'] then
      { ofArgumentsFrom fuel rest with hides := fun _ => true }
    else if word == "-u".toList then
      let changed := ofArgumentsFrom fuel rest.tail
      { changed with hides := fun name => rest.head? == some name || changed.hides name }
    else
      match skip? "-S".toList word with
      | some words =>
        let words := if words.isEmpty then rest.headD [] else words
        let rest := if word.length == 2 then rest.tail else rest
        ofArgumentsFrom fuel ((splitAt ' ' words).filter (fun word => !word.isEmpty) ++ rest)
      | none =>
        match splitOnce '=' word with
        | some (name, value) =>
          let changed := ofArgumentsFrom fuel rest
          { changed with values := (name, value) :: changed.values }
        | none => { command := word :: rest }

/-- What the arguments ask for. -/
def Changed.ofArguments (arguments : List Text) : Changed :=
  ofArgumentsFrom (((arguments.map List.length).foldl (· + ·) arguments.length) + 1) arguments

end SlideDeck.Script
