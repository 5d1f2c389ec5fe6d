import SlideDeck.Tool.Script.Condition
import SlideDeck.Tool.Script.Expansion
import SlideDeck.Tool.Script.Printing

/-!
# The commands of a script itself

What the commands do that need no program of their own: they change the state of the
script, print, test and read. Commands that run other statements are not among them.
-/

set_option autoImplicit false

namespace SlideDeck.Script

open SlideDeck SlideDeck.Text

/-- A text in single quotes, as a script would write it. -/
def singleQuoted (s : Text) : Text :=
  '\x27' :: s.flatMap (fun c => if c = '\x27' then "'\x22'\x22'".toList else [c]) ++ ['\x27']

/-- The letters of the options, by their names, in the order in which they are shown. -/
def optionLetters : List (String × Char) :=
  [("nounset", 'u'), ("notify", 'b'), ("allexport", 'a'), ("noclobber", 'C'), ("verbose", 'v'),
    ("xtrace", 'x'), ("noexec", 'n'), ("monitor", 'm'), ("noglob", 'f'), ("errexit", 'e')]

namespace Shell

/-- The number that an argument is. -/
def numberArgument (argument : Text) : Shell Nat := do
  match digits? argument with
  | some value => return value
  | none => fail ("Illegal number: ".toList ++ argument)

/-- Prints as a format says, with what is wrong first. -/
def printFormat (format : Text) (arguments : List Text) : Shell Unit := do
  let printed := printf format arguments
  for fault in printed.faults do warn fault
  print printed.output
  setStatus printed.status

/-- Tests a condition. -/
def testCondition (words : List Text) : Shell Unit := do
  let state ← get
  match holds state.files state.here words with
  | .ok isSo => setStatus (if isSo then 0 else 1)
  | .error what => fail what.message

/-! ## Places -/

/-- Goes to a directory. -/
def goTo (arguments : List Text) : Shell Unit := do
  let arguments := arguments.filter fun argument =>
    !(["-L", "-P", "--"].any fun option => option.toList == argument)
  let target ←
    match arguments with
    | [] => pure ((← binding? "HOME".toList).getD [])
    | argument :: _ =>
      if argument == ['-'] then pure ((← binding? "OLDPWD".toList).getD []) else pure argument
  if target.isEmpty then setStatus 0
  else
    let state ← get
    match state.files.find state.here (toText target) with
    | .ok (place, .directory) =>
      assign "OLDPWD".toList ((← binding? "PWD".toList).getD [])
      assign "PWD".toList (ofText (FileTree.pathOf place))
      modify fun state => { state with here := place }
      if arguments.head? == some ['-'] then print (ofText (FileTree.pathOf place) ++ ['\n'])
      setStatus 0
    | _ => fail ("can't cd to ".toList ++ target)

/-! ## Variables and options -/

/-- Cuts an argument at its first equals sign. -/
def splitAssignment (argument : Text) : Text × Option Text :=
  match splitOnce '=' argument with
  | some (name, value) => (name, some value)
  | none => (argument, none)

/-- Changes variables, which are given with or without values. -/
def declare (change : Variable → Variable) (arguments : List Text) : Shell Unit := do
  for argument in arguments do
    let (name, value) := splitAssignment argument
    if !isName name then fail (name ++ ": bad variable name".toList)
    match value with
    | some value => assign name value
    | none => pure ()
    changeVariable name change
  setStatus 0

/-- Prints the variables that have a property. -/
def printVariables (keyword : String) (wanted : Variable → Bool) : Shell Unit := do
  let found := (← get).bindings.filter fun (_, held) => wanted held
  for (name, held) in found.mergeSort fun a b => Text.le a.1 b.1 do
    let value :=
      match held.value with
      | some value => '=' :: singleQuoted value
      | none => []
    print (keyword.toList ++ ' ' :: name ++ value ++ ['\n'])
  setStatus 0

/-- Exports variables, or makes them read only. -/
def declareOrPrint (keyword : String) (wanted : Variable → Bool) (change : Variable → Variable)
    (arguments : List Text) : Shell Unit :=
  if arguments.isEmpty || arguments == ["-p".toList] then printVariables keyword wanted
  else declare change (arguments.filter (· != "--".toList))

/-- Makes variables those of the function that is running. -/
def declareLocal (arguments : List Text) : Shell Unit := do
  match (← get).locals with
  | [] => fail "not in a function".toList
  | saved :: outer =>
    let mut saved := saved
    for argument in arguments do
      let (name, value) := splitAssignment argument
      if !isName name then fail (name ++ ": bad variable name".toList)
      saved := (name, Keyed.get? name (← get).bindings) :: saved
      modify fun state => { state with locals := saved :: outer }
      match value with
      | some value => assign name value
      | none => pure ()
    setStatus 0

/-- Forgets variables or functions. -/
def forget (arguments : List Text) : Shell Unit := do
  let isFunction := arguments.head? == some "-f".toList
  let names := if arguments.head?.any (startsWith ['-']) then arguments.tail else arguments
  for name in names do
    if isFunction then
      modify fun state => { state with functions := Keyed.erase name state.functions }
    else
      if !isName name then fail (name ++ ": bad variable name".toList)
      if ((Keyed.get? name (← get).bindings).map Variable.isReadOnly).getD false then
        fail (name ++ ": is read only".toList)
      removeVariable name
  setStatus 0

/-- Turns an option on or off. -/
def turn (isOn : Bool) (letter : Char) : Shell Unit :=
  modify fun state =>
    let others := state.options.filter (· != letter)
    let options := if isOn then letter :: others else others
    { state with
      options := (optionLetters.map Prod.snd).filter options.contains }

/-- Sets options by their letters. -/
def turnAll (isOn : Bool) (letters : Text) : Shell Unit := do
  for letter in letters do
    if (optionLetters.map Prod.snd).contains letter then turn isOn letter
    else fail ("Illegal option ".toList ++ [if isOn then '-' else '+', letter])

/-- Sets options, and the arguments of the script. -/
def setArguments : List Text → Shell Unit
  | [] => setStatus 0
  | word :: rest => do
    if word == "--".toList then
      modify fun state => { state with arguments := rest }
      setStatus 0
    else
      match word with
      | sign :: 'o' :: [] =>
        if sign == '-' || sign == '+' then
          match rest with
          | [] => setStatus 0
          | name :: rest =>
            match optionLetters.find? fun option => option.1.toList == name with
            | some (_, letter) => turn (sign == '-') letter
            | none => fail ("Illegal option ".toList ++ sign :: 'o' :: ' ' :: name)
            setArguments rest
        else modify fun state => { state with arguments := word :: rest, status := 0 }
      | '-' :: letter :: letters =>
        turnAll true (letter :: letters)
        setArguments rest
      | '+' :: letter :: letters =>
        turnAll false (letter :: letters)
        setArguments rest
      | _ => modify fun state => { state with arguments := word :: rest, status := 0 }

/-- Drops arguments of the script. -/
def shift (arguments : List Text) : Shell Unit := do
  let count ←
    match arguments with
    | [] => pure 1
    | argument :: _ => numberArgument argument
  let held := (← get).arguments
  if held.length < count then fail "can't shift that many".toList
  modify fun state => { state with arguments := held.drop count, status := 0 }

/-! ## Reading -/

/-- The line at the front of bytes, with the characters that a backslash protects, behind
which it may go on; how many bytes it has; and whether a newline ends it. `protects` says
whether there is a backslash before the bytes. -/
def lineFrom (raw : Bool) (protects : Bool) : List UInt8 → List Mark × Nat × Bool
  | [] => ([], 0, false)
  | byte :: bytes =>
    let c := Char.ofNat byte.toNat
    if c == '\n' && !protects then ([], 1, true)
    else
      let isProtection := c == '\\' && !raw && !protects
      let (line, count, ended) := lineFrom raw isProtection bytes
      let isKept := !isProtection && !(protects && c == '\n')
      (if isKept then (c, protects) :: line else line, count + 1, ended)

/-- The first field of a line, and the line behind it. -/
def firstField (separators : Text) (line : List Mark) : Text × List Mark :=
  let isBlank : Mark → Bool := fun (c, quoted) => !quoted && separators.contains c && isSumGap c
  let isSeparator : Mark → Bool := fun (c, quoted) => !quoted && separators.contains c
  let line := line.dropWhile isBlank
  let field := line.takeWhile (!isSeparator ·)
  let rest := (line.drop field.length).dropWhile isBlank
  match rest with
  | [] => (textOf field, [])
  | mark :: behind =>
    if (line.drop field.length).head?.any isBlank && !isSeparator mark then (textOf field, rest)
    else if isSeparator mark && !isBlank mark then (textOf field, behind.dropWhile isBlank)
    else (textOf field, rest)

/-- The fields of a line for a number of variables, the last of which gets the rest. -/
def fieldsFor (separators : Text) : Nat → List Mark → List Text
  | 0, _ => []
  | 1, line =>
    let isBlank : Mark → Bool := fun (c, quoted) => !quoted && separators.contains c && isSumGap c
    let line := ((line.dropWhile isBlank).reverse.dropWhile isBlank).reverse
    let (only, rest) := firstField separators line
    [if rest.isEmpty then only else textOf line]
  | count + 1, line =>
    let (field, rest) := firstField separators line
    field :: fieldsFor separators count rest

/-- Reads a line into variables. -/
def readLine (arguments : List Text) : Shell Unit := do
  let raw := arguments.head? == some "-r".toList
  let names := if raw then arguments.tail else arguments
  if names.isEmpty then fail "arg count".toList
  match names.find? (!isName ·) with
  | some name => fail (name ++ ": bad variable name".toList)
  | none => pure ()
  match ← readable 0 with
  | none => setStatus 1
  | some bytes =>
    let (line, count, ended) := lineFrom raw false bytes
    consume 0 count
    let fields := fieldsFor (← separators) names.length line
    for (name, value) in names.zip fields do assign name value
    setStatus (if ended then 0 else 1)

/-! ## Signals -/

/-- The names of all signals for scripts, which have one for the end of the script as well.
Those of the last ones count from the first of them up or from the last one down. -/
def signalWords : List Text :=
  "EXIT".toList :: signalNames.map String.toList ++ ["32".toList, "33".toList, "RTMIN".toList] ++
    (List.range 15).map (fun count => "RTMIN+".toList ++ ofNat (count + 1)) ++
    (List.range 14).map (fun count => "RTMAX-".toList ++ ofNat (14 - count)) ++
    ["RTMAX".toList]

/-- The number of the signal with a name or a number. -/
def signalOf? (word : Text) : Option Nat :=
  match digits? word with
  | some number => if number < signalWords.length then some number else none
  | none => signalWords.findIdx? (· == word.map Char.toUpper)

/-- The name of a signal for which something can be done. -/
def trapName (signal : Nat) : Text := (signalWords[signal]?).getD []

/-- Says what is done on signals. -/
def setTraps (arguments : List Text) : Shell Unit := do
  let arguments := if arguments.head? == some "--".toList then arguments.tail else arguments
  match arguments with
  | [] =>
    for (signal, action) in (← get).traps.mergeSort fun a b => decide (a.1 ≤ b.1) do
      print ("trap -- ".toList ++ singleQuoted action ++ ' ' :: trapName signal ++ ['\n'])
    setStatus 0
  | first :: others =>
    let (action, words) :=
      if others.isEmpty || (digits? first).isSome then (['-'], arguments) else (first, others)
    setStatus 0
    for word in words do
      match signalOf? word with
      | none =>
        printError ("trap: ".toList ++ word ++ ": bad trap\n".toList)
        setStatus 1
      | some signal =>
        if action == ['-'] then
          modify fun state => { state with traps := Keyed.erase signal state.traps }
        else modify fun state => { state with traps := Keyed.put signal action state.traps }

/-- Does what a signal to the script asks for. The actions of the script are done by
`act`. -/
def receive (act : Text → Shell Unit) (signal : Nat) : Shell Unit := do
  if signal == 9 || signal == 19 then throw (.killed signal)
  match Keyed.get? signal (← get).traps with
  | some [] => setStatus 0
  | some action =>
    setStatus 0
    act action
    setStatus 0
  | none => if signal == 0 || isIdleSignal signal then setStatus 0 else throw (.killed signal)

/-- Sends a signal. The only program that is there to get one is the script itself. -/
def kill (act : Text → Shell Unit) (arguments : List Text) : Shell Unit := do
  let usage : Text :=
    "Usage: kill [-s sigspec | -signum | -sigspec] [pid | job]... or\nkill -l [exitstatus]".toList
  let (signal, targets) ←
    match arguments with
    | [] => fail usage
    | first :: rest =>
      match first, rest with
      | ['-', 'l'], _ => pure (none, rest)
      | ['-', 's'], name :: targets =>
        match signalOf? name with
        | some signal => pure (some signal, targets)
        | none => fail ("invalid signal number or name: ".toList ++ name)
      | '-' :: '-' :: [], _ => pure (some 15, rest)
      | '-' :: c :: word, _ =>
        match signalOf? (c :: word) with
        | some signal => pure (some signal, rest)
        | none => fail ("Illegal option -".toList ++ [c])
      | _, _ => pure (some 15, arguments)
  match signal with
  | none =>
    match targets with
    | [] =>
      for name in ['0'] :: signalWords.tail do print (name ++ ['\n'])
      setStatus 0
    | target :: _ =>
      let number ← numberArgument target
      let signal := if number > 128 then number - 128 else number
      if signal == 0 || signalWords.length ≤ signal then
        fail ("invalid signal number or exit status: ".toList ++ target)
      print (trapName signal ++ ['\n'])
      setStatus 0
  | some signal =>
    if targets.isEmpty then fail usage
    for target in targets do
      if target == processNumber || target == ['0'] then receive act signal
      else if target == backgroundNumber && (← get).backgroundStatus.isSome then setStatus 0
      else if (digits? target).isSome || startsWith ['-'] target then
        warn "No such process\n".toList
        setStatus 1
      else fail ("Illegal number: ".toList ++ target)

/-- Waits for what runs in the background, which has always ended. -/
def wait (arguments : List Text) : Shell Unit := do
  setStatus 0
  for argument in arguments do
    let status := (← get).backgroundStatus
    setStatus (if argument == backgroundNumber then status.getD 127 else 127)

/-! ## Options of arguments -/

/-- Reads the next option of arguments into a variable. -/
def nextOption (arguments : List Text) : Shell Unit := do
  match arguments with
  | letters :: name :: given =>
    let words ← if given.isEmpty then do pure (← get).arguments else pure given
    let index := ((digits? ((← binding? "OPTIND".toList).getD ['1'])).getD 1) - 1
    let offset := (← get).optionOffset
    let isQuiet := startsWith [':'] letters
    let goOn (index offset : Nat) : Shell Unit := do
      assign "OPTIND".toList (ofNat (index + 1))
      modify fun state => { state with optionOffset := offset }
    let finish (index : Nat) : Shell Unit := do
      goOn index 0
      assign name ['?']
      setStatus 1
    match words[index]? with
    | none => finish index
    | some word =>
      if offset == 0 && (word == "--".toList) then finish (index + 1)
      else if offset == 0 && !(startsWith ['-'] word && word.length > 1) then finish index
      else
        let start := if offset == 0 then 1 else offset
        let letter := (word[start]?).getD '?'
        let behind := word.drop (start + 1)
        let takes := (letters.dropWhile (· != letter)).drop 1
        if letter == ':' || !letters.contains letter then
          if behind.isEmpty then goOn (index + 1) 0 else goOn index (start + 1)
          assign name ['?']
          if isQuiet then assign "OPTARG".toList [letter]
          else
            printError ("Illegal option -".toList ++ [letter, '\n'])
            removeVariable "OPTARG".toList
          setStatus 0
        else if startsWith [':'] takes then
          if !behind.isEmpty then
            assign "OPTARG".toList behind
            goOn (index + 1) 0
            assign name [letter]
          else
            match words[index + 1]? with
            | some value =>
              assign "OPTARG".toList value
              goOn (index + 2) 0
              assign name [letter]
            | none =>
              goOn (index + 1) 0
              if isQuiet then
                assign "OPTARG".toList [letter]
                assign name [':']
              else
                printError ("No arg for -".toList ++ letter :: " option\n".toList)
                assign name ['?']
          setStatus 0
        else
          if behind.isEmpty then goOn (index + 1) 0 else goOn index (start + 1)
          assign "OPTARG".toList []
          assign name [letter]
          setStatus 0
  | _ => fail "Usage: getopts optstring var [arg]".toList

/-! ## Leaving -/

/-- The status with which something is left. -/
def statusArgument (arguments : List Text) : Shell Nat := do
  match arguments with
  | [] => return (← get).status
  | argument :: _ => numberArgument argument

/-- Leaves loops. -/
def leaveLoops (leave : Nat → Leave) (arguments : List Text) : Shell Unit := do
  let count ←
    match arguments with
    | [] => pure 1
    | argument :: _ => numberArgument argument
  if count == 0 then fail "Illegal number: 0".toList
  let loops := (← get).loops
  setStatus 0
  if loops > 0 then throw (leave (min count loops))

end Shell

/-- The commands that are part of what a script is: what is wrong with them ends it. -/
def specialNames : List Text :=
  [":", ".", "break", "continue", "eval", "exec", "exit", "export", "local", "readonly", "return",
    "set", "shift", "times", "trap", "unset"].map String.toList

/-- What a command does that runs no other statements but the actions on signals. -/
def builtin? (act : Text → Shell Unit) (name : Text) : Option (List Text → Shell Unit) :=
  let named (s : String) : Bool := name == s.toList
  if named ":" || named "true" then some fun _ => Shell.setStatus 0
  else if named "false" then some fun _ => Shell.setStatus 1
  else if named "echo" then some fun arguments => do
    Shell.setStatus 0
    Shell.print (echo arguments)
  else if named "printf" then some fun arguments =>
    match if arguments.head? == some "--".toList then arguments.tail else arguments with
    | [] => Shell.fail "usage: printf format [arg ...]".toList
    | format :: arguments => Shell.printFormat format arguments
  else if named "test" then some Shell.testCondition
  else if named "[" then some fun arguments =>
    if arguments.getLast? == some [']'] then Shell.testCondition arguments.dropLast
    else Shell.fail "missing ]".toList
  else if named "cd" || named "chdir" then some Shell.goTo
  else if named "pwd" then some fun _ => do
    Shell.setStatus 0
    Shell.print (ofText (FileTree.pathOf (← get).here) ++ ['\n'])
  else if named "export" then
    some (Shell.declareOrPrint "export" Variable.isExported fun held =>
      { held with isExported := true })
  else if named "readonly" then
    some (Shell.declareOrPrint "readonly" Variable.isReadOnly fun held =>
      { held with isReadOnly := true })
  else if named "local" then some Shell.declareLocal
  else if named "unset" then some Shell.forget
  else if named "set" then some Shell.setArguments
  else if named "shift" then some Shell.shift
  else if named "read" then some Shell.readLine
  else if named "trap" then some Shell.setTraps
  else if named "kill" then some (Shell.kill act)
  else if named "getopts" then some Shell.nextOption
  else if named "break" then some (Shell.leaveLoops .loops)
  else if named "continue" then some (Shell.leaveLoops .turn)
  else if named "return" then some fun arguments => do
    Shell.setStatus (← Shell.statusArgument arguments)
    throw .function
  else if named "exit" then some fun arguments => do
    Shell.setStatus (← Shell.statusArgument arguments)
    throw .exit
  else if named "wait" then some Shell.wait
  else if named "umask" then some fun arguments => do
    Shell.setStatus 0
    if arguments.isEmpty then Shell.print "0022\n".toList
  else if ["jobs", "hash", "times", "alias", "unalias", "ulimit", "fg", "bg"].any named then
    some fun _ => Shell.setStatus 0
  else none

end SlideDeck.Script
