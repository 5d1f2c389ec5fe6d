import SlideDeck.Tool.Script.Start

/-!
# Parts of running scripts

What running a script is made of, apart from what the statements say: the turns of
loops, parts of a script with a state of their own, variables for the time of a command,
calls of functions, and the programs that only serve. What is done inside these parts is
a parameter.
-/

set_option autoImplicit false

namespace SlideDeck.Script

open SlideDeck SlideDeck.Text

/-- What is said about a program that a signal has killed. -/
def killedWords (signal : Nat) : Text :=
  match signal with
  | 1 => "Hangup".toList
  | 3 => "Quit".toList
  | 4 => "Illegal instruction".toList
  | 6 => "Aborted".toList
  | 8 => "Floating point exception".toList
  | 9 => "Killed".toList
  | 10 => "User defined signal 1".toList
  | 11 => "Segmentation fault".toList
  | 12 => "User defined signal 2".toList
  | 14 => "Alarm clock".toList
  | 15 => "Terminated".toList
  | _ => if 34 ≤ signal then "Real-time signal ".toList ++ ofNat (signal - 34) else []

namespace Shell

/-- Whether the last command was a success. -/
def succeeded : Shell Bool := do return (← get).status == 0

/-- Ends the script if the last command has failed, where a failure ends it. -/
def checkFailure (tested : Bool) : Shell Unit := do
  if !tested && !(← succeeded) && (← hasOption 'e') then throw .exit

/-- Does one turn of a loop. Says whether there is another one. -/
def turnOf (body : Shell Bool) : Shell Bool := do
  match ← attempt body with
  | .ok goesOn => return goesOn
  | .error (.loops count) => if count ≤ 1 then return false else throw (.loops (count - 1))
  | .error (.turn count) => if count ≤ 1 then return true else throw (.turn (count - 1))
  | .error leave => throw leave

/-- Does something inside one more loop. -/
def inLoop (body : Shell Unit) : Shell Unit := do
  modify fun state => { state with loops := state.loops + 1 }
  let result ← attempt body
  modify fun state => { state with loops := state.loops - 1 }
  ofResult result

/-- Does turns of a loop until there is no other one. A turn gets the status of the one
before. -/
def turns (turn : Nat → Shell Bool) : Nat → Nat → Shell Unit
  | 0, _ => throw (.killed 9)
  | fuel + 1, last => do
    if ← turnOf (turn last) then turns turn fuel (← get).status

/-- Does a turn of a loop for each of some texts. -/
def turnsOver (turn : Text → Shell Unit) : List Text → Shell Unit
  | [] => return
  | value :: values => do
    let goesOn ← turnOf do
      turn value
      return true
    if goesOn then turnsOver turn values

/-- Does something in a part of the script with a state of its own, which ends with a
status. -/
def asPart (body : Shell Unit) : Shell Unit := do
  let result ← apart body
  modify fun state => { state with status := state.status % 256 }
  match result with
  | .error (.killed signal) => throw (.killed signal)
  | _ => return

/-- Gives values to variables for the time of something. -/
def withValues (values : List (Text × Text)) (body : Shell Unit) : Shell Unit := do
  let before := (← get).bindings
  for (name, value) in values do
    assign name value
    changeVariable name fun held => { held with isExported := true }
  let result ← attempt body
  for (name, _) in values do
    modify fun state => { state with
      bindings :=
        match Keyed.get? name before with
        | some held => Keyed.put name held state.bindings
        | none => Keyed.erase name state.bindings }
  ofResult result

/-- Serves a command that is part of the script. What is wrong with it ends the script
only if the command is special. -/
def serve (name : Text) (isSpecial : Bool) (body : Shell Unit) : Shell Unit := do
  let before := (← get).serving
  modify fun state => { state with serving := name }
  let result ← attempt body
  modify fun state => { state with serving := before }
  match result with
  | .error .fault => if isSpecial then throw .fault
  | result => ofResult result

/-- Waits for another program, and tells which signal has killed it. -/
def waitFor (body : Shell Unit) : Shell Unit := do
  match ← attempt body with
  | .error (.killed signal) =>
    if !(killedWords signal).isEmpty then printError (killedWords signal ++ ['\n'])
    setStatus (128 + signal)
  | result => ofResult result

/-- How many functions can be running at a time. -/
def deepestCall : Nat := 1000

/-- Calls a function with arguments and variables of its own. -/
def call (arguments : List Text) (body : Shell Unit) : Shell Unit := do
  let before ← get
  if deepestCall ≤ before.locals.length then
    fail ("Maximum function recursion depth (".toList ++ ofNat deepestCall ++ ") reached".toList)
  modify fun state => { state with arguments, loops := 0, locals := [] :: state.locals }
  let result ← attempt body
  modify fun state =>
    let saved := state.locals.headD []
    { state with
      arguments := before.arguments
      loops := before.loops
      locals := before.locals
      bindings := saved.foldl (fun bindings (name, held) =>
        match held with
        | some held => Keyed.put name held bindings
        | none => Keyed.erase name bindings) state.bindings }
  match result with
  | .error .function => return
  | result => ofResult result

/-- Shows what is done, if the script wants that. -/
def trace (values : List (Text × Text)) (words : List Text) : Shell Unit := do
  if ← hasOption 'x' then
    let mark := (← binding? "PS4".toList).getD "+ ".toList
    let assigned := values.map fun (name, value) => name ++ '=' :: value
    printError (mark ++ join [' '] (assigned ++ words) ++ ['\n'])

/-- Runs an installed program that only serves. -/
def runService (service : Utility.Service) (start : Start) : Shell Unit := do
  let state ← get
  let request : Utility.Request :=
    { name := start.name, arguments := start.arguments, files := state.files, here := state.here }
  let input ← if Utility.readsInput start.installed request then readable 0 else pure none
  let input := input.getD []
  consume 0 input.length
  let served := service { request with input := ofBytes input }
  modify fun state => { state with files := served.files, status := served.status }
  printError served.errors
  let written ← write 1 (toBytes served.output)
  if !written && !served.output.isEmpty then setStatus 1

/-- Prints the variables that other programs see, or the values of those with given names. -/
def printEnvironment (names : List Text) : Shell Unit := do
  let held := (← get).bindings.filterMap fun (name, held) =>
    if held.isExported then held.value.map (name, ·) else none
  setStatus 0
  if names.isEmpty then
    for (name, value) in held do print (name ++ '=' :: value ++ ['\n'])
  else
    for name in names do
      match held.lookup name with
      | some value => print (value ++ ['\n'])
      | none => setStatus 1

/-- Says what a name is as a command. -/
def describe (isShort : Bool) (name : Text) : Shell Unit := do
  let state ← get
  let say (long short : Text) : Shell Unit := do
    print ((if isShort then short else name ++ long) ++ ['\n'])
    setStatus 0
  if keywords.contains name then say " is a shell keyword".toList name
  else if (Keyed.get? name state.functions).isSome then say " is a shell function".toList name
  else if specialNames.contains name then say " is a special shell builtin".toList name
  else if (builtin? (fun _ => pure ()) name).isSome ||
    ["command".toList, "type".toList].contains name then say " is a shell builtin".toList name
  else if shellNames.contains name || (Utility.service? name).isSome then
    say (" is /usr/bin/".toList ++ name) ("/usr/bin/".toList ++ name)
  else if name.contains '/' && state.files.holds state.here (toText name) then
    say (" is ".toList ++ name) name
  else
    if !isShort then print (name ++ ": not found\n".toList)
    setStatus 127

/-- Tells that a command cannot be run. -/
def notRun (name : Text) (why : String) (status : Nat) : Shell Unit := do
  warn (name ++ ": ".toList ++ why.toList)
  setStatus status

/-- The variables with which a script begins, besides those that it is given. -/
def startBindings (given : Keyed Text Variable) : Keyed Text Variable :=
  [("IFS", " \t\n"), ("OPTIND", "1"), ("PPID", "4241"), ("PS1", "$ "), ("PS2", "> "),
    ("PS4", "+ ")].foldl (fun bindings (name, value) =>
      Keyed.put name.toList { value := some value.toList } bindings) given

/-- The state in which another script begins. -/
def stateOfChild (state : State) (script : Text) (options : List Char) (arguments : List Text) :
    State where
  script := script
  arguments := arguments
  files := state.files
  here := state.here
  bindings := startBindings (state.bindings.filter fun (_, held) => held.isExported)
  options := (optionLetters.map Prod.snd).filter options.contains
  streams := state.streams
  descriptors := state.descriptors

end Shell

end SlideDeck.Script
