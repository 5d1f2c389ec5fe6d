import SlideDeck.Tool.Command
import SlideDeck.Tool.Script.Control
import SlideDeck.Tool.Script.Redirect

/-!
# Running scripts

A script runs line by line. Statements go down into statements, and each step down, as
each turn of a loop, takes one of the fuel; a script that has none left is killed.

Other scripts that a script starts share its streams and its files, and have variables
of their own.
-/

set_option autoImplicit false

namespace SlideDeck.Script

open SlideDeck SlideDeck.Text

namespace Shell

mutual

/-- Runs statements one after the other. `tested` says whether a failure is looked at. -/
def runAll (tested : Bool) : Nat → List Statement → Shell Unit
  | 0, _ => throw (.killed 9)
  | fuel + 1, statements => statements.forM (run tested fuel)

/-- The text that statements print, without newlines at its end. -/
def outputOf : Nat → List Statement → Shell Text
  | 0, _ => throw (.killed 9)
  | fuel + 1, statements => do
    let status := (← get).status
    let number ← openStream (.collected [])
    asPart do
      connect 1 number
      runAll false fuel statements
    let state ← get
    let text := ofBytes ((state.streams[number]?).map Stream.kept |>.getD [])
    set { state with
      streams := state.streams.take number, outputStatus := some state.status, status }
    return ((text.filter (· != '\x00')).reverse.dropWhile (· == '\n')).reverse

/-- Runs a statement. -/
def run (tested : Bool) : Nat → Statement → Shell Unit
  | 0, _ => throw (.killed 9)
  | fuel + 1, statement => do
    match statement with
    | .simple line assignments words redirections =>
      modify fun state => { state with line }
      runSimple tested assignments words redirections fuel
      checkFailure tested
    | .redirected line body redirections =>
      modify fun state => { state with line }
      withDescriptors do
        if ← redirectAll (outputOf fuel) redirections then run tested fuel body
    | .pipeline parts =>
      runPipeline tested parts fuel
      checkFailure tested
    | .negated body =>
      run true fuel body
      setStatus (if ← succeeded then 1 else 0)
    | .pair first wanted second =>
      run true fuel first
      if (← succeeded) == wanted then run tested fuel second
    | .background body =>
      asPart do
        connect 0 (← openStream .sink)
        run tested fuel body
      modify fun state => { state with backgroundStatus := some state.status, status := 0 }
    | .group body => runAll tested fuel body
    | .subshell body =>
      asPart (endTrap fuel (runAll tested fuel body))
      checkFailure tested
    | .choice test yes no =>
      runAll true fuel test
      if ← succeeded then runAll tested fuel yes
      else if no.isEmpty then setStatus 0
      else runAll tested fuel no
    | .loop wanted test body =>
      inLoop (turns (fun last => do
        runAll true fuel test
        if (← succeeded) == wanted then
          runAll tested fuel body
          return true
        setStatus last
        return false) fuel 0)
    | .each line name items body =>
      modify fun state => { state with line }
      let values ←
        match items with
        | some words => Word.expandAll (outputOf fuel) words
        | none => do pure (← get).arguments
      setStatus 0
      inLoop (turnsOver (fun value => do
        assign name value
        runAll tested fuel body) values)
    | .select line subject arms =>
      modify fun state => { state with line }
      let subject ← Word.text (outputOf fuel) subject
      runArms tested subject arms fuel
    | .define name body =>
      modify fun state =>
        { state with functions := Keyed.put name body state.functions, status := 0 }

/-- Runs the first of some arms that has a pattern which matches the subject. -/
def runArms (tested : Bool) (subject : Text) (arms : List (List Word × List Statement)) :
    Nat → Shell Unit
  | 0 => throw (.killed 9)
  | fuel + 1 => do
    match arms with
    | [] => setStatus 0
    | (patterns, body) :: others =>
      let isMatch ← patterns.anyM fun pattern => do
        return matchesPattern (← Word.field (outputOf fuel) pattern) subject
      if isMatch then
        if body.isEmpty then setStatus 0 else runAll tested fuel body
      else runArms tested subject others fuel

/-- Runs statements that each read what the one before prints. -/
def runPipeline (tested : Bool) (parts : List Statement) : Nat → Shell Unit
  | 0 => throw (.killed 9)
  | fuel + 1 => do
    match parts with
    | [] => return
    | [last] => asPart (run tested fuel last)
    | first :: others =>
      let number ← openStream (.collected [])
      asPart do
        connect 1 number
        run tested fuel first
      let kept := (((← get).streams[number]?).map Stream.kept).getD []
      withDescriptors do
        connect 0 (← openStream (.given kept))
        runPipeline tested others fuel

/-- Runs a simple command. -/
def runSimple (tested : Bool) (assignments : List (Text × Word)) (words : List Word)
    (redirections : List Redirection) : Nat → Shell Unit
  | 0 => throw (.killed 9)
  | fuel + 1 => do
    modify fun state => { state with outputStatus := none }
    let words ← Word.expandCommand (outputOf fuel) words
    let isSpecial := (words.head?).any specialNames.contains
    let values : Shell (List (Text × Text)) := assignments.mapM fun (name, word) => do
      return (name, ← Word.assigned (outputOf fuel) word)
    match words with
    | [] =>
      withDescriptors do
        if ← redirectAll (outputOf fuel) redirections then
          let mut values := []
          for (name, word) in assignments do
            let value ← Word.assigned (outputOf fuel) word
            assign name value
            values := values ++ [(name, value)]
          if !values.isEmpty then trace values []
          setStatus ((← get).outputStatus.getD 0)
    | name :: arguments =>
      if name == "exec".toList then
        if ← redirectAll (outputOf fuel) redirections then
          let values ← values
          trace values words
          match arguments with
          | [] =>
            for (name, value) in values do assign name value
            setStatus 0
          | command :: arguments =>
            serve name true (withValues values (runProgram command arguments fuel))
            modify fun state => { state with traps := Keyed.erase 0 state.traps }
            throw .exit
        else throw .fault
      else
        withDescriptors do
          if ← redirectAll (outputOf fuel) redirections then
            let values ← values
            trace values words
            if isSpecial then
              for (name, value) in values do assign name value
              serve name true (runSpecial tested name arguments fuel)
            else
              match Keyed.get? name (← get).functions with
              | some body => withValues values (call arguments (run tested fuel body))
              | none => withValues values (runCommand tested name arguments fuel)
          else if isSpecial then throw .fault

/-- Runs a special command. -/
def runSpecial (tested : Bool) (name : Text) (arguments : List Text) : Nat → Shell Unit
  | 0 => throw (.killed 9)
  | fuel + 1 => do
    if name == "eval".toList then
      setStatus 0
      runLines tested { rest := join [' '] arguments } fuel
    else if name == ['.'] then
      match arguments with
      | [] => setStatus 0
      | path :: _ =>
        if !path.contains '/' then fail (path ++ ": not found".toList)
        let state ← get
        match state.files.read state.here (toText path) with
        | .error fault =>
          fail ("cannot open ".toList ++ path ++ ": ".toList ++ openingFault "No such file" fault)
        | .ok content =>
          setStatus 0
          match ← attempt (runLines tested { rest := ofBytes content } fuel) with
          | .error .function => return
          | result => ofResult result
    else
      match builtin? (act fuel) name with
      | some service => service arguments
      | none => setStatus 0

/-- Does the action on a signal. -/
def act : Nat → Text → Shell Unit
  | 0, _ => throw (.killed 9)
  | fuel + 1, action => runLines false { rest := action } fuel

/-- Runs a command that is no function. -/
def runCommand (tested : Bool) (name : Text) (arguments : List Text) : Nat → Shell Unit
  | 0 => throw (.killed 9)
  | fuel + 1 => do
    if name == "command".toList then
      match if arguments.head? == some "-p".toList then arguments.tail else arguments with
      | [] => setStatus 0
      | name :: arguments =>
        if name == "-v".toList || name == "-V".toList then
          match arguments with
          | [] => setStatus 0
          | target :: _ => describe (name == "-v".toList) target
        else if specialNames.contains name then
          serve name false (runSpecial tested name arguments fuel)
        else runCommand tested name arguments fuel
    else if name == "type".toList then
      setStatus 0
      for target in arguments do describe false target
    else
      match builtin? (act fuel) name with
      | some service => serve name false (service arguments)
      | none => waitFor (runProgram name arguments fuel)

/-- Runs another program. -/
def runProgram (name : Text) (arguments : List Text) : Nat → Shell Unit
  | 0 => throw (.killed 9)
  | fuel + 1 => do
    let state ← get
    if !name.contains '/' then
      if isInstalled name then runStart ⟨name, name, arguments⟩ fuel
      else notRun name "not found" 127
    else
      match Start.ofPath state.files state.here name arguments with
      | .ok start => runStart start fuel
      | .error .notExecutable =>
        let content := (state.files.read state.here (toText name)).toOption.getD []
        runScript name (ofBytes content) [] arguments fuel
      | .error .notFound | .error .notDirectory => notRun name "not found" 127
      | .error _ => notRun name "Permission denied" 126

/-- Runs an installed program that is started. -/
def runStart (start : Start) : Nat → Shell Unit
  | 0 => throw (.killed 9)
  | fuel + 1 => do
    if shellNames.contains start.installed then runShell start.name start.arguments fuel
    else if start.installed == "env".toList then
      let changed := Changed.ofArguments start.arguments
      let before := (← get).bindings
      modify fun state =>
        { state with bindings := before.filter fun (name, _) => !changed.hides name }
      let result ← attempt (withValues changed.values
        (match changed.command with
        | [] => printEnvironment []
        | command :: arguments => do
          if command.contains '/' || isInstalled command then runProgram command arguments fuel
          else
            printError (start.name ++ ": ".toList ++ Utility.quote command ++
              ": No such file or directory\n".toList)
            setStatus 127))
      modify fun state => { state with bindings := before }
      ofResult result
    else if start.installed == "printenv".toList then printEnvironment start.arguments
    else
      match Utility.service? start.installed with
      | some service => runService service start
      | none =>
        match builtin? (fun _ => pure ()) start.installed with
        | some service => serve start.name false (service start.arguments)
        | none => notRun start.name "not found" 127

/-- Runs the program that runs scripts. -/
def runShell (name : Text) (arguments : List Text) : Nat → Shell Unit
  | 0 => throw (.killed 9)
  | fuel + 1 => do
    let state ← get
    let refuse (what : Text) : Shell Unit := do
      printError (name ++ ": 0: ".toList ++ what ++ ['\n'])
      setStatus 2
    match shellOptions arguments with
    | .error what => refuse what
    | .ok (options, operands) =>
      match operands with
      | [] =>
        if options.contains 'c' then refuse "-c requires an argument".toList
        else runInput name options [] fuel
      | first :: given =>
        if options.contains 'c' then runScript (given.headD name) first options given.tail fuel
        else if options.contains 's' then runInput name options operands fuel
        else
          match state.files.read state.here (toText first) with
          | .error fault =>
            refuse ("cannot open ".toList ++ first ++ ": ".toList ++
              openingFault "No such file" fault)
          | .ok content => runScript first (ofBytes content) options given fuel

/-- Runs the script that is in the input. -/
def runInput (name : Text) (options : List Char) (arguments : List Text) : Nat → Shell Unit
  | 0 => throw (.killed 9)
  | fuel + 1 => do
    let input := (← readable 0).getD []
    consume 0 input.length
    runScript name (ofBytes input) options arguments fuel

/-- Runs a script as a program of its own. -/
def runScript (script source : Text) (options : List Char) (arguments : List Text) :
    Nat → Shell Unit
  | 0 => throw (.killed 9)
  | fuel + 1 => do
    let before ← get
    set (stateOfChild before script options arguments)
    let result ← attempt (endTrap fuel (runLines false { rest := source } fuel))
    let after ← get
    set { before with files := after.files, streams := after.streams }
    match result with
    | .error (.killed signal) => throw (.killed signal)
    | _ => setStatus (after.status % 256)

/-- Runs something, and does what is to be done at the end of the script. -/
def endTrap : Nat → Shell Unit → Shell Unit
  | 0, _ => throw (.killed 9)
  | fuel + 1, body => do
    let result ← attempt body
    match result with
    | .error (.killed signal) => throw (.killed signal)
    | _ =>
      match Keyed.get? 0 (← get).traps with
      | none => ofResult result
      | some action =>
        let status := (← get).status
        modify fun state => { state with traps := Keyed.erase 0 state.traps }
        runLines false { rest := action } fuel
        setStatus status

/-- Runs the lines of a text. -/
def runLines (tested : Bool) (cursor : Cursor) : Nat → Shell Unit
  | 0 => throw (.killed 9)
  | fuel + 1 => do
    match nextLine cursor with
    | .error (line, what) =>
      modify fun state => { state with line }
      fail ("Syntax error: ".toList ++ what.message)
    | .ok (none, _) => return
    | .ok (some statements, cursor) =>
      let ends := if cursor.rest.isEmpty then 0 else 1 + cursor.taken
      modify fun state => { state with lineBehind := cursor.line + ends }
      if !(← hasOption 'n') then runAll tested fuel statements
      runLines tested cursor fuel

end

end Shell

/-- The fuel of a script. -/
def runningFuel : Nat := 1000000

/-- Runs a program with arguments in a directory, with variables that it can see. -/
def runAlone (files : FileTree) (here : Location) (environment : Text.Entries)
    (body : Nat → Shell Unit) : Ran :=
  let place := ofText (FileTree.pathOf here)
  let bindings : Keyed Text Variable := environment.map fun (name, value) =>
    (ofText name, { value := some (ofText value), isExported := true })
  let start : State := {
    script := []
    files, here
    bindings := bindings.put "PWD".toList { value := some place, isExported := true }
    streams := #[.sink, .collected [], .collected []]
    descriptors := [(0, 0), (1, 1), (2, 2)] }
  let (result, final) := ExceptT.run (body runningFuel) start
  let ending : ProgramEnd :=
    match result with
    | .error (.killed signal) => .killed signal
    | _ => .exited (final.status % 256)
  let kept (number : Nat) : List UInt8 := ((final.streams[number]?).map Stream.kept).getD []
  ⟨ending, kept 1, kept 2, final.files⟩

end SlideDeck.Script
