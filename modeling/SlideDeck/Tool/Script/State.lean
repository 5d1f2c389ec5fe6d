import SlideDeck.Files.Change
import SlideDeck.Tool.Signal
import SlideDeck.Tool.Script.Reader

/-!
# The state of a running script

A running script has files, variables, functions and descriptors, which lead to
streams. A stream is collected, given, or belongs to a file. What runs may leave
before its end; it leaves everything as it is then.
-/

set_option autoImplicit false

namespace SlideDeck.Script

open SlideDeck SlideDeck.Text

/-! ## Streams -/

/-- Where bytes go to or come from. -/
inductive Stream where
  /-- Bytes are kept, the last ones first. -/
  | collected (parts : List (List UInt8))
  /-- Bytes that can be read. -/
  | given (bytes : List UInt8)
  /-- The bytes of a file from an offset on, or always at its end. -/
  | file (place : Location) (offset : Nat) (atEnd : Bool)
  | sink
  deriving DecidableEq, Repr

/-- The bytes that a stream has kept. -/
def Stream.kept : Stream → List UInt8
  | .collected parts => parts.reverse.flatten
  | _ => []

/-- Bytes with others in place of those from an offset on. -/
def overwrite (content : List UInt8) (offset : Nat) (bytes : List UInt8) : List UInt8 :=
  let length := content.length
  if length ≤ offset then content ++ (List.replicate (offset - length) 0 ++ bytes)
  else content.take offset ++ (bytes ++ content.drop (offset + bytes.length))

/-! ## The state -/

/-- A variable. -/
structure Variable where
  value : Option Text := none
  /-- Whether other programs see it. -/
  isExported : Bool := false
  isReadOnly : Bool := false
  deriving DecidableEq, Repr

/-- A way to leave what runs. -/
inductive Leave where
  /-- The script ends. -/
  | exit
  /-- Something was wrong, which ends the script unless a command may fail. -/
  | fault
  /-- So many loops end. -/
  | loops (count : Nat)
  /-- So many loops but one end, and that one goes on with its next turn. -/
  | turn (count : Nat)
  | function
  /-- The program that runs the script is killed. -/
  | killed (signal : Nat)
  deriving DecidableEq, Repr

/-- The state of a script. -/
structure State where
  /-- The name by which the script was started. -/
  script : Text
  arguments : List Text := []
  files : FileTree
  here : Location
  status : Nat := 0
  /-- The line of the current statement. -/
  line : Nat := 1
  /-- The line up to which the script has been read. -/
  lineBehind : Nat := 1
  /-- The command that the script itself serves at the moment. -/
  serving : Text := []
  bindings : Keyed Text Variable := []
  functions : Keyed Text Statement := []
  /-- What is done on a signal; the end of the script counts as signal zero. -/
  traps : Keyed Nat Text := []
  /-- The letters of the options that are on. -/
  options : List Char := []
  streams : Array Stream := #[]
  /-- The stream to which each open descriptor leads. -/
  descriptors : Keyed Nat Nat := []
  /-- How many loops are running. -/
  loops : Nat := 0
  /-- For each function that is running, the variables that it has to put back. -/
  locals : List (List (Text × Option Variable)) := []
  /-- The status of the last statements whose output was put into a word. -/
  outputStatus : Option Nat := none
  /-- The place in the options that are being read one by one. -/
  optionOffset : Nat := 0
  /-- The status of what ran in the background last. -/
  backgroundStatus : Option Nat := none

/-- Something that runs in a script. -/
abbrev Shell := ExceptT Leave (StateM State)

namespace Shell

/-- Whether an option is on. -/
def hasOption (letter : Char) : Shell Bool := do return (← get).options.contains letter

/-- Sets the status. -/
def setStatus (status : Nat) : Shell Unit := modify fun state => { state with status }

/-! ## Streams -/

/-- The stream to which a descriptor leads, and its number. -/
def stream? (descriptor : Nat) : Shell (Option (Nat × Stream)) := do
  let state ← get
  return do
    let number ← Keyed.get? descriptor state.descriptors
    return (number, ← state.streams[number]?)

/-- Opens a stream. -/
def openStream (stream : Stream) : Shell Nat := do
  let number := (← get).streams.size
  modify fun state => { state with streams := state.streams.push stream }
  return number

/-- Lets a descriptor lead to a stream. -/
def connect (descriptor number : Nat) : Shell Unit :=
  modify fun state => { state with descriptors := Keyed.put descriptor number state.descriptors }

/-- Writes bytes to a descriptor. Says whether they could be written. -/
def write (descriptor : Nat) (bytes : List UInt8) : Shell Bool := do
  match ← stream? descriptor with
  | some (number, .collected parts) =>
    modify fun state =>
      { state with streams := state.streams.setIfInBounds number (.collected (bytes :: parts)) }
    return true
  | some (number, .file place offset atEnd) =>
    match (← get).files.entryAt place with
    | some (.file content executable) =>
      let content := if atEnd then content ++ bytes else overwrite content offset bytes
      modify fun state => { state with
        files := state.files.insert place (.file content executable)
        streams := state.streams.setIfInBounds number
          (.file place (offset + bytes.length) atEnd) }
    | _ => pure ()
    return true
  | some (_, .sink) => return true
  | _ => return false

/-- The bytes that can be read from a descriptor. -/
def readable (descriptor : Nat) : Shell (Option (List UInt8)) := do
  match ← stream? descriptor with
  | some (_, .given bytes) => return some bytes
  | some (_, .file place offset _) =>
    match (← get).files.entryAt place with
    | some (.file content _) => return some (content.drop offset)
    | some .directory => return none
    | _ => return some []
  | some (_, .sink) => return some []
  | some (_, .collected _) => return some []
  | none => return none

/-- Goes behind bytes that have been read from a descriptor. -/
def consume (descriptor count : Nat) : Shell Unit := do
  let put (number : Nat) (stream : Stream) : Shell Unit :=
    modify fun state => { state with streams := state.streams.setIfInBounds number stream }
  match ← stream? descriptor with
  | some (number, .given bytes) => put number (.given (bytes.drop count))
  | some (number, .file place offset atEnd) => put number (.file place (offset + count) atEnd)
  | _ => pure ()

/-- Prints a text. -/
def print (s : Text) : Shell Unit := do
  if !(← write 1 (toBytes s)) then setStatus 1

/-- Prints a text as an error. -/
def printError (s : Text) : Shell Unit := do let _ ← write 2 (toBytes s)

/-- Tells about something that is wrong. -/
def warn (what : Text) : Shell Unit := do
  let state ← get
  let serving := if state.serving.isEmpty then [] else state.serving ++ ": ".toList
  printError (state.script ++ ": ".toList ++ ofNat state.line ++ ": ".toList ++ serving ++ what ++
    ['\n'])

/-- Tells about something that is wrong, and leaves. -/
def fail {α : Type} (what : Text) : Shell α := do
  warn what
  setStatus 2
  throw .fault

/-! ## Variables -/

/-- The value of a variable. -/
def binding? (name : Text) : Shell (Option Text) := do
  return (Keyed.get? name (← get).bindings).bind Variable.value

/-- Changes a variable. -/
def changeVariable (name : Text) (change : Variable → Variable) : Shell Unit := do
  let old := (Keyed.get? name (← get).bindings).getD {}
  modify fun state => { state with bindings := Keyed.put name (change old) state.bindings }

/-- Removes a variable. -/
def removeVariable (name : Text) : Shell Unit :=
  modify fun state => { state with bindings := Keyed.erase name state.bindings }

/-- Gives a variable a value. -/
def assign (name value : Text) : Shell Unit := do
  if ((Keyed.get? name (← get).bindings).map Variable.isReadOnly).getD false then
    fail (name ++ ": is read only".toList)
  let exports ← hasOption 'a'
  changeVariable name fun old =>
    { old with value := some value, isExported := old.isExported || exports }

/-- The characters at which values are cut. -/
def separators : Shell Text := do return (← binding? "IFS".toList).getD " \t\n".toList

/-- The number of the process, which says nothing. -/
def processNumber : Text := "4242".toList

/-- The number of a process in the background. -/
def backgroundNumber : Text := "4243".toList

/-- The value of a variable, an argument, or one of the other parameters. -/
def parameter? (name : Text) : Shell (Option Text) := do
  let state ← get
  if name == ['#'] then return some (ofNat state.arguments.length)
  else if name == ['?'] then return some (ofNat state.status)
  else if name == ['-'] then return some state.options
  else if name == ['$'] then return some processNumber
  else if name == ['!'] then
    return some (if state.backgroundStatus.isSome then backgroundNumber else [])
  else
    match digits? name with
    | some 0 => return some state.script
    | some (number + 1) => return state.arguments[number]?
    | none => binding? name

/-! ## Parts of a script with a state of their own -/

/-- Runs something, and says how it was left if not at its end. -/
def attempt {α : Type} (body : Shell α) : Shell (Except Leave α) := ExceptT.lift body.run

/-- Goes on with a result, or leaves. -/
def ofResult {α : Type} : Except Leave α → Shell α
  | .ok value => return value
  | .error leave => throw leave

/-- Runs something whose changes are seen outside only in the files and the streams. -/
def apart {α : Type} (body : Shell α) : Shell (Except Leave α) := do
  let before ← get
  modify fun state => { state with traps := [], loops := 0 }
  let result ← attempt body
  let after ← get
  set { before with files := after.files, streams := after.streams, status := after.status }
  return result

/-- Runs something with descriptors that are put back behind it. -/
def withDescriptors {α : Type} (body : Shell α) : Shell α := do
  let before := (← get).descriptors
  let result ← attempt body
  modify fun state => { state with descriptors := before }
  ofResult result

end Shell

end SlideDeck.Script
