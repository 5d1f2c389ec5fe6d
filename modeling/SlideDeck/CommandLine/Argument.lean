import SlideDeck.Text.Number
import SlideDeck.Text.Search

/-!
# Arguments

The arguments of a command are options and operands. An option is written
`--name value`, `--name=value` or, if it has a letter, `-n value`, `-nvalue` or
`-n=value`; a flag has no value. Behind `--` everything is an operand. A level of
commands has further commands in place of operands.

Reading goes from left to right and stops at the first argument that does not fit,
or that asks for information about the program.
-/

set_option autoImplicit false

namespace SlideDeck.CommandLine

open SlideDeck SlideDeck.Text

/-! ## What a command takes -/

/-- What a value has to be. -/
inductive ValueKind where
  | text
  /-- A text that is not empty. -/
  | path
  /-- A whole number below the bound. -/
  | number (bound : Nat)
  deriving DecidableEq, Repr

/-- Whether an option has a value, and whether it may be given again. -/
inductive OptionKind where
  | flag
  | single (kind : ValueKind)
  /-- Each value is a list, with commas between its items. -/
  | list
  deriving DecidableEq, Repr

/-- An option. -/
structure OptionSpec where
  name : Text
  letter : Option Char := none
  kind : OptionKind
  about : Text := []
  /-- The value that counts where none is given. -/
  standard : Option Text := none
  /-- Whether the option has to be given. -/
  wanted : Bool := false
  deriving DecidableEq, Repr

/-- An operand, which has to be given. -/
structure OperandSpec where
  name : Text
  kind : ValueKind
  about : Text := []
  deriving DecidableEq, Repr

/-- What a level of commands takes. -/
structure Level where
  /-- The words that lead to the level. -/
  path : List Text
  about : Text
  options : List OptionSpec
  operands : List OperandSpec := []
  /-- Its commands, and what each is about. -/
  commands : List (Text × Text) := []
  deriving DecidableEq, Repr

/-! ## What was given -/

/-- The options and operands that were given. -/
structure Given where
  /-- The names of the options with their values; a flag has the empty one. -/
  options : List (Text × Text) := []
  operands : List Text := []
  deriving DecidableEq, Repr

/-- Why reading stopped. -/
inductive Stop where
  | misuse
  /-- The arguments ask about a level. -/
  | help (path : List Text)
  /-- The arguments ask for the version of the program. -/
  | version
  deriving DecidableEq, Repr

/-- The number that a value is, if it is one. A minus is allowed only before zero, and
only where the bound leaves room for a sign. -/
def numberOf? (bound : Nat) (value : Text) : Option Nat :=
  match value with
  | '-' :: digits => if bound < bound64 then (digits? digits).filter (· == 0) else none
  | _ => boundedNat? bound value

/-- Whether a value is of a kind. -/
def ValueKind.accepts : ValueKind → Text → Bool
  | .text, _ => true
  | .path, value => !value.isEmpty
  | .number bound, value => (numberOf? bound value).isSome

/-- Whether an argument is written like an option. -/
def isOptionLike : Text → Bool
  | '-' :: _ :: _ => true
  | _ => false

namespace Given

/-- The values that were given to an option. -/
def values (given : Given) (name : Text) : List Text :=
  (given.options.filter fun option => option.1 == name).map Prod.snd

/-- The value of an option. -/
def value? (given : Given) (name : String) : Option Text := (given.values name.toList).head?

/-- Whether a flag was given. -/
def has (given : Given) (name : String) : Bool := (given.value? name).isSome

/-- The number that was given to an option. -/
def number? (given : Given) (name : String) (bound : Nat) : Option Nat :=
  (given.value? name).bind (numberOf? bound)

/-- The items of the lists that were given to an option. -/
def items (given : Given) (name : String) : List Text :=
  (given.values name.toList).flatMap (splitAt ',')

/-- Takes an option with a value. Only a list may be given again. -/
def addOption (given : Given) (spec : OptionSpec) (value : Text) : Except Stop Given :=
  let fits :=
    match spec.kind with
    | .flag => (given.values spec.name).isEmpty
    | .single kind => (given.values spec.name).isEmpty && kind.accepts value
    | .list => true
  if fits then .ok { given with options := given.options ++ [(spec.name, value)] }
  else .error .misuse

/-- Takes an operand, if another one is wanted. -/
def addOperand (given : Given) (level : Level) (value : Text) : Except Stop Given :=
  match level.operands[given.operands.length]? with
  | some operand =>
    if operand.kind.accepts value then .ok { given with operands := given.operands ++ [value] }
    else .error .misuse
  | none => .error .misuse

end Given

/-! ## Reading -/

/-- What an argument that names no option of a level asks for, by its long name or its
letter. -/
def Level.stopAt (level : Level) (name : Text) : Stop :=
  if name == "help".toList || name == ['h'] then .help level.path
  else if level.path.isEmpty && (name == "version".toList || name == ['V']) then .version
  else .misuse

/-- The option that an argument names, and the value that it brings along. -/
def Level.optionOf (level : Level) (argument : Text) : Except Stop (OptionSpec × Option Text) :=
  match argument with
  | '-' :: '-' :: body =>
    let (name, value) :=
      match splitOnce '=' body with
      | some (name, value) => (name, some value)
      | none => (body, none)
    match level.options.find? fun spec => spec.name == name with
    | some spec => .ok (spec, value)
    | none => .error (if body.length == 1 then .misuse else level.stopAt body)
  | '-' :: letter :: body =>
    match level.options.find? fun spec => spec.letter == some letter with
    | some spec =>
      .ok (spec,
        match body with
        | [] => none
        | '=' :: value => some value
        | value => some value)
    | none => .error (level.stopAt [letter])
  | _ => .error .misuse

/-- Reads the arguments of a level. The second result is what follows from the word
in place of an operand on, if the level has commands. -/
def Level.read (level : Level) (given : Given) (trailing : Bool) :
    List Text → Except Stop (Given × List Text)
  | [] => .ok (given, [])
  | argument :: rest =>
    if trailing || !isOptionLike argument then
      if !trailing && !level.commands.isEmpty then .ok (given, argument :: rest)
      else do Level.read level (← given.addOperand level argument) trailing rest
    else if argument == "--".toList then Level.read level given true rest
    else do
      let (spec, brought) ← level.optionOf argument
      match spec.kind, brought with
      | .flag, none => Level.read level (← given.addOption spec []) trailing rest
      | .flag, some _ => .error .misuse
      | _, some value => Level.read level (← given.addOption spec value) trailing rest
      | _, none =>
        match rest with
        | [] => .error .misuse
        | value :: rest =>
          if isOptionLike value then .error .misuse
          else do Level.read level (← given.addOption spec value) trailing rest

/-- Reads all arguments of a command, with all of its operands and the options that
it wants. -/
def Level.readAll (level : Level) (arguments : List Text) : Except Stop Given := do
  let (given, _) ← level.read {} false arguments
  let complete := level.options.all fun spec =>
    !spec.wanted || !(given.values spec.name).isEmpty
  if complete && given.operands.length == level.operands.length then return given
  else throw .misuse

/-- Reads the arguments of a level of commands: the options in front of the command,
its name, and its arguments. In place of a command there may be a question about
one. -/
def Level.readCommand (level : Level) (arguments : List Text) :
    Except Stop (Given × Option (Text × List Text)) := do
  let (given, rest) ← level.read {} false arguments
  match rest with
  | [] => return (given, none)
  | name :: rest =>
    if (level.commands.map Prod.fst).contains name then return (given, some (name, rest))
    else if name == "help".toList then throw (.help (level.path ++ rest))
    else throw .misuse

end SlideDeck.CommandLine
