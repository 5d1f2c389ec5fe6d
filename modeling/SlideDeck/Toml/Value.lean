import SlideDeck.Keyed
import SlideDeck.Toml.Scalar

/-!
# Values in TOML

A value is a text, a scalar, an array or an inline table. Arrays may go over several
lines and hold comments; inline tables may not.
-/

set_option autoImplicit false

namespace SlideDeck.Toml

open SlideDeck SlideDeck.Text

/-- A value. Of numbers, truth values and times only the text matters here. -/
inductive Value where
  | text (text : Text)
  | scalar (text : Text)
  | array (items : List Value)
  | table (fields : List (Text × Value))
  deriving Repr

/-! ## Blanks, comments and keys -/

/-- The text behind spaces and tabs. -/
def skipSpaces (s : Text) : Text := s.dropWhile isSpace

/-- The text behind a comment, if there is one, up to the end of the line. -/
def skipComment (s : Text) : Text :=
  match s with
  | '#' :: rest => rest.dropWhile isInline
  | _ => s

/-- The text behind blanks, comments and line ends. -/
def skipLines : Nat → Text → Text
  | 0, s => s
  | fuel + 1, s =>
    match skipNewline? (skipComment (skipSpaces s)) with
    | some rest => skipLines fuel rest
    | none => skipSpaces s

/-- The characters of keys without quotes. -/
def isKeyChar (c : Char) : Bool := c.isAlphanum || c == '_' || c == '-'

/-- Reads one part of a key. -/
def readKeyPart : Reader Text := fun s =>
  match s.takeWhile isKeyChar with
  | [] => readLine s
  | key => some (key, s.dropWhile isKeyChar)

/-- Reads a key: parts with periods between them. -/
def readKey : Nat → Reader (List Text)
  | 0, _ => none
  | fuel + 1, s => do
    let (part, rest) ← readKeyPart s
    match skipSpaces rest with
    | '.' :: rest => do
      let (more, rest) ← readKey fuel (skipSpaces rest)
      return (part :: more, rest)
    | rest => return ([part], rest)

/-- The number of levels that keys and values may have. -/
def deepest : Nat := 79

/-- Reads a key and the sign behind it. -/
def readKeySign : Reader (List Text) := fun s => do
  let (key, rest) ← readKey deepest s
  return (key, skipSpaces (← skip? ['='] rest))

/-! ## Inline tables -/

/-- A field of an inline table that is being read. A field that only keys with
periods have made is open for further such keys. -/
inductive Field where
  | closed (value : Value)
  | opened (fields : List (Text × Field))

mutual

/-- The value of a field. -/
def Field.value : Field → Value
  | .closed value => value
  | .opened fields => .table (Field.values fields)

/-- The values of fields. -/
def Field.values : List (Text × Field) → List (Text × Value)
  | [] => []
  | (name, field) :: fields => (name, field.value) :: Field.values fields

end

/-- Puts a value under a key that no field has. -/
def putField (value : Value) : List Text → Keyed Text Field → Option (Keyed Text Field)
  | [], _ => none
  | [name], fields =>
    if fields.hasKey name then none else some (fields.put name (.closed value))
  | name :: path, fields =>
    match fields.get? name with
    | none => (putField value path []).map fun inner => fields.put name (.opened inner)
    | some (.opened inner) =>
      (putField value path inner).map fun inner => fields.put name (.opened inner)
    | some (.closed _) => none

/-- Reads the fields of an inline table, behind those that were read. -/
def readFields (value : Reader Value) : Nat → Keyed Text Field → Reader Value
  | 0, _, _ => none
  | fuel + 1, fields, s => do
    let (key, rest) ← readKeySign s
    let (found, rest) ← value rest
    let fields ← putField found key fields
    match skipSpaces rest with
    | ',' :: rest => readFields value fuel fields (skipSpaces rest)
    | '\x7d' :: rest => return (.table (Field.values fields), rest)
    | _ => none

/-- Reads an inline table behind its first brace. -/
def readTable (value : Reader Value) : Reader Value := fun s =>
  match skipSpaces s with
  | '\x7d' :: rest => some (.table [], rest)
  | rest => readFields value (rest.length + 1) [] rest

/-! ## Arrays and values -/

/-- Reads the items of an array, behind those that were read. -/
def readItems (value : Reader Value) : Nat → List Value → Reader Value
  | 0, _, _ => none
  | fuel + 1, found, s =>
    match skipLines s.length s with
    | ']' :: rest => some (.array found, rest)
    | rest => do
      let (item, rest) ← value rest
      match skipLines rest.length rest with
      | ',' :: rest => readItems value fuel (found ++ [item]) rest
      | ']' :: rest => return (.array (found ++ [item]), rest)
      | _ => none

/-- Reads an array behind its first bracket. -/
def readArray (value : Reader Value) : Reader Value := fun s =>
  readItems value (s.length + 1) [] s

/-- Reads a value with at most `depth` levels of arrays and tables. -/
def readValue : Nat → Reader Value
  | depth, s =>
    match s with
    | [] => none
    | c :: rest =>
      if c = doubleMark || c = singleMark then
        (readText s).map fun (text, rest) => (.text text, rest)
      else
        match depth with
        | 0 => (readScalar s).map fun (text, rest) => (.scalar text, rest)
        | depth + 1 =>
          if c = '[' then readArray (readValue depth) rest
          else if c = '\x7b' then readTable (readValue depth) rest
          else (readScalar s).map fun (text, rest) => (.scalar text, rest)

end SlideDeck.Toml
