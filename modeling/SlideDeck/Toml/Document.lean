import SlideDeck.Toml.Value

/-!
# Documents in TOML

A document is a table of values and further tables. Each line gives a key its value,
or begins a table, or an item of an array of tables; no key and no table is given
twice.
-/

set_option autoImplicit false

namespace SlideDeck.Toml

open SlideDeck SlideDeck.Text

/-- How a table came about. -/
inductive Origin where
  /-- By a line that begins it. -/
  | header
  /-- As a table around another one that a line begins. -/
  | around
  /-- By a key with periods. -/
  | dotted
  deriving DecidableEq, Repr

/-- What is under a key. -/
inductive Node where
  | value (value : Value)
  | table (origin : Origin) (nodes : List (Text × Node))
  | tables (items : List (List (Text × Node)))

/-- The nodes of a table. -/
abbrev Nodes := Keyed Text Node

/-- Changes the last item of a list. -/
def changeLast {α : Type} (change : α → Option α) : List α → Option (List α)
  | [] => none
  | [last] => (change last).map fun last => [last]
  | first :: rest => (changeLast change rest).map fun rest => first :: rest

/-- Changes the table that a path of keys leads to, of which `own` tells how it came
about. Tables on the way that are missing are made, and `made` tells how. A key with
periods goes through no table that a line has begun. -/
def change (made : Origin) (action : Origin → Nodes → Option Nodes) :
    List Text → Origin → Nodes → Option Nodes
  | [], own, nodes => action own nodes
  | key :: path, _, nodes =>
    match nodes.get? key with
    | none => (change made action path made []).map fun inner => nodes.put key (.table made inner)
    | some (.value _) => none
    | some (.tables items) =>
      (changeLast (change made action path .header) items).map fun items =>
        nodes.put key (.tables items)
    | some (.table origin inner) =>
      if made == .dotted && origin == .header then none
      else
        (change made action path origin inner).map fun inner =>
          nodes.put key (.table origin inner)

/-- Puts a value under the last part of a key. -/
def putValue (dotted : Bool) (key : Text) (value : Value) (own : Origin) (nodes : Nodes) :
    Option Nodes :=
  if (own == .dotted) != dotted || nodes.hasKey key then none
  else some (nodes.put key (.value value))

/-- Begins a table, which may be there only as a table around another one. -/
def beginTable (key : Text) (nodes : Nodes) : Option Nodes :=
  match nodes.get? key with
  | none => some (nodes.put key (.table .header []))
  | some (.table .around inner) => some (nodes.put key (.table .header inner))
  | some _ => none

/-- Begins the next item of an array of tables. -/
def beginItem (key : Text) (nodes : Nodes) : Option Nodes :=
  match nodes.get? key with
  | none => some (nodes.put key (.tables [[]]))
  | some (.tables items) => some (nodes.put key (.tables (items ++ [[]])))
  | some _ => none

/-- A document that is being read: the whole table, and the path of the table to which
the lines belong. -/
structure Draft where
  nodes : Nodes := []
  path : List Text := []

namespace Draft

/-- Gives a key its value in the current table. -/
def give (draft : Draft) (key : List Text) (value : Value) : Option Draft := do
  let last ← key.getLast?
  let inside : Origin → Nodes → Option Nodes :=
    change .dotted (putValue (key.length != 1) last value) key.dropLast
  let nodes ← change .around inside draft.path .header draft.nodes
  return { draft with nodes }

/-- Begins another table by a change of the table around it. -/
def begin (draft : Draft) (action : Text → Nodes → Option Nodes) (path : List Text) :
    Option Draft := do
  let last ← path.getLast?
  let nodes ← change .around (fun _ => action last) path.dropLast .header draft.nodes
  return ⟨nodes, path⟩

end Draft

/-- Reads the key of a line that begins a table, up to the mark at its end. -/
def readHeader (closing : Text) : Reader (List Text) := fun s => do
  let (path, rest) ← readKey deepest (skipSpaces s)
  return (path, ← skip? closing rest)

/-- Reads one line, up to its end. -/
def readEntry (draft : Draft) : Reader Draft
  | '[' :: '[' :: rest => do
    let (path, rest) ← readHeader "]]".toList rest
    return (← draft.begin beginItem path, rest)
  | '[' :: rest => do
    let (path, rest) ← readHeader "]".toList rest
    return (← draft.begin beginTable path, rest)
  | s => do
    let (key, rest) ← readKeySign s
    let (value, rest) ← readValue deepest rest
    return (← draft.give key value, rest)

/-- Whether a line has nothing but a comment. -/
def isVoid : Text → Bool
  | [] | '#' :: _ | '\n' :: _ | '\r' :: '\n' :: _ => true
  | _ => false

/-- Reads the lines of a document. Each has at least one character. -/
def readLines : Nat → Draft → Text → Option Nodes
  | 0, _, _ => none
  | fuel + 1, draft, s => do
    let start := skipSpaces s
    let (draft, rest) ← if isVoid start then some (draft, start) else readEntry draft start
    match skipComment (skipSpaces rest) with
    | [] => return draft.nodes
    | rest => readLines fuel draft (← skipNewline? rest)

/-- The mark of the encoding that may stand at the front of a file. -/
def encodingMark : Char := Char.ofNat 0xFEFF

/-- Reads a document. -/
def readDocument (s : Text) : Option Nodes :=
  let s := (skip? [encodingMark] s).getD s
  readLines (s.length + 1) {} s

/-- The text under a key of a document. -/
def textAt? (nodes : Nodes) (key : Text) : Option Text :=
  match nodes.get? key with
  | some (.value (.text text)) => some text
  | _ => none

end SlideDeck.Toml
