import SlideDeck.Text.Number
import SlideDeck.Text.Search
import SlideDeck.Tool.Script.Bytes

/-!
# Patterns

A pattern matches texts: a star matches any part of a text, a question mark any
character, and a bracket any of the characters that it lists. Characters that stood
in quotes match themselves only.
-/

set_option autoImplicit false

namespace SlideDeck.Script

open SlideDeck SlideDeck.Text

/-- A character of a field, and whether it stood in quotes. -/
abbrev Mark := Char × Bool

/-- The characters of a text, all quoted or none. -/
def marks (quoted : Bool) (s : Text) : List Mark := s.map fun c => (c, quoted)

/-- The text of a field. -/
def textOf (field : List Mark) : Text := field.map Prod.fst

/-- A part of a pattern. -/
inductive Atom where
  /-- Any part of a text. -/
  | anything
  /-- Any character. -/
  | anyChar
  | exactly (c : Char)
  /-- A character that is in one of the ranges, or in none of them. -/
  | oneOf (isIn : Bool) (ranges : List (Char × Char))
  deriving DecidableEq, Repr

/-- The ranges of the classes of characters that a bracket can name. -/
def classRanges : List (String × List (Char × Char)) :=
  [("alnum", [('0', '9'), ('A', 'Z'), ('a', 'z')]), ("alpha", [('A', 'Z'), ('a', 'z')]),
    ("blank", [(' ', ' '), ('\t', '\t')]), ("cntrl", [('\x00', '\x1f'), ('\x7f', '\x7f')]),
    ("digit", [('0', '9')]), ("graph", [('!', '~')]), ("lower", [('a', 'z')]),
    ("print", [(' ', '~')]),
    ("punct", [('!', '/'), (':', '@'), ('[', '\x60'), ('\x7b', '~')]),
    ("space", [(' ', ' '), ('\t', '\r')]), ("upper", [('A', 'Z')]),
    ("xdigit", [('0', '9'), ('A', 'F'), ('a', 'f')])]

/-- The class at the front of a field, and the field behind it. -/
def class? (field : List Mark) : Option (List (Char × Char) × List Mark) :=
  classRanges.findSome? fun (name, ranges) =>
    let named := "[:".toList ++ name.toList ++ ":]".toList
    if startsWith named (textOf field) then some (ranges, field.drop named.length) else none

/-- What a bracket lists up to its end, and the field behind it. The first character is
never the end. -/
def bracketFrom : Nat → Bool → List Mark → Option (List (Char × Char) × List Mark)
  | 0, _, _ => none
  | fuel + 1, isFirst, field =>
    match class? field with
    | some (ranges, rest) => do
      let (more, rest) ← bracketFrom fuel false rest
      return (ranges ++ more, rest)
    | none =>
      match field with
      | [] => none
      | (']', false) :: rest =>
        if isFirst then do
          let (more, rest) ← bracketFrom fuel false rest
          return ((']', ']') :: more, rest)
        else some ([], rest)
      | (low, _) :: ('-', false) :: (high, quoted) :: rest =>
        if high == ']' && !quoted then do
          let (more, rest) ← bracketFrom fuel false ((high, quoted) :: rest)
          return ((low, low) :: ('-', '-') :: more, rest)
        else do
          let (more, rest) ← bracketFrom fuel false rest
          return ((low, high) :: more, rest)
      | (c, _) :: rest => do
        let (more, rest) ← bracketFrom fuel false rest
        return ((c, c) :: more, rest)

/-- The bracket behind its first sign, and the field behind it. -/
def bracket? (field : List Mark) : Option (Atom × List Mark) :=
  let (isIn, listed) :=
    match field with
    | ('!', false) :: rest => (false, rest)
    | ('^', false) :: rest => (false, rest)
    | _ => (true, field)
  (bracketFrom (field.length + 1) true listed).map fun (ranges, rest) =>
    (.oneOf isIn ranges, rest)

/-- The parts of a pattern. -/
def atomsFrom : Nat → List Mark → List Atom
  | 0, _ => []
  | _ + 1, [] => []
  | fuel + 1, ('*', false) :: rest => .anything :: atomsFrom fuel rest
  | fuel + 1, ('?', false) :: rest => .anyChar :: atomsFrom fuel rest
  | fuel + 1, ('[', false) :: rest =>
    match bracket? rest with
    | some (atom, behind) => atom :: atomsFrom fuel behind
    | none => .exactly '[' :: atomsFrom fuel rest
  | fuel + 1, (c, _) :: rest => .exactly c :: atomsFrom fuel rest

/-- The parts of a pattern, each of which takes at least one character. -/
def atomsOf (pattern : List Mark) : List Atom := atomsFrom (pattern.length + 1) pattern

/-- Whether the property holds of some end of a text. -/
def someSuffix (holds : Text → Bool) : Text → Bool
  | [] => holds []
  | c :: rest => holds (c :: rest) || someSuffix holds rest

/-- Whether the atom matches a character. -/
def Atom.matchesChar (c : Char) : Atom → Bool
  | .anything | .anyChar => true
  | .exactly other => c == other
  | .oneOf isIn ranges => ranges.any (fun (low, high) => low ≤ c && c ≤ high) == isIn

/-- Whether the parts of a pattern match a text. -/
def matchesAtoms : List Atom → Text → Bool
  | [], s => s.isEmpty
  | .anything :: atoms, s => someSuffix (matchesAtoms atoms) s
  | atom :: atoms, s =>
    match s with
    | [] => false
    | c :: rest => atom.matchesChar c && matchesAtoms atoms rest

/-- Whether a pattern matches a text. -/
def matchesPattern (pattern : List Mark) (s : Text) : Bool := matchesAtoms (atomsOf pattern) s

/-- Whether a field is a pattern of more than its own text. -/
def isPattern (field : List Mark) : Bool :=
  (atomsOf field).any fun atom =>
    match atom with
    | .exactly _ => false
    | _ => true

/-- The text without its shortest or its longest part at the front, or at the end, that
matches a pattern. -/
def dropMatch (atEnd longest : Bool) (pattern : List Mark) (s : Text) : Text :=
  let lengths := List.range (s.length + 1)
  let parts := lengths.map fun length =>
    if atEnd then (s.drop (s.length - length), s.take (s.length - length))
    else (s.take length, s.drop length)
  let atoms := atomsOf pattern
  match (if longest then parts.reverse else parts).find? fun part => matchesAtoms atoms part.1 with
  | some (_, rest) => rest
  | none => s

end SlideDeck.Script
