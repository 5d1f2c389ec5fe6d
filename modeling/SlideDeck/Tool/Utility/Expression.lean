import SlideDeck.Text.Number
import SlideDeck.Tool.Script.Pattern

/-!
# Regular expressions

An expression describes texts: characters and sets of them, one expression behind the
other or in place of the other, repetitions, and parts that are the same as an earlier
part. There are two ways to write the same expressions, which differ in the signs that
need a backslash to have a meaning.

Of all parts of a line that an expression describes, the first one counts, and of those
that begin there the longest one.
-/

set_option autoImplicit false

namespace SlideDeck.Utility

open SlideDeck SlideDeck.Text SlideDeck.Script

/-- A regular expression. -/
inductive Expression where
  | nothing
  | one (atom : Atom)
  | lineStart
  | lineEnd
  /-- A word begins or ends here as `begins` and `ends` allow. -/
  | wordEdge (begins ends : Bool)
  | both (first second : Expression)
  | either (first second : Expression)
  /-- What the body describes is kept under a number. -/
  | group (number : Nat) (body : Expression)
  /-- What is kept under a number. -/
  | same (number : Nat)
  /-- The body so often. -/
  | times (least : Nat) (most : Option Nat) (body : Expression)
  deriving Repr

namespace Expression

/-! ## Reading -/

/-- A sign of a written expression. -/
inductive Sign where
  | openGroup
  | closeGroup
  | bar
  | repeated (least : Nat) (most : Option Nat)
  | item (expression : Expression)
  deriving Repr

/-- What an interval says, which is written behind its opening brace, and the text behind
it. -/
def intervalAt (extended : Bool) (s : Text) : Option (Sign × Text) :=
  let least := s.takeWhile Char.isDigit
  let rest := s.drop least.length
  let close (most : Option Nat) (rest : Text) : Option (Sign × Text) :=
    let sign := if extended then "\x7d".toList else "\\\x7d".toList
    (skip? sign rest).map fun behind => (.repeated ((digits? least).getD 0) most, behind)
  match rest with
  | ',' :: rest =>
    let most := rest.takeWhile Char.isDigit
    close (digits? most) (rest.drop most.length)
  | _ => close (digits? least) rest

/-- The classes that a letter behind a backslash names. -/
def classOf? (letter : Char) : Option Expression :=
  let word := [('0', '9'), ('A', 'Z'), ('_', '_'), ('a', 'z')]
  let blank := [(' ', ' '), ('\t', '\r')]
  match letter with
  | 'w' => some (.one (.oneOf true word))
  | 'W' => some (.one (.oneOf false word))
  | 's' => some (.one (.oneOf true blank))
  | 'S' => some (.one (.oneOf false blank))
  | 'b' => some (.wordEdge true true)
  | '<' => some (.wordEdge true false)
  | '>' => some (.wordEdge false true)
  | 'n' => some (.one (.exactly '\n'))
  | 't' => some (.one (.exactly '\t'))
  | _ => none

/-- The sign that a letter has with a meaning. -/
def signOf? (letter : Char) : Option Sign :=
  match letter with
  | '(' => some .openGroup
  | ')' => some .closeGroup
  | '|' => some .bar
  | '+' => some (.repeated 1 none)
  | '?' => some (.repeated 0 (some 1))
  | _ => none

/-- Whether the end of a line can be meant before the text. -/
def isAtEnd (extended : Bool) (s : Text) : Bool :=
  extended || s.isEmpty || startsWith "\\)".toList s || startsWith "\\|".toList s

/-- The signs of a written expression. `isFront` says whether a part begins here. -/
def signsFrom (extended : Bool) : Nat → Bool → Text → List Sign
  | 0, _, _ => []
  | _ + 1, _, [] => []
  | fuel + 1, isFront, c :: rest =>
    let goOn (sign : Sign) (rest : Text) : List Sign :=
      let isFront :=
        match sign with
        | .openGroup | .bar => true
        | _ => false
      sign :: signsFrom extended fuel isFront rest
    let exactly (c : Char) (rest : Text) : List Sign := goOn (.item (.one (.exactly c))) rest
    match c, rest with
    | '\\', d :: rest =>
      if d == '\x7b' && !extended then
        match intervalAt extended rest with
        | some (sign, behind) => goOn sign behind
        | none => exactly d rest
      else
        match if extended then none else signOf? d with
        | some sign => goOn sign rest
        | none =>
          match digits? [d] with
          | some number => goOn (.item (.same number)) rest
          | none =>
            match classOf? d with
            | some expression => goOn (.item expression) rest
            | none => exactly d rest
    | '.', _ => goOn (.item (.one .anyChar)) rest
    | '[', _ =>
      match bracket? (marks false rest) with
      | some (atom, behind) => goOn (.item (.one atom)) (textOf behind)
      | none => exactly c rest
    | '*', _ => if isFront then exactly c rest else goOn (.repeated 0 none) rest
    | '^', _ =>
      if extended || isFront then .item .lineStart :: signsFrom extended fuel true rest
      else exactly c rest
    | '$', _ => if isAtEnd extended rest then goOn (.item .lineEnd) rest else exactly c rest
    | '\x7b', _ =>
      match if extended then intervalAt extended rest else none with
      | some (sign, behind) => goOn sign behind
      | none => exactly c rest
    | _, _ =>
      match if extended then signOf? c else none with
      | some sign => goOn sign rest
      | none => exactly c rest

/-- An expression with the repetitions that stand behind it, and the signs behind those. -/
def repeatedFrom (body : Expression) : List Sign → Expression × List Sign
  | .repeated least most :: signs => repeatedFrom (.times least most body) signs
  | signs => (body, signs)

/-- What has been read: an expression, the signs behind it, and how many groups there are. -/
abbrev Read := Expression × List Sign × Nat

/-- Reads a part up to the end of its group. It is made of `front` and what is read, and of
the parts in `others`. -/
def partFrom (others : Option Expression) (front : Expression) : Nat → List Sign → Nat → Read
  | 0, signs, count => (front, signs, count)
  | fuel + 1, signs, count =>
    let whole : Expression :=
      match others with
      | some others => .either others front
      | none => front
    match signs with
    | [] => (whole, [], count)
    | .closeGroup :: rest => (whole, rest, count)
    | .bar :: rest => partFrom (some whole) .nothing fuel rest count
    | .repeated _ _ :: rest => partFrom others front fuel rest count
    | .item item :: rest =>
      let (item, rest) := repeatedFrom item rest
      partFrom others (.both front item) fuel rest count
    | .openGroup :: rest =>
      let (body, rest, inner) := partFrom none .nothing fuel rest (count + 1)
      let (item, rest) := repeatedFrom (.group (count + 1) body) rest
      partFrom others (.both front item) fuel rest inner

/-- Reads an expression. -/
def read (extended : Bool) (s : Text) : Expression :=
  let signs := signsFrom extended (s.length + 1) true s
  (partFrom none .nothing (signs.length + 1) signs 0).1

/-- The expression that is a text. -/
def ofPlain (s : Text) : Expression :=
  s.foldl (fun expression c => .both expression (.one (.exactly c))) .nothing

/-- The expression that describes whole lines only. -/
def ofLine (expression : Expression) : Expression :=
  .both .lineStart (.both (.group 0 expression) .lineEnd)

/-! ## Finding -/

/-- A place in a line: the character before it, the text behind it, and what is kept. -/
structure Spot where
  before : Option Char
  rest : Text
  groups : List (Nat × Text) := []
  deriving Repr

/-- Whether an atom matches a character. -/
def matchesChar (ignoringCase : Bool) (atom : Atom) (c : Char) : Bool :=
  atom.matchesChar c ||
    (ignoringCase && (atom.matchesChar c.toLower || atom.matchesChar c.toUpper))

/-- The place behind a text that is part of the line. -/
def Spot.behind (spot : Spot) (s : Text) : Spot :=
  { spot with before := s.getLast?.or spot.before, rest := spot.rest.drop s.length }

/-- Whether there is a character of a word. -/
def isWord (c : Option Char) : Bool := c.any isNameChar

/-- The places behind repetitions of a step, at most so many. Repetitions that are not
needed have to get on. -/
def repeating (step : Spot → List Spot) : Nat → Nat → Option Nat → Spot → List Spot
  | 0, least, _, spot => if least = 0 then [spot] else []
  | fuel + 1, least, most, spot =>
    let more :=
      if most == some 0 then []
      else
        ((step spot).filter fun next => decide (0 < least) ||
          decide (next.rest.length < spot.rest.length)).flatMap
          (repeating step fuel (least - 1) (most.map fun most => most - 1))
    if least = 0 then more ++ [spot] else more

/-- The places behind what an expression describes, the preferred ones first. -/
def places (ignoringCase : Bool) : Expression → Spot → List Spot
  | .nothing, spot => [spot]
  | .one atom, spot =>
    match spot.rest with
    | [] => []
    | c :: rest =>
      if matchesChar ignoringCase atom c then [{ spot with before := some c, rest }] else []
  | .lineStart, spot => if spot.before.isNone then [spot] else []
  | .lineEnd, spot => if spot.rest.isEmpty then [spot] else []
  | .wordEdge begins ends, spot =>
    let isIn := isWord spot.before
    let goesOn := isWord spot.rest.head?
    if (begins && !isIn && goesOn) || (ends && isIn && !goesOn) then [spot] else []
  | .both first second, spot =>
    (places ignoringCase first spot).flatMap (places ignoringCase second)
  | .either first second, spot =>
    places ignoringCase first spot ++ places ignoringCase second spot
  | .group number body, spot =>
    (places ignoringCase body spot).map fun next =>
      let kept := spot.rest.take (spot.rest.length - next.rest.length)
      { next with groups := (number, kept) :: next.groups }
  | .same number, spot =>
    let kept := (spot.groups.lookup number).getD []
    if startsWith kept spot.rest then [spot.behind kept] else []
  | .times least most body, spot =>
    repeating (places ignoringCase body) (spot.rest.length + least + 1) least most spot

/-- What has been found in a line. -/
structure Found where
  before : Text := []
  text : Text
  behind : Text
  groups : List (Nat × Text) := []
  deriving Repr

/-- The longest of some texts at the front of a place that end at others. -/
def longest (spot : Spot) (ends : List Spot) : Option Found :=
  (ends.foldl (fun (best : Option Spot) next =>
    match best with
    | some old => if next.rest.length < old.rest.length then some next else best
    | none => some next) none).map fun next =>
      { text := spot.rest.take (spot.rest.length - next.rest.length)
        behind := next.rest
        groups := next.groups }

/-- The first part of a text that an expression describes, behind a character. -/
def findFrom (expression : Expression) (ignoringCase : Bool) (before : Option Char) :
    Text → Option Found
  | [] => longest ⟨before, [], []⟩ (expression.places ignoringCase ⟨before, [], []⟩)
  | c :: rest =>
    let spot : Spot := ⟨before, c :: rest, []⟩
    match longest spot (expression.places ignoringCase spot) with
    | some found => some found
    | none =>
      (findFrom expression ignoringCase (some c) rest).map fun found =>
        { found with before := c :: found.before }

/-- The first part of a line that an expression describes. -/
def find? (expression : Expression) (ignoringCase : Bool) (line : Text) : Option Found :=
  findFrom expression ignoringCase none line

end Expression

end SlideDeck.Utility
