import SlideDeck.Tool.Utility.Expression
import SlideDeck.Tool.Utility.LineUtility

/-!
# Searching lines

The program that shows the lines in which an expression is found.
-/

set_option autoImplicit false

namespace SlideDeck.Utility

open SlideDeck SlideDeck.Text SlideDeck.Script

/-- What is searched for, and how what is found is shown. -/
structure Query where
  expressions : List Expression
  letters : List Char
  /-- Whether the name of the file is shown. -/
  named : Bool

namespace Query

/-- Whether there is an option of a letter. -/
def has (query : Query) (letter : Char) : Bool := query.letters.contains letter

/-- Whether a line is one of those that are wanted. -/
def holds (query : Query) (line : Text) : Bool :=
  (query.expressions.any fun expression => (expression.find? (query.has 'i') line).isSome) !=
    query.has 'v'

/-- The parts of a line that are found, at most so many. -/
def parts (query : Query) : Nat → Text → List Text
  | 0, _ => []
  | limit + 1, line =>
    match query.expressions.findSome? fun expression => expression.find? (query.has 'i') line with
    | none => []
    | some found =>
      if found.text.isEmpty then parts query limit (found.behind.drop 1)
      else found.text :: parts query limit found.behind

/-- What is shown of a content. -/
def shown (query : Query) (operand : Text) (found : List (Text × Nat)) : Text :=
  let front := if query.named then operand ++ [':'] else []
  if query.has 'q' then []
  else if query.has 'l' then (if found.isEmpty then [] else operand ++ ['\n'])
  else if query.has 'c' then front ++ ofNat found.length ++ ['\n']
  else found.flatMap fun (line, index) =>
    let front := front ++ if query.has 'n' then ofNat (index + 1) ++ [':'] else []
    if query.has 'o' then (query.parts (line.length + 1) line).flatMap fun part =>
      front ++ part ++ ['\n']
    else front ++ line ++ ['\n']

end Query

/-- The expressions that are written in the lines of a text. -/
def expressionsOf (plain extended : Bool) (letters : List Char) (source : Text) :
    List Expression :=
  (splitAt '\n' source).map fun line =>
    let expression :=
      if plain || letters.contains 'F' then Expression.ofPlain line
      else Expression.read (extended || letters.contains 'E') line
    let expression :=
      if letters.contains 'w' then
        .both (.wordEdge true false) (.both (.group 0 expression) (.wordEdge false true))
      else expression
    if letters.contains 'x' then expression.ofLine else expression

/-- Shows the lines in which an expression is found. -/
def search (plain extended : Bool) : Service := fun request =>
  let (values, operands) := request.valued ['e', 'm']
  let letters := values.map Prod.fst
  let given := (values.filter fun value => value.1 == 'e').map Prod.snd
  let (sources, operands) :=
    if given.isEmpty then (operands.take 1, operands.drop 1) else (given, operands)
  if sources.isEmpty then
    { request.served with
      status := 2
      errors := "Usage: grep [OPTION]... PATTERNS [FILE]...\n".toList ++
        "Try 'grep --help' for more information.\n".toList }
  else
    let operands := if operands.isEmpty then [['-']] else operands
    let query : Query := {
      expressions := sources.flatMap (expressionsOf plain extended letters)
      letters
      named := (operands.length > 1 || letters.contains 'H') && !letters.contains 'h' }
    let limit := ((values.lookup 'm').bind digits?)
    let (served, anyFound) := operands.foldl (fun (served, anyFound) operand =>
      match request.content operand with
      | .error fault =>
        if query.has 's' then ({ served with status := 2 }, anyFound)
        else (served.tell request (operand ++ ": ".toList ++ fault.words) 2, anyFound)
      | .ok content =>
        let found := ((linesOf content).map bare).zipIdx.filter fun (line, _) => query.holds line
        let found := found.take (limit.getD found.length)
        (served.put (query.shown operand found), anyFound || !found.isEmpty))
      (request.served, false)
    if served.status == 2 && !(anyFound && query.has 'q') then served
    else { served with status := if anyFound then 0 else 1 }

end SlideDeck.Utility
