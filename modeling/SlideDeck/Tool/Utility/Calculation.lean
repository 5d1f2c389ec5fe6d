import SlideDeck.Tool.Script.Arithmetic
import SlideDeck.Tool.Utility.Expression
import SlideDeck.Tool.Utility.Served

/-!
# Calculating with arguments

The program whose arguments are the signs of a calculation, which it does with numbers
and with texts. Each operator stands in an argument of its own; those that bind weaker
are read first.
-/

set_option autoImplicit false

namespace SlideDeck.Utility

open SlideDeck SlideDeck.Text SlideDeck.Script

/-- What can be wrong with a calculation. -/
inductive Miscount where
  /-- There are no arguments behind the last one. -/
  | unfinished (last : Text)
  | unexpected (argument : Text)
  | notNumber
  | byZero
  | unclosed
  | missing
  deriving DecidableEq, Repr

/-- What is wrong with a calculation, in words. -/
def Miscount.message : Miscount → Text
  | .unfinished last => "syntax error: missing argument after ".toList ++ quote last
  | .unexpected argument => "syntax error: unexpected argument ".toList ++ quote argument
  | .notNumber => "non-integer argument".toList
  | .byZero => "division by zero".toList
  | .unclosed => "syntax error: expecting ')'".toList
  | .missing => "missing operand".toList

namespace Calculation

/-- Whether the value counts as nothing. -/
def isNull (value : Text) : Bool :=
  value.isEmpty || (decimal? value == some 0)

/-- The number that a value is. -/
def number (value : Text) : Except Miscount Int :=
  match decimal? value with
  | some number => .ok number
  | none => .error .notNumber

/-- The operators, those that bind weakest first. -/
def levels : List (List Text) :=
  [["|"], ["&"], ["<", "<=", "=", "==", "!=", ">=", ">"], ["+", "-"], ["*", "/", "%"], [":"]].map
    fun level => level.map String.toList

/-- What an expression finds at the front of a value: its first group, or its length. -/
def matched (value source : Text) : Text :=
  let expression := Expression.both .lineStart (.group 0 (Expression.read false source))
  let hasGroup := includes "\\(".toList source
  match expression.find? false value with
  | none => if hasGroup then [] else ['0']
  | some found => if hasGroup then (found.groups.lookup 1).getD [] else ofNat found.text.length

/-- Whether a comparison of two values holds, as numbers if both are. -/
def compare (operator left right : Text) : Bool :=
  let order : Ordering :=
    match decimal? left, decimal? right with
    | some a, some b => Ord.compare a b
    | _, _ => if left == right then .eq else if Text.le left right then .lt else .gt
  let named (s : String) : Bool := operator == s.toList
  if named "<" then order == .lt
  else if named "<=" then order != .gt
  else if named "=" || named "==" then order == .eq
  else if named "!=" then order != .eq
  else if named ">=" then order != .lt
  else order == .gt

/-- The value of an operator with two values. -/
def apply (operator left right : Text) : Except Miscount Text := do
  let named (s : String) : Bool := operator == s.toList
  if named "|" then return if !isNull left then left else if !isNull right then right else ['0']
  else if named "&" then return if isNull left || isNull right then ['0'] else left
  else if named ":" then return matched left right
  else if named "+" then return ofInt ((← number left) + (← number right))
  else if named "-" then return ofInt ((← number left) - (← number right))
  else if named "*" then return ofInt ((← number left) * (← number right))
  else if named "/" || named "%" then
    let dividend ← number left
    let divisor ← number right
    if divisor == 0 then throw .byZero
    return ofInt (if named "/" then dividend.tdiv divisor else dividend.tmod divisor)
  else return if compare operator left right then ['1'] else ['0']

/-- The value at the front of arguments, which stand behind one, and the arguments behind
it. `levels` are the operators that may stand there. -/
def valueFrom : Nat → List (List Text) → Text → List Text → Except Miscount (Text × List Text)
  | 0, _, last, _ => .error (.unfinished last)
  | fuel + 1, [], last, arguments => do
    match arguments with
    | [] => throw (.unfinished last)
    | first :: rest =>
      if first == ['('] then
        let (value, behind) ← valueFrom fuel levels first rest
        match behind with
        | [')'] :: behind => return (value, behind)
        | _ => throw .unclosed
      else if first == "length".toList then
        let (value, behind) ← valueFrom fuel [] first rest
        return (ofNat value.length, behind)
      else if first == ['+'] then
        match rest with
        | [] => throw (.unfinished first)
        | value :: behind => return (value, behind)
      else return (first, rest)
  | fuel + 1, level :: others, last, arguments => do
    let (value, rest) ← valueFrom fuel others last arguments
    more level others fuel value rest
where
  /-- Goes on with the operators of a level. -/
  more (level : List Text) (others : List (List Text)) :
      Nat → Text → List Text → Except Miscount (Text × List Text)
    | 0, value, rest => .ok (value, rest)
    | fuel + 1, value, rest => do
      match rest with
      | [] => return (value, [])
      | operator :: behind =>
        if level.contains operator then
          let (right, behind) ← valueFrom fuel others operator behind
          more level others fuel (← apply operator value right) behind
        else return (value, rest)

end Calculation

/-- Calculates, and fails if the value counts as nothing. -/
def calculate : Service := fun request =>
  let fuel := 16 * request.arguments.length + 16
  match request.arguments with
  | [] => request.served.misused request Miscount.missing.message 2
  | arguments =>
    match Calculation.valueFrom fuel Calculation.levels [] arguments with
    | .error what => request.served.tell request what.message 2
    | .ok (_, argument :: _) =>
      request.served.tell request (Miscount.unexpected argument).message 2
    | .ok (value, []) =>
      { request.served.put (value ++ ['\n']) with
        status := if Calculation.isNull value then 1 else 0 }

end SlideDeck.Utility
