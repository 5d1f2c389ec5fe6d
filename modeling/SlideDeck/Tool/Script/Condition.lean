import SlideDeck.Files.Walk
import SlideDeck.Tool.Script.Arithmetic

/-!
# Conditions

What the command for conditions says about texts, numbers and files. With up to four
arguments their number decides what they mean; otherwise conditions are joined by
operators for both and either.
-/

set_option autoImplicit false

namespace SlideDeck.Script

open SlideDeck SlideDeck.Text

/-- The operators before one operand. -/
def unaryOperators : List Text :=
  ["-r", "-w", "-x", "-e", "-f", "-d", "-c", "-b", "-p", "-u", "-g", "-k", "-s", "-t", "-z",
    "-n", "-h", "-O", "-G", "-L", "-S"].map String.toList

/-- The operators between two operands. -/
def binaryOperators : List Text :=
  ["=", "!=", "<", ">", "-eq", "-ne", "-gt", "-ge", "-lt", "-le", "-nt", "-ot",
    "-ef"].map String.toList

/-- What is wrong with a condition. -/
inductive ConditionFault where
  | unexpectedOperator (word : Text)
  | wantedArgument (operator : Text)
  | wantedParenthesis
  | notNumber (word : Text)
  deriving DecidableEq, Repr

/-- What is wrong with a condition, in words. -/
def ConditionFault.message : ConditionFault → Text
  | .unexpectedOperator word => word ++ ": unexpected operator".toList
  | .wantedArgument operator => operator ++ ": argument expected".toList
  | .wantedParenthesis => "closing paren expected".toList
  | .notNumber word => "Illegal number: ".toList ++ word

/-- The number that an operand is. -/
def operandNumber (word : Text) : Except ConditionFault Int :=
  let s := word.dropWhile isSpace
  let (isNegative, digits) :=
    match s with
    | '-' :: rest => (true, rest)
    | '+' :: rest => (false, rest)
    | _ => (false, s)
  let (value, rest) := digitsIn 10 0 digits
  if digits.head?.any Char.isDigit && (rest.dropWhile isSpace).isEmpty then
    .ok (if isNegative then -(value : Int) else value)
  else .error (.notNumber word)

/-- Whether a condition with one operand holds. -/
def unary (tree : FileTree) (here : Location) (operator operand : Text) : Bool :=
  let found := tree.find here (toText operand)
  if operator == "-n".toList then !operand.isEmpty
  else if operator == "-z".toList then operand.isEmpty
  else if operator == "-t".toList then false
  else if operator == "-f".toList then
    match found with
    | .ok (_, .file ..) => true
    | _ => false
  else if operator == "-d".toList then
    match found with
    | .ok (_, .directory) => true
    | _ => false
  else if operator == "-c".toList then
    match found with
    | .ok (_, .sink) => true
    | _ => false
  else if operator == "-x".toList then
    match found with
    | .ok (_, .file _ executable) => executable
    | .ok (_, .directory) => true
    | _ => false
  else if operator == "-s".toList then
    match found with
    | .ok (_, .file content _) => !content.isEmpty
    | .ok (_, .directory) => true
    | _ => false
  else if ["-e", "-r", "-w", "-O", "-G"].any fun name => name.toList == operator then
    found.toOption.isSome
  else false

/-- Whether a condition with two operands holds. -/
def binary (tree : FileTree) (here : Location) (operator first second : Text) :
    Except ConditionFault Bool :=
  let numbers (holds : Int → Int → Bool) : Except ConditionFault Bool := do
    return holds (← operandNumber first) (← operandNumber second)
  if operator == ['='] then .ok (first == second)
  else if operator == "!=".toList then .ok (first != second)
  else if operator == ['<'] then .ok (Text.le first second && first != second)
  else if operator == ['>'] then .ok (Text.le second first && first != second)
  else if operator == "-eq".toList then numbers (· == ·)
  else if operator == "-ne".toList then numbers (· != ·)
  else if operator == "-gt".toList then numbers fun a b => decide (b < a)
  else if operator == "-ge".toList then numbers fun a b => decide (b ≤ a)
  else if operator == "-lt".toList then numbers fun a b => decide (a < b)
  else if operator == "-le".toList then numbers fun a b => decide (a ≤ b)
  else if operator == "-ef".toList then
    match tree.find here (toText first), tree.find here (toText second) with
    | .ok (one, _), .ok (other, _) => .ok (one == other)
    | _, _ => .ok false
  else .ok false

/-- Whether the first word is an operand even if it looks like an operator. -/
def isOperand (words : List Text) : Bool :=
  match words with
  | _ :: operator :: _ :: _ => binaryOperators.contains operator
  | _ :: _ :: [] => false
  | _ => true

mutual

/-- Whether one of the conditions at the front of the words holds, and the words behind
them. -/
def either (tree : FileTree) (here : Location) :
    Nat → List Text → Except ConditionFault (Bool × List Text)
  | 0, words => .ok (false, words)
  | fuel + 1, words => do
    let (first, rest) ← both tree here fuel words
    match rest with
    | operator :: others =>
      if operator == "-o".toList then
        let (second, rest) ← either tree here fuel others
        return (first || second, rest)
      else return (first, rest)
    | [] => return (first, rest)

/-- Whether all of the conditions at the front of the words hold, and the words behind
them. -/
def both (tree : FileTree) (here : Location) :
    Nat → List Text → Except ConditionFault (Bool × List Text)
  | 0, words => .ok (false, words)
  | fuel + 1, words => do
    let (first, rest) ← condition tree here fuel words
    match rest with
    | operator :: others =>
      if operator == "-a".toList then
        let (second, rest) ← both tree here fuel others
        return (first && second, rest)
      else return (first, rest)
    | [] => return (first, rest)

/-- Whether the condition at the front of the words holds, and the words behind it. -/
def condition (tree : FileTree) (here : Location) :
    Nat → List Text → Except ConditionFault (Bool × List Text)
  | 0, words => .ok (false, words)
  | fuel + 1, words =>
    match words with
    | [] => .ok (false, [])
    | word :: rest =>
      if word == ['!'] && !rest.isEmpty then do
        let (holds, rest) ← condition tree here fuel rest
        return (!holds, rest)
      else if word == ['('] && !rest.isEmpty then do
        let (holds, rest) ← either tree here fuel rest
        match rest with
        | closing :: rest =>
          if closing == [')'] then return (holds, rest) else throw .wantedParenthesis
        | [] => throw .wantedParenthesis
      else if unaryOperators.contains word && !isOperand words then
        match rest with
        | [] => .error (.wantedArgument word)
        | operand :: rest => .ok (unary tree here word operand, rest)
      else
        match rest with
        | operator :: others =>
          if binaryOperators.contains operator then
            match others with
            | [] => .error (.wantedArgument operator)
            | second :: rest => do return (← binary tree here operator word second, rest)
          else .ok (!word.isEmpty, rest)
        | [] => .ok (!word.isEmpty, [])

end

/-- Whether the words are a condition that holds. -/
def holds (tree : FileTree) (here : Location) (words : List Text) : Except ConditionFault Bool :=
  match words with
  | [] => .ok false
  | [first, operator, second] =>
    if binaryOperators.contains operator then binary tree here operator first second
    else if first == ['('] && second == [')'] then general [operator]
    else if first == ['!'] then (general [operator, second]).map not
    else general words
  | [first, second, third, fourth] =>
    if first == ['('] && fourth == [')'] then general [second, third]
    else if first == ['!'] then
      if binaryOperators.contains third then (binary tree here third second fourth).map not
      else (general [second, third, fourth]).map not
    else general words
  | _ => general words
where
  /-- Whether words that have no meaning by their number hold. -/
  general (words : List Text) : Except ConditionFault Bool := do
    let (holds, rest) ← either tree here (4 * words.length + 4) words
    if rest.isEmpty then return holds
    throw (.unexpectedOperator ((words.take (words.length - rest.length)).getLastD []))

end SlideDeck.Script
