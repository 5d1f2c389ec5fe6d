import SlideDeck.Keyed
import SlideDeck.Text.Number
import SlideDeck.Text.Search
import SlideDeck.Tool.Script.Bytes

/-!
# Sums

The arithmetic of scripts: expressions over whole numbers of 64 bits and variables,
with the operators of C but for those that count up and down. A variable without a
value is zero. Evaluating an expression may give values to variables.
-/

set_option autoImplicit false

namespace SlideDeck.Script

open SlideDeck SlideDeck.Text

/-- An operator between two numbers. -/
inductive Operator where
  | times | divide | remainder | plus | minus | shiftLeft | shiftRight
  | less | lessEqual | greater | greaterEqual | equal | different
  | bitAnd | bitXor | bitOr
  deriving DecidableEq, Repr

/-- An expression. -/
inductive Sum where
  | number (value : Int)
  | variableOf (name : Text)
  | negated (operand : Sum)
  | opposite (operand : Sum)
  | complement (operand : Sum)
  | binary (operator : Operator) (first second : Sum)
  | both (first second : Sum)
  | either (first second : Sum)
  | choice (test yes no : Sum)
  /-- The variable gets the value, or what the operator makes of its own and that. -/
  | assign (name : Text) (operator : Option Operator) (value : Sum)

/-- What is wrong with an expression or its evaluation. -/
inductive SumFault where
  | wantedOperand
  | wantedEnd
  | wantedParenthesis
  | wantedColon
  | divisionByZero
  | notNumber (value : Text)
  deriving DecidableEq, Repr

/-- What is wrong with an expression, in words. -/
def SumFault.message (expression : Text) : SumFault → Text
  | .wantedOperand => about "expecting primary"
  | .wantedEnd => about "expecting EOF"
  | .wantedParenthesis => about "expecting ')'"
  | .wantedColon => about "expecting ':'"
  | .divisionByZero => about "division by zero"
  | .notNumber value => "Illegal number: ".toList ++ value
where
  /-- A fault with the expression in which it arises. -/
  about (what : String) : Text :=
    "arithmetic expression: ".toList ++ what.toList ++ ": \x22".toList ++ expression ++ ['\x22']

/-! ## Numbers -/

/-- A whole number cut to 64 bits. -/
def wrap (value : Int) : Int := value.bmod 18446744073709551616

/-- The bits of a number, as a number without sign. -/
def bitsOf (value : Int) : Nat := (value % 18446744073709551616).toNat

/-- The value of a digit. -/
def digitValue (c : Char) : Nat :=
  if c.isDigit then c.toNat - '0'.toNat
  else if 'a' ≤ c && c ≤ 'z' then c.toNat - 'a'.toNat + 10
  else if 'A' ≤ c && c ≤ 'Z' then c.toNat - 'A'.toNat + 10
  else 99

/-- The value of the digits of a base at the front of a text, and the text behind
them. -/
def digitsIn (base value : Nat) : Text → Nat × Text
  | [] => (value, [])
  | c :: rest =>
    if digitValue c < base then digitsIn base (base * value + digitValue c) rest
    else (value, c :: rest)

/-- The number without sign at the front of a text, and the text behind it: decimal,
octal behind a zero, or hexadecimal behind `0x`. -/
def numberAt (s : Text) : Nat × Text :=
  match s with
  | '0' :: 'x' :: c :: rest =>
    if digitValue c < 16 then digitsIn 16 0 (c :: rest) else (0, 'x' :: c :: rest)
  | '0' :: 'X' :: c :: rest =>
    if digitValue c < 16 then digitsIn 16 0 (c :: rest) else (0, 'X' :: c :: rest)
  | '0' :: rest => digitsIn 8 0 rest
  | _ => digitsIn 10 0 s

/-- The characters between the parts of an expression. -/
def isSumGap (c : Char) : Bool := c == ' ' || c == '\t' || c == '\n'

/-- The blanks before a number. -/
def isSpace (c : Char) : Bool := c == ' ' || ('\t' ≤ c && c ≤ '\r')

/-- A number cut to the range of 64 bits. -/
def clamp (value : Int) : Int :=
  if value < -9223372036854775808 then -9223372036854775808
  else if 9223372036854775807 < value then 9223372036854775807
  else value

/-- The number that a value is: blanks, a sign, and digits of some base. -/
def numberOf? (value : Text) : Option Int :=
  let s := value.dropWhile isSpace
  let (isNegative, digits) :=
    match s with
    | '-' :: rest => (true, rest)
    | '+' :: rest => (false, rest)
    | _ => (false, s)
  match digits with
  | [] => none
  | c :: _ =>
    let (number, rest) := numberAt digits
    if c.isDigit && (rest.dropWhile isSpace).isEmpty then
      some (clamp (if isNegative then -(number : Int) else number))
    else none

/-- A whole number in decimal, with a sign if it is negative. -/
def ofInt (value : Int) : Text :=
  if value < 0 then '-' :: ofNat value.natAbs else ofNat value.natAbs

/-! ## Reading expressions -/

/-- Operators by how strongly they bind, the weakest first. -/
def operatorLevels : List (List (String × Operator)) :=
  [[("|", .bitOr)], [("^", .bitXor)], [("&", .bitAnd)], [("==", .equal), ("!=", .different)],
    [("<=", .lessEqual), (">=", .greaterEqual), ("<", .less), (">", .greater)],
    [("<<", .shiftLeft), (">>", .shiftRight)], [("+", .plus), ("-", .minus)],
    [("*", .times), ("/", .divide), ("%", .remainder)]]

/-- The signs that a text can begin with, the longer ones first. -/
def sumSigns : List String :=
  ["<<=", ">>=", "||", "&&", "==", "!=", "<=", ">=", "<<", ">>", "+=", "-=", "*=", "/=", "%=",
    "&=", "^=", "|=", "|", "^", "&", "<", ">", "+", "-", "*", "/", "%", "=", "?", ":", "(", ")",
    "!", "~"]

/-- The sign at the front of a text. -/
def sumSign? (s : Text) : Option String := sumSigns.find? fun sign => startsWith sign.toList s

/-- The signs that give a variable a value. -/
def assigningSigns : List (String × Option Operator) :=
  [("=", none), ("+=", some .plus), ("-=", some .minus), ("*=", some .times),
    ("/=", some .divide), ("%=", some .remainder), ("<<=", some .shiftLeft),
    (">>=", some .shiftRight), ("&=", some .bitAnd), ("^=", some .bitXor), ("|=", some .bitOr)]

/-- Goes behind the blanks at the front of an expression. -/
def skipSumGaps (s : Text) : Text := s.dropWhile isSumGap

mutual

/-- Reads an expression with or without an assignment or a choice. -/
def readSum : Nat → Text → Except SumFault (Sum × Text)
  | 0, _ => .error .wantedOperand
  | fuel + 1, s => do
    let s := skipSumGaps s
    let name := if s.head?.any isNameStart then s.takeWhile isNameChar else []
    let behind := skipSumGaps (s.drop name.length)
    match (sumSign? behind).bind fun sign => (assigningSigns.lookup sign).map (sign, ·) with
    | some (sign, operator) =>
      if name.isEmpty then readChoice fuel s
      else
        let (value, rest) ← readSum fuel (behind.drop sign.length)
        return (.assign name operator value, rest)
    | none => readChoice fuel s

/-- Reads a choice, or an expression that is none. -/
def readChoice : Nat → Text → Except SumFault (Sum × Text)
  | 0, _ => .error .wantedOperand
  | fuel + 1, s => do
    let (test, rest) ← readEither fuel s
    let rest := skipSumGaps rest
    if sumSign? rest == some "?" then
      let (yes, rest) ← readSum fuel (rest.drop 1)
      let rest := skipSumGaps rest
      if sumSign? rest != some ":" then throw .wantedColon
      let (no, rest) ← readChoice fuel (rest.drop 1)
      return (.choice test yes no, rest)
    else return (test, rest)

/-- Reads operands of which one has to hold. -/
def readEither : Nat → Text → Except SumFault (Sum × Text)
  | 0, _ => .error .wantedOperand
  | fuel + 1, s => do
    let (first, rest) ← readBoth fuel s
    let rest := skipSumGaps rest
    if sumSign? rest == some "||" then
      let (second, rest) ← readEither fuel (rest.drop 2)
      return (.either first second, rest)
    else return (first, rest)

/-- Reads operands that all have to hold. -/
def readBoth : Nat → Text → Except SumFault (Sum × Text)
  | 0, _ => .error .wantedOperand
  | fuel + 1, s => do
    let (first, rest) ← readLevel operatorLevels fuel s
    let rest := skipSumGaps rest
    if sumSign? rest == some "&&" then
      let (second, rest) ← readBoth fuel (rest.drop 2)
      return (.both first second, rest)
    else return (first, rest)

/-- Reads operands with operators of some strength between them. -/
def readLevel (levels : List (List (String × Operator))) :
    Nat → Text → Except SumFault (Sum × Text)
  | 0, _ => .error .wantedOperand
  | fuel + 1, s =>
    match levels with
    | [] => readOperand fuel s
    | level :: stronger => do
      let (first, rest) ← readLevel stronger fuel s
      readLevelFrom level stronger first fuel rest

/-- Reads further operands. -/
def readLevelFrom (level : List (String × Operator)) (stronger : List (List (String × Operator)))
    (first : Sum) : Nat → Text → Except SumFault (Sum × Text)
  | 0, _ => .error .wantedOperand
  | fuel + 1, s =>
    let s := skipSumGaps s
    match (sumSign? s).bind fun sign => (level.lookup sign).map (sign, ·) with
    | some (sign, operator) => do
      let (second, rest) ← readLevel stronger fuel (s.drop sign.length)
      readLevelFrom level stronger (.binary operator first second) fuel rest
    | none => .ok (first, s)

/-- Reads a number, a variable, an expression in parentheses, or one of these behind a
sign. -/
def readOperand : Nat → Text → Except SumFault (Sum × Text)
  | 0, _ => .error .wantedOperand
  | fuel + 1, s =>
    match skipSumGaps s with
    | [] => .error .wantedOperand
    | c :: rest =>
      if c == '!' then do
        let (operand, rest) ← readOperand fuel rest
        return (.negated operand, rest)
      else if c == '-' then do
        let (operand, rest) ← readOperand fuel rest
        return (.opposite operand, rest)
      else if c == '+' then readOperand fuel rest
      else if c == '~' then do
        let (operand, rest) ← readOperand fuel rest
        return (.complement operand, rest)
      else if c == '(' then do
        let (inner, rest) ← readSum fuel rest
        match skipSumGaps rest with
        | ')' :: rest => return (inner, rest)
        | _ => throw .wantedParenthesis
      else if c.isDigit then
        let (value, rest) := numberAt (c :: rest)
        .ok (.number (clamp value), rest)
      else if isNameStart c then
        .ok (.variableOf ((c :: rest).takeWhile isNameChar), (c :: rest).dropWhile isNameChar)
      else .error .wantedOperand

end

/-- Reads a whole expression. Each character takes fewer than sixteen steps down. The
empty expression is zero. -/
def sumOf (expression : Text) : Except SumFault Sum := do
  if (skipSumGaps expression).isEmpty then return .number 0
  let (sum, rest) ← readSum (16 * expression.length + 64) expression
  if (skipSumGaps rest).isEmpty then return sum
  throw .wantedEnd

/-! ## Values of expressions -/

/-- The number of a truth value. -/
def ofTruth (holds : Bool) : Int := if holds then 1 else 0

/-- What an operator makes of two numbers. -/
def Operator.apply (first second : Int) : Operator → Except SumFault Int
  | .times => .ok (wrap (first * second))
  | .divide => if second == 0 then .error .divisionByZero else .ok (wrap (first.tdiv second))
  | .remainder => if second == 0 then .error .divisionByZero else .ok (first.tmod second)
  | .plus => .ok (wrap (first + second))
  | .minus => .ok (wrap (first - second))
  | .shiftLeft => .ok (wrap (first * (Nat.pow 2 (bitsOf second % 64) : Nat)))
  | .shiftRight => .ok (first / (Nat.pow 2 (bitsOf second % 64) : Nat))
  | .less => .ok (ofTruth (decide (first < second)))
  | .lessEqual => .ok (ofTruth (decide (first ≤ second)))
  | .greater => .ok (ofTruth (decide (second < first)))
  | .greaterEqual => .ok (ofTruth (decide (second ≤ first)))
  | .equal => .ok (ofTruth (first == second))
  | .different => .ok (ofTruth (first != second))
  | .bitAnd => .ok (wrap (bitsOf first &&& bitsOf second : Nat))
  | .bitXor => .ok (wrap (bitsOf first ^^^ bitsOf second : Nat))
  | .bitOr => .ok (wrap (bitsOf first ||| bitsOf second : Nat))

/-- The number that the value of a variable is. -/
def numberIn (bindings : Text.Entries) (name : Text) : Except SumFault Int :=
  match bindings.get? name with
  | none | some [] => .ok 0
  | some value =>
    match numberOf? value with
    | some number => .ok number
    | none => .error (.notNumber value)

/-- The value of an expression, and the values that it leaves in the variables. -/
def Sum.evaluate (bindings : Text.Entries) : Sum → Except SumFault (Int × Text.Entries)
  | .number value => .ok (value, bindings)
  | .variableOf name => (numberIn bindings name).map (·, bindings)
  | .negated operand => do
    let (value, bindings) ← operand.evaluate bindings
    return (ofTruth (value == 0), bindings)
  | .opposite operand => do
    let (value, bindings) ← operand.evaluate bindings
    return (wrap (-value), bindings)
  | .complement operand => do
    let (value, bindings) ← operand.evaluate bindings
    return (-value - 1, bindings)
  | .binary operator first second => do
    let (first, bindings) ← first.evaluate bindings
    let (second, bindings) ← second.evaluate bindings
    return (← operator.apply first second, bindings)
  | .both first second => do
    let (value, bindings) ← first.evaluate bindings
    if value == 0 then return (0, bindings)
    let (value, bindings) ← second.evaluate bindings
    return (ofTruth (value != 0), bindings)
  | .either first second => do
    let (value, bindings) ← first.evaluate bindings
    if value != 0 then return (1, bindings)
    let (value, bindings) ← second.evaluate bindings
    return (ofTruth (value != 0), bindings)
  | .choice test yes no => do
    let (value, bindings) ← test.evaluate bindings
    if value != 0 then yes.evaluate bindings else no.evaluate bindings
  | .assign name operator value => do
    let (value, bindings) ← value.evaluate bindings
    let value ←
      match operator with
      | none => pure value
      | some operator => operator.apply (← numberIn bindings name) value
    return (value, bindings.put name (ofInt value))

end SlideDeck.Script
