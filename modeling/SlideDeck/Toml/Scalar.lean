import SlideDeck.Toml.Quoted

/-!
# Numbers, truth values and times in TOML

Values without quotes are recognised by their whole text: integers of 64 bits in
four bases, decimal fractions, truth values, and dates and times of the calendar.
-/

set_option autoImplicit false

namespace SlideDeck.Toml

open SlideDeck SlideDeck.Text

/-! ## Numbers -/

/-- Whether the text consists of digits, with single underscores between them. -/
def isGrouped (isDigit : Char → Bool) (s : Text) : Bool :=
  (splitAt '_' s).all fun piece => !piece.isEmpty && piece.all isDigit

/-- The text without underscores. -/
def dropUnderscores (s : Text) : Text := s.filter (· != '_')

/-- The value of digits of a base. -/
def valueIn (base : Nat) (s : Text) : Nat :=
  (dropUnderscores s).foldl (fun value c => base * value + (hexDigit? c).getD 0) 0

/-- The text without a sign at its front, and whether that is a minus. -/
def splitSign : Text → Bool × Text
  | '-' :: rest => (true, rest)
  | '+' :: rest => (false, rest)
  | rest => (false, rest)

/-- Whether the text consists of decimal digits that begin with zero only if there
is no other. -/
def isDecimal (s : Text) : Bool :=
  isGrouped Char.isDigit s && (s.head? != some '0' || s.length == 1)

/-- One more than the greatest integer. The least one is as far below zero. -/
def integerBound : Nat := 9223372036854775808

/-- Whether the text is an integer in decimal. -/
def isDecimalInteger (s : Text) : Bool :=
  let (negative, digits) := splitSign s
  isDecimal digits && decide (valueIn 10 digits < integerBound + if negative then 1 else 0)

/-- The bases other than ten: their signs and their digits. -/
def bases : List (Text × Nat × (Char → Bool)) := [
  ("0x".toList, 16, fun c => (hexDigit? c).isSome),
  ("0o".toList, 8, fun c => '0' ≤ c && c ≤ '7'),
  ("0b".toList, 2, fun c => c == '0' || c == '1')]

/-- Whether the text is an integer in a base other than ten. -/
def isBasedInteger (s : Text) : Bool :=
  bases.any fun (sign, base, isDigit) =>
    match skip? sign s with
    | some digits => isGrouped isDigit digits && decide (valueIn base digits < integerBound)
    | none => false

/-- Whether a decimal fraction is below the numbers that are taken for infinite:
`mantissa` has `places` places behind the point, and is multiplied by the power of ten
with the given exponent. -/
def isFinite (mantissa places exponent : Nat) (negative : Bool) : Bool :=
  let digits := (Nat.toDigits 10 mantissa).length
  if mantissa == 0 || negative then true
  else if digits + exponent < places + 300 then true
  else if places + 320 < digits + exponent then false
  else
    decide (mantissa * Nat.pow 10 exponent <
      (Nat.pow 2 1024 - Nat.pow 2 970) * Nat.pow 10 places)

/-- Cuts a text at the first character with the property. -/
def cutAt (property : Char → Bool) (s : Text) : Text × Option Text :=
  (s.takeWhile (!property ·),
    match s.dropWhile (!property ·) with
    | [] => none
    | _ :: rest => some rest)

/-- Whether the text is a decimal fraction. -/
def isFraction (s : Text) : Bool :=
  let (negative, unsigned) := splitSign s
  let (coefficient, exponent) := cutAt (fun c => c == 'e' || c == 'E') unsigned
  let (whole, part) := cutAt (· == '.') coefficient
  let (down, power) := splitSign (exponent.getD ['0'])
  isDecimal whole && (part.all fun digits => isGrouped Char.isDigit digits) &&
  isGrouped Char.isDigit power && (part.isSome || exponent.isSome) &&
  isFinite (valueIn 10 (whole ++ part.getD [])) (dropUnderscores (part.getD [])).length
    (valueIn 10 power) (negative || down)

/-- Whether the text is a sign of something that is no number, or of an infinite one. -/
def isSpecial (s : Text) : Bool :=
  let unsigned := (splitSign s).2
  unsigned == "inf".toList || unsigned == "nan".toList

/-! ## Times -/

/-- The number in exactly `count` decimal digits at the front of a text. -/
def fixedDigits? (count : Nat) (s : Text) : Option (Nat × Text) :=
  let digits := s.take count
  if digits.length == count && digits.all Char.isDigit then
    some (valueIn 10 digits, s.drop count)
  else none

/-- The number of days of a month. -/
def daysIn (year month : Nat) : Nat :=
  if month == 2 then
    if year % 4 == 0 && (year % 100 != 0 || year % 400 == 0) then 29 else 28
  else if month ∈ [4, 6, 9, 11] then 30
  else 31

/-- The text behind a date. -/
def skipDate? (s : Text) : Option Text := do
  let (year, rest) ← fixedDigits? 4 s
  let (month, rest) ← fixedDigits? 2 (← skip? ['-'] rest)
  let (day, rest) ← fixedDigits? 2 (← skip? ['-'] rest)
  if 1 ≤ month && month ≤ 12 && 1 ≤ day && day ≤ daysIn year month then some rest else none

/-- The text behind the digits of a fraction of a second, if there are any. -/
def skipSecondFraction? : Text → Option Text
  | '.' :: c :: rest => if c.isDigit then some (rest.dropWhile Char.isDigit) else none
  | '.' :: [] => none
  | rest => some rest

/-- The text behind a time of the day. -/
def skipTime? (s : Text) : Option Text := do
  let (hour, rest) ← fixedDigits? 2 s
  let (minute, rest) ← fixedDigits? 2 (← skip? [':'] rest)
  let (second, rest) ← fixedDigits? 2 (← skip? [':'] rest)
  if hour ≤ 23 && minute ≤ 59 && second ≤ 60 then skipSecondFraction? rest else none

/-- The text behind the distance to world time, if there is one. -/
def skipOffset? : Text → Option Text
  | 'Z' :: rest | 'z' :: rest => some rest
  | c :: rest =>
    if c = '+' || c = '-' then do
      let (hour, rest) ← fixedDigits? 2 rest
      let (minute, rest) ← fixedDigits? 2 (← skip? [':'] rest)
      if hour ≤ 23 && minute ≤ 59 then some rest else none
    else some (c :: rest)
  | [] => some []

/-- Whether the text is a date. -/
def isDate (s : Text) : Bool := skipDate? s == some []

/-- Whether the text is a time of the day. -/
def isTime (s : Text) : Bool := skipTime? s == some []

/-- Whether the text is a time of the day with or without the distance to world time. -/
def isZonedTime (s : Text) : Bool := (skipTime? s).bind skipOffset? == some []

/-- Whether the text is a date and a time with a letter between them. -/
def isDateTime (s : Text) : Bool :=
  match skipDate? s with
  | some ('T' :: rest) | some ('t' :: rest) => isZonedTime rest
  | _ => false

/-! ## Values without quotes -/

/-- Whether the text is a value without quotes. -/
def isScalar (s : Text) : Bool :=
  s == "true".toList || s == "false".toList || isDecimalInteger s || isBasedInteger s ||
    isFraction s || isSpecial s || isDate s || isTime s || isDateTime s

/-- Whether a character may stand in a value without quotes. -/
def isScalarChar (c : Char) : Bool := !isBlank c && c ∉ [',', ']', '\x7d', '#']

/-- Reads a value without quotes: its text. Between a date and a time there may be a
blank. -/
def readScalar : Reader Text := fun s =>
  let first := s.takeWhile isScalarChar
  let rest := s.dropWhile isScalarChar
  match rest with
  | ' ' :: c :: behind =>
    if isDate first && c.isDigit then
      let second := (c :: behind).takeWhile isScalarChar
      if isZonedTime second then
        some (first ++ ' ' :: second, (c :: behind).dropWhile isScalarChar)
      else none
    else if isScalar first then some (first, rest) else none
  | _ => if isScalar first then some (first, rest) else none

end SlideDeck.Toml
