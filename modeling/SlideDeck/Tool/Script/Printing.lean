import SlideDeck.Tool.Script.Arithmetic

/-!
# Printing texts

The two commands that print: one prints texts with blanks between them, the other
prints a format with texts in the places that it keeps for them. Both know escapes.
-/

set_option autoImplicit false

namespace SlideDeck.Script

open SlideDeck SlideDeck.Text

/-! ## Escapes -/

/-- The characters of escapes with one letter. -/
def letterEscapes : List (Char × Char) :=
  [('a', '\x07'), ('b', '\x08'), ('e', '\x1b'), ('f', '\x0c'), ('n', '\n'), ('r', '\r'),
    ('t', '\t'), ('v', '\x0b'), ('\\', '\\')]

/-- Whether the character is an octal digit. -/
def isOctal (c : Char) : Bool := '0' ≤ c && c ≤ '7'

/-- The character of an octal escape of at most three digits, and how many it has. -/
def octalEscape (s : Text) : Char × Nat :=
  let digits := (s.take 3).takeWhile isOctal
  (Char.ofNat ((digitsIn 8 0 digits).1 % 256), digits.length)

/-- What an escape says. -/
inductive Escape where
  | text (s : Text)
  /-- Nothing more is printed. -/
  | stop
  deriving DecidableEq, Repr

/-- What a backslash in front of the text says, and how many characters of the text
belong to it. Octal escapes have a zero in front, and printing can be stopped, if
`inText` says so. -/
def escapeAt (inText : Bool) (s : Text) : Escape × Nat :=
  match s with
  | [] => (.text ['\\'], 0)
  | c :: rest =>
    match letterEscapes.lookup c with
    | some meant => (.text [meant], 1)
    | none =>
      if inText && c == 'c' then (.stop, 1)
      else if inText && c == '0' then
        let (meant, used) := octalEscape rest
        (.text [meant], used + 1)
      else if !inText && isOctal c then
        let (meant, used) := octalEscape s
        (.text [meant], used)
      else (.text ['\\'], 0)

/-- The text that a text with escapes says, behind the characters that an escape has
used, and whether printing stops there. -/
def unescapeFrom : Nat → Text → Text × Bool
  | _, [] => ([], false)
  | covered + 1, _ :: rest => unescapeFrom covered rest
  | 0, '\\' :: rest =>
    match escapeAt true rest with
    | (.stop, _) => ([], true)
    | (.text s, used) =>
      let (more, stops) := unescapeFrom used rest
      (s ++ more, stops)
  | 0, c :: rest =>
    let (more, stops) := unescapeFrom 0 rest
    (c :: more, stops)

/-- The text that a text with escapes says, and whether printing stops there. -/
def unescape (s : Text) : Text × Bool := unescapeFrom 0 s

/-- Prints texts with blanks between them, and a newline if the first is not `-n`. -/
def echo (arguments : List Text) : Text :=
  let (texts, ending) :=
    if arguments.head? == some "-n".toList then (arguments.tail, []) else (arguments, ['\n'])
  let (text, stops) := unescape (join [' '] texts)
  if stops then text else text ++ ending

/-! ## Formats -/

/-- The places that a format keeps. -/
structure Place where
  /-- The value stands on the left. -/
  toLeft : Bool := false
  sign : Text := []
  /-- The base of the number is shown. -/
  alternate : Bool := false
  zeros : Bool := false
  width : Nat := 0
  precision : Option Nat := none
  deriving DecidableEq, Repr

/-- A text made as wide as its place. -/
def Place.pad (place : Place) (s : Text) : Text :=
  let blanks := List.replicate (place.width - s.length) ' '
  if place.toLeft then s ++ blanks else blanks ++ s

/-- The digits of a number in a place, behind a sign and the mark of the base. -/
def Place.number (place : Place) (sign mark digits : Text) : Text :=
  let digits :=
    match place.precision with
    | some count => List.replicate (count - digits.length) '0' ++ digits
    | none =>
      if place.zeros && !place.toLeft then
        List.replicate (place.width - sign.length - mark.length - digits.length) '0' ++ digits
      else digits
  place.pad (sign ++ mark ++ digits)

/-- What has been printed, and what was wrong. -/
structure Printed where
  output : Text := []
  faults : List Text := []
  arguments : List Text := []
  /-- Nothing more is printed. -/
  stops : Bool := false
  /-- The status if something was wrong. -/
  status : Nat := 0
  deriving DecidableEq, Repr

namespace Printed

/-- Prints a text. -/
def put (printed : Printed) (s : Text) : Printed := { printed with output := printed.output ++ s }

/-- Goes behind the next argument. -/
def next (printed : Printed) : Printed := { printed with arguments := printed.arguments.tail }

/-- Tells about something that is wrong. -/
def fault (printed : Printed) (what : Text) : Printed :=
  { printed with faults := printed.faults ++ [what], status := 1 }

/-- Tells about something that is so wrong that printing stops. -/
def failure (printed : Printed) (what : Text) : Printed :=
  { printed with faults := printed.faults ++ [what], status := 2, stops := true }

/-- The number that an argument is, and what is wrong with it. A quote in front stands
for the code of the character behind it. -/
def numberArgument (argument : Text) : Int × Option Text :=
  match argument with
  | [] => (0, none)
  | quote :: c :: _ =>
    if quote == '\x27' || quote == '\x22' then ((c.toNat : Int), none) else plain argument
  | _ => plain argument
where
  /-- The number that an argument without quotes is. -/
  plain (argument : Text) : Int × Option Text :=
    let s := argument.dropWhile isSpace
    let (isNegative, digits) :=
      match s with
      | '-' :: rest => (true, rest)
      | '+' :: rest => (false, rest)
      | _ => (false, s)
    if !digits.head?.any Char.isDigit then
      (0, some (argument ++ ": expected numeric value".toList))
    else
      let (number, rest) := numberAt digits
      let value := if isNegative then -(number : Int) else number
      if !rest.isEmpty then (clamp value, some (argument ++ ": not completely converted".toList))
      else if clamp value != value then
        (clamp value, some (argument ++ ": Numerical result out of range".toList))
      else (value, none)

/-- Prints the next argument as a number. -/
def putNumber (printed : Printed) (conversion : Char) (place : Place) : Printed :=
  let (value, problem) := numberArgument (printed.arguments.headD [])
  let printed := printed.next
  let printed :=
    match problem with
    | some what => printed.fault what
    | none => printed
  let bits := bitsOf value
  let digits (base : Nat) : Text :=
    if place.precision == some 0 && bits == 0 then [] else Nat.toDigits base bits
  if conversion == 'd' || conversion == 'i' then
    let sign := if value < 0 then ['-'] else place.sign
    printed.put (place.number sign [] (ofNat value.natAbs))
  else if conversion == 'u' then printed.put (place.number [] [] (digits 10))
  else if conversion == 'o' then
    printed.put (place.number [] (if place.alternate && bits != 0 then ['0'] else []) (digits 8))
  else if conversion == 'x' then
    printed.put (place.number [] (if place.alternate && bits != 0 then "0x".toList else [])
      (digits 16))
  else
    printed.put (place.number [] (if place.alternate && bits != 0 then "0X".toList else [])
      ((digits 16).map Char.toUpper))

/-- Prints the next argument as a text. -/
def putText (printed : Printed) (conversion : Char) (place : Place) : Printed :=
  let argument := printed.arguments.headD []
  let printed := printed.next
  let cut (s : Text) : Text :=
    match place.precision with
    | some count => s.take count
    | none => s
  if conversion == 'c' then printed.put (place.pad [argument.headD '\x00'])
  else if conversion == 'b' then
    let (text, stops) := unescape argument
    { printed.put (place.pad (cut text)) with stops }
  else printed.put (place.pad (cut argument))

/-- Puts a sign of a format into its place. -/
def flag (place : Place) : Char → Option Place
  | '-' => some { place with toLeft := true }
  | '+' => some { place with sign := ['+'] }
  | ' ' => some { place with sign := if place.sign.isEmpty then [' '] else place.sign }
  | '#' => some { place with alternate := true }
  | '0' => some { place with zeros := true }
  | _ => none

/-- The place that signs in a format keep, and the format behind them. -/
def flags (place : Place) : Text → Place × Text
  | [] => (place, [])
  | c :: rest =>
    match flag place c with
    | some place => flags place rest
    | none => (place, c :: rest)

/-- A number in a format: digits, or the next argument for a star. -/
def measure (printed : Printed) (s : Text) : Printed × Option Int × Text :=
  match s with
  | '*' :: rest => (printed.next, some (numberArgument (printed.arguments.headD [])).1, rest)
  | _ =>
    let digits := s.takeWhile Char.isDigit
    (printed, (digits? digits).map fun (value : Nat) => (value : Int), s.drop digits.length)

/-- Prints what a percent sign in front of the text says, and answers how many
characters of the text belong to it. -/
def conversion (printed : Printed) (s : Text) : Printed × Nat :=
  if startsWith ['%'] s then (printed.put ['%'], 1)
  else
    let (place, rest) := flags {} s
    let (printed, width, rest) := measure printed rest
    let place :=
      match width with
      | some value =>
        { place with width := value.natAbs, toLeft := place.toLeft || value < 0 }
      | none => place
    let (printed, place, rest) :=
      match rest with
      | '.' :: rest =>
        let (printed, precision, rest) := measure printed rest
        (printed, { place with precision := some (precision.getD 0).toNat }, rest)
      | _ => (printed, place, rest)
    match rest with
    | [] => (printed.failure "missing format character".toList, s.length)
    | c :: behind =>
      let used := s.length - behind.length
      if ['d', 'i', 'o', 'u', 'x', 'X'].contains c then (printed.putNumber c place, used)
      else if ['c', 's', 'b'].contains c then (printed.putText c place, used)
      else
        (printed.failure ('%' :: s.take used ++ ": invalid directive".toList), used)

/-- Prints a format, behind the characters that belong to what was printed. -/
def formatFrom (printed : Printed) : Nat → Text → Printed
  | _, [] => printed
  | covered + 1, _ :: rest => formatFrom printed covered rest
  | 0, '\\' :: rest =>
    match escapeAt false rest with
    | (.text s, used) => formatFrom (printed.put s) used rest
    | (.stop, used) => formatFrom printed used rest
  | 0, '%' :: rest =>
    let (printed, used) := printed.conversion rest
    if printed.stops then printed else formatFrom printed used rest
  | 0, c :: rest => formatFrom (printed.put [c]) 0 rest

/-- Prints a format again and again as long as it takes some of the arguments that are
left, at most `limit` times. -/
def formatAll (format : Text) : Nat → Printed → Printed
  | 0, printed => printed
  | limit + 1, printed =>
    let after := printed.formatFrom 0 format
    if after.stops || after.arguments.isEmpty ||
      after.arguments.length == printed.arguments.length then after
    else formatAll format limit after

end Printed

/-- Prints as a format says. -/
def printf (format : Text) (arguments : List Text) : Printed :=
  Printed.formatAll format (arguments.length + 1) { arguments }

end SlideDeck.Script
