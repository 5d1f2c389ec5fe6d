import SlideDeck.Tool.Script.Arithmetic
import SlideDeck.Tool.Utility.Served

/-!
# Programs that work on lines

Choosing, counting, ordering and cutting the lines of files or of the input, and small
programs that print numbers and names.
-/

set_option autoImplicit false

namespace SlideDeck.Utility

open SlideDeck SlideDeck.Text SlideDeck.Script

/-- The lines of a text, each with the newline that ends it. -/
def linesOf : Text → List Text
  | [] => []
  | c :: rest =>
    if c = '\n' then ['\n'] :: linesOf rest
    else
      match linesOf rest with
      | [] => [[c]]
      | line :: lines => (c :: line) :: lines

/-- A line without the newline that ends it. -/
def bare (line : Text) : Text := line.takeWhile (· != '\n')

/-- The text of all operands, or of the input, and what could not be read. -/
def contents (request : Request) (operands : List Text) : Served × Text :=
  (if operands.isEmpty then [['-']] else operands).foldl (fun (served, text) operand =>
    match request.content operand with
    | .ok content => (served, text ++ content)
    | .error fault =>
      (served.tell request (operand ++ ": ".toList ++ fault.words) 1, text)) (request.served, [])

/-- A number with blanks before it. -/
def padded (width number : Nat) : Text :=
  List.replicate (width - (ofNat number).length) ' ' ++ ofNat number

/-! ## Parts of texts -/

/-- Shows files, or the input, with the numbers of the lines and the ends of the lines if
options say so. -/
def cat : Service := fun request =>
  let (served, text) := contents request request.operands
  let numbers := request.has 'n'
  let ends := request.has 'E' || request.has 'e' || request.has 'A'
  if !numbers && !ends then served.put text
  else
    served.put ((linesOf text).zipIdx.flatMap fun (line, index) =>
      (if numbers then padded 6 (index + 1) ++ ['\t'] else []) ++ bare line ++
        (if line.contains '\n' then (if ends then ['$', '\n'] else ['\n']) else []))

/-- A number in an argument. -/
def numberOr (default : Nat) (value : Option Text) : Nat := (value.bind digits?).getD default

/-- The first or the last items, as a count says. The last ones from an item on are meant
by a plus sign, and all first ones but some by a minus sign. -/
def partOf {α : Type} (fromEnd : Bool) (count : Text) (items : List α) : List α :=
  match count with
  | '+' :: count =>
    if fromEnd then items.drop (numberOr 0 (some count) - 1)
    else items.take (numberOr 0 (some count))
  | '-' :: count =>
    if fromEnd then items.drop (items.length - numberOr 0 (some count))
    else items.take (items.length - numberOr 0 (some count))
  | count =>
    if fromEnd then items.drop (items.length - numberOr 0 (some count))
    else items.take (numberOr 0 (some count))

/-- Shows the first or the last lines, or bytes, of files. -/
def part (fromEnd : Bool) : Service := fun request =>
  let (values, operands) := request.valued ['n', 'c']
  let short := (values.map Prod.fst).filter Char.isDigit
  let shown (content : Text) : Text :=
    match values.lookup 'c' with
    | some count => partOf fromEnd count content
    | none =>
      let count := if short.isEmpty then (values.lookup 'n').getD "10".toList else short
      (partOf fromEnd count (linesOf content)).flatten
  let operands := if operands.isEmpty then [['-']] else operands
  let isQuiet := operands.length == 1 || values.any fun value => value.1 == 'q'
  (operands.foldl (fun (served, isFirst) operand =>
    match request.content operand with
    | .ok content =>
      let title := "==> ".toList ++
        (if operand == ['-'] then "standard input".toList else operand) ++ " <==\n".toList
      let title := if isQuiet then [] else if isFirst then title else '\n' :: title
      (served.put (title ++ shown content), false)
    | .error fault =>
      (served.tell request ("cannot open ".toList ++ quote operand ++ " for reading: ".toList ++
        fault.words) 1, isFirst)) (request.served, true)).1

/-- The number of words of a text. -/
def wordCount (s : Text) : Nat := (splitBlanks s).length
where
  /-- The words of a text. -/
  splitBlanks (s : Text) : List Text :=
    (s.foldr (fun c (words : List Text) =>
      if isSpace c then [] :: words
      else
        match words with
        | [] => [[c]]
        | word :: words => (c :: word) :: words) [[]]).filter fun word => !word.isEmpty

/-- Counts lines, words and bytes. -/
def count : Service := fun request =>
  let all := !(request.has 'l' || request.has 'w' || request.has 'c' || request.has 'm')
  let counts (content : Text) : List Nat :=
    (if all || request.has 'l' then [content.count '\n'] else []) ++
    (if all || request.has 'w' then [wordCount content] else []) ++
    (if all || request.has 'c' || request.has 'm' then [content.length] else [])
  let found := request.operands.filterMap fun operand =>
    (request.content operand).toOption.map fun content => (operand, counts content)
  let totals := (counts []).length
  let sum := found.foldl (fun sum (_, numbers) => (sum.zip numbers).map fun (a, b) => a + b)
    (List.replicate totals 0)
  let rows := if request.operands.isEmpty then [([], counts request.input)] else found
  let rows := if request.operands.length > 1 then rows ++ [("total".toList, sum)] else rows
  let bytes := (found.map fun (operand, _) =>
    ((request.content operand).toOption.getD []).length).foldl (· + ·) 0
  let width :=
    if request.operands.isEmpty then (if totals == 1 then 1 else 7)
    else if request.operands.length == 1 && totals == 1 then 1
    else (ofNat bytes).length
  let served := request.operands.foldl (fun served operand =>
    match request.content operand with
    | .ok _ => served
    | .error fault => served.tell request (operand ++ ": ".toList ++ fault.words) 1) request.served
  rows.foldl (fun served (name, numbers) =>
    served.put (join [' '] (numbers.map (padded width)) ++
      (if name.isEmpty then [] else ' ' :: name) ++ ['\n'])) served

/-! ## Order -/

/-- Whether a line comes before another one, or is the same, as numbers or as texts. -/
def comesBefore (numeric : Bool) (a b : Text) : Bool :=
  let number (line : Text) : Int :=
    let s := line.dropWhile isSpace
    match s with
    | '-' :: digits => -((digitsIn 10 0 digits).1 : Int)
    | digits => (digitsIn 10 0 digits).1
  if numeric && number a != number b then decide (number a < number b) else Text.le a b

/-- Orders lines. -/
def sort : Service := fun request =>
  let (served, text) := contents request request.operands
  let lines := (linesOf text).map bare
  let ordered := lines.mergeSort (comesBefore (request.has 'n'))
  let ordered := if request.has 'u' then ordered.eraseDups else ordered
  let ordered := if request.has 'r' then ordered.reverse else ordered
  served.put (ordered.flatMap fun line => line ++ ['\n'])

/-- Lines that repeat each other, with the number of times. -/
def runsOf : List Text → List (Nat × Text)
  | [] => []
  | line :: lines =>
    match runsOf lines with
    | (times, next) :: runs =>
      if next == line then (times + 1, next) :: runs else (1, line) :: (times, next) :: runs
    | [] => [(1, line)]

/-- Leaves out lines that repeat the one before, or those that do not. -/
def unique : Service := fun request =>
  let (served, text) := contents request request.operands
  served.put ((runsOf ((linesOf text).map bare)).flatMap fun (times, line) =>
    if (request.has 'd' && times == 1) || (request.has 'u' && times > 1) then []
    else (if request.has 'c' then padded 7 times ++ [' '] else []) ++ line ++ ['\n'])

/-- Shows lines, or the characters of each line, from behind. -/
def reversed (byLine : Bool) : Service := fun request =>
  let (served, text) := contents request request.operands
  if byLine then served.put (linesOf text).reverse.flatten
  else
    served.put ((linesOf text).flatMap fun line =>
      (bare line).reverse ++ (if line.contains '\n' then ['\n'] else []))

/-! ## Characters and fields -/

/-- The characters that a set names, with ranges and escapes. -/
def charactersOf : Nat → Text → List Char
  | 0, _ => []
  | _ + 1, [] => []
  | fuel + 1, '\\' :: 'n' :: rest => '\n' :: charactersOf fuel rest
  | fuel + 1, '\\' :: 't' :: rest => '\t' :: charactersOf fuel rest
  | fuel + 1, '\\' :: 'r' :: rest => '\r' :: charactersOf fuel rest
  | fuel + 1, '\\' :: c :: rest => c :: charactersOf fuel rest
  | fuel + 1, low :: '-' :: high :: rest =>
    (List.range (high.toNat + 1 - low.toNat)).map (fun step => Char.ofNat (low.toNat + step)) ++
      charactersOf fuel rest
  | fuel + 1, c :: rest =>
    let named := [("[:upper:]", 'A', 'Z'), ("[:lower:]", 'a', 'z'), ("[:digit:]", '0', '9')].find?
      fun entry => startsWith entry.1.toList (c :: rest)
    match named with
    | some (name, low, high) =>
      (List.range (high.toNat + 1 - low.toNat)).map
        (fun step => Char.ofNat (low.toNat + step)) ++
        charactersOf fuel ((c :: rest).drop name.length)
    | none => c :: charactersOf fuel rest

/-- Replaces or removes characters of the input. -/
def translate : Service := fun request =>
  let set (s : Text) : List Char := charactersOf (s.length + 1) s
  match request.operands with
  | [] => request.served.misused request "missing operand".toList 1
  | first :: others =>
    let wanted := set first
    let isComplement := request.has 'c' || request.has 'C'
    let isIn (c : Char) : Bool := wanted.contains c != isComplement
    if request.has 'd' then request.served.put (request.input.filter fun c => !isIn c)
    else
      match others with
      | [] =>
        if request.has 's' then request.served.put (squeeze isIn request.input)
        else
          request.served.misused request ("missing operand after ".toList ++ quote first) 1
      | second :: _ =>
        let replacements := set second
        let replace (c : Char) : Char :=
          if !isIn c then c
          else
            let index := if isComplement then replacements.length else wanted.idxOf c
            (replacements[index]?).getD (replacements.getLastD c)
        let text := request.input.map replace
        request.served.put (if request.has 's' then squeeze replacements.contains text else text)
where
  /-- Leaves out characters that repeat the one before. -/
  squeeze (isIn : Char → Bool) : Text → Text
    | [] => []
    | c :: rest =>
      match squeeze isIn rest with
      | d :: more => if c == d && isIn c then d :: more else c :: d :: more
      | [] => [c]

/-- The ranges of a list of numbers. -/
def rangesOf (s : Text) : List (Nat × Option Nat) :=
  (splitAt ',' s).map fun item =>
    match splitOnce '-' item with
    | some (low, high) => ((digits? low).getD 1, digits? high)
    | none => ((digits? item).getD 1, digits? item)

/-- The items of a list that ranges name, which count from one. -/
def chosen {α : Type} (ranges : List (Nat × Option Nat)) (items : List α) : List α :=
  items.zipIdx.filterMap fun (item, index) =>
    let isIn := ranges.any fun (low, high) =>
      decide (low ≤ index + 1) && (high.map fun high => decide (index + 1 ≤ high)).getD true
    if isIn then some item else none

/-- Cuts fields or characters out of lines. -/
def cutOut : Service := fun request =>
  let (values, operands) := request.valued ['d', 'f', 'c', 'b']
  let (served, text) := contents request operands
  let mark := (((values.lookup 'd').getD ['\t']).head?).getD '\t'
  let cutLine (line : Text) : Text :=
    match values.lookup 'f' with
    | some fields =>
      if line.contains mark then
        join [mark] (chosen (rangesOf fields) (splitAt mark line)) ++ ['\n']
      else if values.any fun value => value.1 == 's' then []
      else line ++ ['\n']
    | none =>
      match (values.lookup 'c').or (values.lookup 'b') with
      | some characters => chosen (rangesOf characters) line ++ ['\n']
      | none => line ++ ['\n']
  if (values.lookup 'f').isNone && (values.lookup 'c').isNone && (values.lookup 'b').isNone then
    served.misused request "you must specify a list of bytes, characters, or fields".toList 1
  else served.put ((linesOf text).flatMap fun line => cutLine (bare line))

/-! ## Numbers and names -/

/-- The numbers in arguments, and the text between them and whether all are as wide, as
options say. -/
def sequenceArguments : List Text → List Text × Text × Bool
  | [] => ([], ['\n'], false)
  | [word] => if word == "-w".toList then ([], ['\n'], true) else ([word], ['\n'], false)
  | word :: next :: rest =>
    if word == "-w".toList then
      let (words, separator, _) := sequenceArguments (next :: rest)
      (words, separator, true)
    else if word == "-s".toList then
      let (words, _, isEven) := sequenceArguments rest
      (words, next, isEven)
    else
      match skip? "-s".toList word with
      | some separator =>
        let (words, _, isEven) := sequenceArguments (next :: rest)
        (words, separator, isEven)
      | none => (word :: next :: rest, ['\n'], false)

/-- Prints numbers one after the other. -/
def sequence : Service := fun request =>
  let (words, separator, isEven) := sequenceArguments request.arguments
  match words.mapM decimal? with
  | none =>
    let wrong := (words.find? fun word => (decimal? word).isNone).getD []
    request.served.misused request ("invalid floating point argument: ".toList ++ quote wrong) 1
  | some numbers =>
    let go (first step last : Int) : Served :=
      let steps := if step == 0 then 0 else ((last - first).fdiv step + 1).toNat
      let texts := (List.range steps).map fun (index : Nat) => ofInt (first + step * index)
      let width := if isEven then (texts.map List.length).foldl max 0 else 0
      let texts := texts.map fun text => List.replicate (width - text.length) '0' ++ text
      request.served.put (if texts.isEmpty then [] else join separator texts ++ ['\n'])
    match numbers with
    | [last] => go 1 1 last
    | [first, last] => go first 1 last
    | [first, step, last] => go first step last
    | _ => request.served.misused request "missing operand".toList 1

/-- A name without the slashes at its end. -/
def withoutSlashes (name : Text) : Text := (name.reverse.dropWhile (· == '/')).reverse

/-- The last part of a path, without an ending. -/
def lastPart (ending path : Text) : Text :=
  let bareName := withoutSlashes path
  let name :=
    if bareName.isEmpty then (if path.isEmpty then [] else ['/'])
    else (bareName.reverse.takeWhile (· != '/')).reverse
  if !ending.isEmpty && name != ending && endsWith ending name then
    name.take (name.length - ending.length)
  else name

/-- Prints the last part of a path, or of each of some paths if an option says so. -/
def baseName : Service := fun request =>
  let (values, operands) := request.valued ['s']
  let print (ending : Text) (paths : List Text) : Served :=
    request.served.put (paths.flatMap fun path => lastPart ending path ++ ['\n'])
  match operands with
  | [] => request.served.misused request "missing operand".toList 1
  | path :: others =>
    if !values.isEmpty then print ((values.lookup 's').getD []) operands
    else
      match others with
      | _ :: extra :: _ =>
        request.served.misused request ("extra operand ".toList ++ quote extra) 1
      | _ => print (others.headD []) [path]

/-- Prints the path before the last part of a path. -/
def directoryName : Service := fun request =>
  match request.operands with
  | [] => request.served.misused request "missing operand".toList 1
  | operands =>
    operands.foldl (fun served path =>
      let front := (withoutSlashes path).reverse.dropWhile (· != '/')
      let directory := withoutSlashes front.reverse
      let shown :=
        if front.isEmpty then
          (if (withoutSlashes path).isEmpty && !path.isEmpty then ['/'] else ['.'])
        else if directory.isEmpty then ['/'] else directory
      served.put (shown ++ ['\n'])) request.served

end SlideDeck.Utility
