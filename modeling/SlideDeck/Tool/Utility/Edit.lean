import SlideDeck.Tool.Utility.Expression
import SlideDeck.Tool.Utility.LineUtility

/-!
# Editing lines

The program that edits lines. An edit says on which lines it works, and what it does
there: it replaces what an expression finds, or characters, shows the line or takes it
away, or adds another one.
-/

set_option autoImplicit false

namespace SlideDeck.Utility

open SlideDeck SlideDeck.Text SlideDeck.Script

/-- A place among lines. -/
inductive Address where
  | line (number : Nat)
  | last
  | matching (expression : Expression)
  deriving Repr

/-- The lines on which an edit works. -/
inductive Scope where
  | all
  | only (address : Address)
  /-- From a line on up to another one. -/
  | range (first second : Address)
  deriving Repr

/-- What is done to a line. -/
inductive Action where
  /-- Replaces the part that is found as the `number`-th, and those behind it if
  `everywhere` says so. -/
  | replace (expression : Expression) (replacement : Text) (number : Nat)
    (everywhere shows ignoringCase : Bool)
  | exchange (wanted replacements : Text)
  | print
  | number
  | delete
  | quit
  /-- A text is shown behind the line, before it, or in its place. -/
  | append (text : Text)
  | insert (text : Text)
  | change (text : Text)
  deriving Repr

/-- An edit. -/
structure Edit where
  scope : Scope
  /-- It works on all other lines instead. -/
  isNegated : Bool := false
  action : Action
  deriving Repr

namespace Edit

/-! ## Reading -/

/-- The text up to a mark that no backslash protects, and the text behind it. -/
def upTo (mark : Char) : Text → Text × Text
  | [] => ([], [])
  | '\\' :: c :: rest =>
    let (text, behind) := upTo mark rest
    (if c == mark then c :: text else '\\' :: c :: text, behind)
  | c :: rest =>
    if c == mark then ([], rest)
    else
      let (text, behind) := upTo mark rest
      (c :: text, behind)

/-- The place at the front of a text. -/
def address? (extended : Bool) (s : Text) : Option (Address × Text) :=
  match s with
  | '$' :: rest => some (.last, rest)
  | '/' :: rest =>
    let (source, rest) := upTo '/' rest
    some (.matching (Expression.read extended source), rest)
  | _ =>
    (digits? (s.takeWhile Char.isDigit)).map fun number =>
      (.line number, s.dropWhile Char.isDigit)

/-- Where an edit works, and the text behind that. -/
def scopeAt (extended : Bool) (s : Text) : Scope × Text :=
  match address? extended s with
  | none => (.all, s)
  | some (first, ',' :: rest) =>
    match address? extended rest with
    | some (second, rest) => (.range first second, rest)
    | none => (.only first, rest)
  | some (first, rest) => (.only first, rest)

/-- The text of a line that is added, and what is behind it. -/
def addedLine (s : Text) : Text × Text :=
  let isGap (c : Char) : Bool := c == ' ' || c == '\t'
  let s := s.dropWhile isGap
  let s :=
    match s with
    | '\\' :: '\n' :: rest => rest
    | '\\' :: rest => rest
    | _ => s
  (s.takeWhile (· != '\n'), s.dropWhile (· != '\n'))

/-- What is done, and the text behind it. -/
def action? (extended : Bool) (s : Text) : Option (Action × Text) :=
  match s with
  | 's' :: mark :: rest =>
    let (source, rest) := upTo mark rest
    let (replacement, rest) := upTo mark rest
    let flags := rest.takeWhile Char.isAlphanum
    let number := (digits? (flags.filter Char.isDigit)).getD 1
    some (.replace (Expression.read extended source) replacement number (flags.contains 'g')
      (flags.contains 'p') (flags.contains 'I' || flags.contains 'i'), rest.drop flags.length)
  | 'y' :: mark :: rest =>
    let (wanted, rest) := upTo mark rest
    let (replacements, rest) := upTo mark rest
    some (.exchange wanted replacements, rest)
  | 'p' :: rest => some (.print, rest)
  | '=' :: rest => some (.number, rest)
  | 'd' :: rest => some (.delete, rest)
  | 'q' :: rest => some (.quit, rest)
  | 'a' :: rest => let (text, rest) := addedLine rest; some (.append text, rest)
  | 'i' :: rest => let (text, rest) := addedLine rest; some (.insert text, rest)
  | 'c' :: rest => let (text, rest) := addedLine rest; some (.change text, rest)
  | _ => none

/-- Reads edits. -/
def readAll (extended : Bool) : Nat → Text → List Edit
  | 0, _ => []
  | fuel + 1, s =>
    let isGap (c : Char) : Bool := c == ' ' || c == '\t' || c == ';' || c == '\n'
    let (scope, rest) := scopeAt extended (s.dropWhile isGap)
    let rest := rest.dropWhile (· == ' ')
    let isNegated := startsWith ['!'] rest
    let rest := (if isNegated then rest.drop 1 else rest).dropWhile (· == ' ')
    match action? extended rest with
    | some (action, rest) => ⟨scope, isNegated, action⟩ :: readAll extended fuel rest
    | none => []

/-! ## Working -/

/-- The text of a replacement for what was found. -/
def filled (found : Expression.Found) : Text → Text
  | [] => []
  | '\\' :: c :: rest =>
    match digits? [c] with
    | some 0 => found.text ++ filled found rest
    | some number => (found.groups.lookup number).getD [] ++ filled found rest
    | none => (if c == 'n' then '\n' else if c == 't' then '\t' else c) :: filled found rest
  | '&' :: rest => found.text ++ filled found rest
  | c :: rest => c :: filled found rest

/-- Replaces what an expression finds in a line behind a character, from the `number`-th
part on; answers the line if anything was replaced. Nothing is found directly behind what
was found before unless it is some text; `isBehind` says whether that is so here. -/
def replaceFrom (expression : Expression) (replacement : Text) (everywhere ignoringCase : Bool) :
    Nat → Nat → Bool → Option Char → Text → Option Text
  | 0, _, _, _, _ => none
  | limit + 1, number, isBehind, before, s =>
    let goOn := replaceFrom expression replacement everywhere ignoringCase limit
    match expression.findFrom ignoringCase before s with
    | none => none
    | some found =>
      if isBehind && found.before.isEmpty && found.text.isEmpty then
        match s with
        | [] => none
        | c :: rest => (goOn number false (some c) rest).map (c :: ·)
      else
        let front := found.before ++ if number ≤ 1 then filled found replacement else found.text
        let last := (found.before ++ found.text).getLast?.or before
        if number ≤ 1 then
          let behind := if everywhere then goOn 1 true last found.behind else none
          some (front ++ behind.getD found.behind)
        else (goOn (number - 1) true last found.behind).map (front ++ ·)

end Edit

/-- A line while it is edited. What is shown goes with whether a newline ends it, should
nothing else be shown behind it. -/
structure Edited where
  line : Text
  /-- Whether a newline ends the line. -/
  ends : Bool
  /-- What is shown before the line, and behind it. -/
  shown : List (Text × Bool) := []
  later : List (Text × Bool) := []
  isGone : Bool := false
  isLast : Bool := false

/-- Whether a line is at a place. -/
def Address.holds (number : Nat) (isLast : Bool) (line : Text) : Address → Bool
  | .line wanted => wanted == number
  | .last => isLast
  | .matching expression => (expression.find? false line).isSome

/-- Whether an edit works on a line, and whether it works on the next one, if `isOpen` says
that it has worked on the line before. -/
def Scope.holds (number : Nat) (isLast : Bool) (line : Text) (isOpen : Bool) :
    Scope → Bool × Bool
  | .all => (true, false)
  | .only address => (address.holds number isLast line, false)
  | .range first second =>
    if isOpen then (true, !second.holds number isLast line)
    else if first.holds number isLast line then
      match second with
      | .line wanted => (true, decide (number < wanted))
      | _ => (true, !isLast)
    else (false, false)

/-- Does something to a line. -/
def Action.apply (number : Nat) (edited : Edited) : Action → Edited
  | .print => { edited with shown := edited.shown ++ [(edited.line, edited.ends)] }
  | .number => { edited with shown := edited.shown ++ [(ofNat number, true)] }
  | .delete => { edited with isGone := true }
  | .quit => { edited with isLast := true }
  | .append text => { edited with later := edited.later ++ [(text, true)] }
  | .insert text => { edited with shown := edited.shown ++ [(text, true)] }
  | .change text => { edited with shown := edited.shown ++ [(text, true)], isGone := true }
  | .exchange wanted replacements =>
    { edited with line := edited.line.map fun c =>
        if wanted.contains c then (replacements[wanted.idxOf c]?).getD c else c }
  | .replace expression replacement number everywhere shows ignoringCase =>
    match Edit.replaceFrom expression replacement everywhere ignoringCase
      (2 * edited.line.length + 2) number false none edited.line with
    | none => edited
    | some line =>
      { edited with line, shown := edited.shown ++ if shows then [(line, edited.ends)] else [] }

/-- Does edits to a line. Answers which of them are open for the next line. -/
def applyAll (number : Nat) (isLast : Bool) :
    List (Edit × Bool) → Edited → Edited × List (Edit × Bool)
  | [], edited => (edited, [])
  | (edit, isOpen) :: edits, edited =>
    if edited.isGone || edited.isLast then (edited, (edit, isOpen) :: edits)
    else
      let (isIn, staysOpen) := edit.scope.holds number isLast edited.line isOpen
      let edited := if isIn != edit.isNegated then edit.action.apply number edited else edited
      let (edited, edits) := applyAll number isLast edits edited
      (edited, (edit, staysOpen) :: edits)

/-- The lines that edits make of lines, which are numbered from `number` on. -/
def editLines (quiet : Bool) : List (Edit × Bool) → Nat → List Text → List (Text × Bool)
  | _, _, [] => []
  | edits, number, line :: lines =>
    let (edited, edits) := applyAll number lines.isEmpty edits
      { line := bare line, ends := line.contains '\n' }
    let own := if quiet || edited.isGone then [] else [(edited.line, edited.ends)]
    edited.shown ++ own ++ edited.later ++
      (if edited.isLast then [] else editLines quiet edits (number + 1) lines)

/-- The text that edits make of a text. -/
def editText (quiet : Bool) (edits : List (Edit × Bool)) (text : Text) : Text :=
  let lines := editLines quiet edits 1 (linesOf text)
  join ['\n'] (lines.map Prod.fst) ++
    match lines.getLast? with
    | some (_, true) => ['\n']
    | _ => []

/-- Edits the lines of files. -/
def edit : Service := fun request =>
  let (values, operands) := request.valued ['e']
  let has (letter : Char) : Bool := values.any fun value => value.1 == letter
  let given := (values.filter fun value => value.1 == 'e').map Prod.snd
  let (sources, operands) :=
    if given.isEmpty then (operands.take 1, operands.drop 1) else (given, operands)
  let source := join ['\n'] sources
  let edits := (Edit.readAll (has 'E' || has 'r') (source.length + 1) source).map (·, false)
  if has 'i' then
    operands.foldl (fun served operand =>
      match request.content operand with
      | .error fault =>
        served.tell request ("can't read ".toList ++ operand ++ ": ".toList ++ fault.words) 2
      | .ok content =>
        let edited := toBytes (editText (has 'n') edits content)
        served.take request operand (served.files.write request.here (toText operand) edited))
      request.served
  else
    let (served, text) := (if operands.isEmpty then [['-']] else operands).foldl
      (fun (served, text) operand =>
        match request.content operand with
        | .ok content => (served, text ++ content)
        | .error fault =>
          (served.tell request ("can't read ".toList ++ operand ++ ": ".toList ++ fault.words) 2,
            text)) (request.served, [])
    served.put (editText (has 'n') edits text)

end SlideDeck.Utility
