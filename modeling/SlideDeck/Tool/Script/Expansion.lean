import SlideDeck.Tool.Script.Arithmetic
import SlideDeck.Tool.Script.Pattern
import SlideDeck.Tool.Script.State

/-!
# Using the words of a script

When a word is used, values, sums and outputs are put into it. What was put in outside
quotes is cut at separators; what results and stood outside quotes, and is a pattern,
becomes the names of the files that match it.

How statements run to give an output is a matter of those who use the words, so it is
a parameter here.
-/

set_option autoImplicit false

namespace SlideDeck.Script

open SlideDeck SlideDeck.Text

/-- A part of what a word becomes. -/
inductive Scrap where
  /-- A character, whether it stood in quotes, and whether fields can be cut at it. -/
  | char (c : Char) (quoted cut : Bool)
  /-- Quotes, between which there may be nothing. -/
  | quotes
  /-- One field ends and another one begins. -/
  | gap
  deriving DecidableEq, Repr

/-! ## Fields -/

/-- Fields that are being made: those that are done, the last one first, and the open
one, its last character first. -/
structure Fields where
  done : List (List Mark) := []
  openField : Option (List Mark) := none
  /-- Whether the last field ended at blanks only. -/
  isSoft : Bool := false

namespace Fields

/-- Ends the open field. -/
def close (fields : Fields) (isSoft : Bool) : Fields :=
  match fields.openField with
  | some field => ⟨field.reverse :: fields.done, none, isSoft⟩
  | none => { fields with isSoft }

/-- Cuts at a separator. Blanks end a field; another separator ends a field even if it
is empty, and blanks beside it belong to it. -/
def cutAt (fields : Fields) (c : Char) : Fields :=
  if c == ' ' || c == '\t' || c == '\n' then
    fields.close (fields.openField.isSome || fields.isSoft)
  else if fields.openField.isSome || fields.isSoft then fields.close false
  else { fields with done := [] :: fields.done }

/-- Puts a part into the fields. -/
def add (separators : Text) (fields : Fields) : Scrap → Fields
  | .gap => fields.close false
  | .quotes => { fields with openField := some (fields.openField.getD []) }
  | .char c quoted cut =>
    if cut && separators.contains c then fields.cutAt c
    else
      { fields with openField := some ((c, quoted) :: fields.openField.getD []), isSoft := false }

end Fields

/-- The fields that parts make. -/
def fieldsOf (separators : Text) (scraps : List Scrap) : List (List Mark) :=
  ((scraps.foldl (Fields.add separators) {}).close false).done.reverse

/-- The one field that parts make where none are cut. -/
def fieldOf (scraps : List Scrap) : List Mark :=
  scraps.filterMap fun scrap =>
    match scrap with
    | .char c quoted _ => some (c, quoted)
    | _ => none

/-- The parts of a text that was put in. -/
def scrapsOfText (quoted cut : Bool) (s : Text) : List Scrap := s.map fun c => .char c quoted cut

/-! ## File names -/

/-- The parts of a path between its slashes. -/
def componentsOf : List Mark → List (List Mark)
  | [] => [[]]
  | (c, quoted) :: rest =>
    if c == '/' then [] :: componentsOf rest
    else
      match componentsOf rest with
      | [] => [[(c, quoted)]]
      | first :: others => ((c, quoted) :: first) :: others

/-- The paths that match the components of a pattern, behind a path that does. Names
with a period in front are matched only by such a pattern. -/
def pathsFrom (tree : FileTree) (here : Location) (front : Text) : List (List Mark) → List Text
  | [] => if tree.holds here (toText front) then [front] else []
  | component :: others =>
    let next (name : Text) : List Text :=
      match others with
      | [] => if tree.holds here (toText (front ++ name)) then [front ++ name] else []
      | _ => pathsFrom tree here (front ++ name ++ ['/']) others
    if isPattern component then
      match tree.list here (if front.isEmpty then Path.here else toText front) with
      | .error _ => []
      | .ok names =>
        let hidden := (textOf component).head? == some '.'
        (Path.here :: Path.above :: names.map ofText).flatMap fun name =>
          if matchesPattern component name && (hidden || name.head? != some '.') then next name
          else []
    else next (textOf component)

/-- What a field becomes: the paths that match it, or its text. -/
def resolve (tree : FileTree) (here : Location) (field : List Mark) : List Text :=
  if isPattern field then
    match pathsFrom tree here [] (componentsOf field) with
    | [] => [textOf field]
    | paths => paths.mergeSort Text.le
  else [textOf field]

/-! ## Values -/

namespace Shell

/-- The value of a parameter. Where one has to be set and is not, the script ends. -/
def value (name : Text) : Shell Text := do
  match ← parameter? name with
  | some value => return value
  | none =>
    if ← hasOption 'u' then fail (name ++ ": parameter not set".toList)
    return []

/-- The value of a parameter that does not count as missing. -/
def value? (evenEmpty : Bool) (name : Text) : Shell (Option Text) := do
  if name == ['@'] || name == ['*'] then
    let all := join [' '] (← get).arguments
    return if evenEmpty && all.isEmpty then none else some all
  match ← parameter? name with
  | some [] => return if evenEmpty then none else some []
  | value => return value

/-- All arguments, each changed in a way, as they are put into a word. -/
def argumentScraps (change : Text → Text) (isList quoted split : Bool) : Shell (List Scrap) := do
  let arguments := (← get).arguments.map change
  let separator := (← separators).take 1
  if quoted && !(isList && split) then
    return scrapsOfText true false (join (if isList then [' '] else separator) arguments)
  else if !split then return scrapsOfText quoted false (join [' '] arguments)
  else
    let each := arguments.map fun argument =>
      if quoted then .quotes :: scrapsOfText true false argument
      else scrapsOfText false true argument
    return (each.intersperse [.gap]).flatten

/-- The value of a sum whose text is known. -/
def evaluate (expression : Text) : Shell Text := do
  let state ← get
  let bindings : Text.Entries := state.bindings.filterMap fun (name, held) =>
    held.value.map fun value => (name, value)
  match (sumOf expression).bind (Sum.evaluate bindings) with
  | .error what => fail (what.message expression)
  | .ok (value, after) =>
    for (name, text) in after do
      if bindings.get? name != some text then assign name text
    return ofInt value

end Shell

/-- The texts from which a value is put into a word. -/
def isAll (name : Text) : Bool := name == ['@'] || name == ['*']

mutual

/-- What a piece becomes. `split` says whether fields are made, and `cut` whether even
plain text is cut. -/
def Piece.scraps (run : List Statement → Shell Text) (split cut : Bool) :
    Piece → Shell (List Scrap)
  | .plain text quoted => do
    if quoted && text.isEmpty then return [.quotes]
    let front := if quoted then [Scrap.quotes] else []
    return front ++ scrapsOfText quoted (cut && !quoted) text
  | .parameter name use quoted => use.scraps run split name quoted
  | .arithmetic expression quoted => do
    let text ← Piece.allScraps run false false expression
    return scrapsOfText quoted (!quoted) (← Shell.evaluate (textOf (fieldOf text)))
  | .output statements quoted => do
    return scrapsOfText quoted (!quoted) (← run statements)

/-- What is made of a value. -/
def Use.scraps (run : List Statement → Shell Text) (split : Bool) (name : Text) (quoted : Bool) :
    Use → Shell (List Scrap)
  | .value => do
    if isAll name then Shell.argumentScraps id (name == ['@']) quoted split
    else return scrapsOfText quoted (!quoted) (← Shell.value name)
  | .length => do
    if isAll name then
      return scrapsOfText quoted (!quoted) (ofNat (join [' '] (← get).arguments).length)
    else return scrapsOfText quoted (!quoted) (ofNat (← Shell.value name).length)
  | .orElse evenEmpty word => do
    match ← Shell.value? evenEmpty name with
    | some value =>
      if isAll name then Shell.argumentScraps id (name == ['@']) quoted split
      else return scrapsOfText quoted (!quoted) value
    | none => Piece.allScraps run split (!quoted) word
  | .orAssign evenEmpty word => do
    match ← Shell.value? evenEmpty name with
    | some value => return scrapsOfText quoted (!quoted) value
    | none =>
      if !isName name then Shell.fail (name ++ ": bad variable name".toList)
      let value := textOf (fieldOf (← Piece.allScraps run false false word))
      Shell.assign name value
      return scrapsOfText quoted (!quoted) value
  | .orFail evenEmpty message => do
    match ← Shell.value? evenEmpty name with
    | some value => return scrapsOfText quoted (!quoted) value
    | none =>
      let given := textOf (fieldOf (← Piece.allScraps run false false message))
      let message :=
        if !given.isEmpty then given
        else if evenEmpty then "parameter not set or null".toList
        else "parameter not set".toList
      Shell.fail (name ++ ": ".toList ++ message)
  | .ifThere evenEmpty word => do
    match ← Shell.value? evenEmpty name with
    | some _ => Piece.allScraps run split (!quoted) word
    | none => return []
  | .without atEnd longest pattern => do
    let pattern := fieldOf (← Piece.allScraps run false false pattern)
    let change := dropMatch atEnd longest pattern
    if isAll name then Shell.argumentScraps change (name == ['@']) quoted split
    else return scrapsOfText quoted (!quoted) (change (← Shell.value name))
  | .nonsense => Shell.fail "Bad substitution".toList

/-- What pieces become, one after the other. -/
def Piece.allScraps (run : List Statement → Shell Text) (split cut : Bool) :
    List Piece → Shell (List Scrap)
  | [] => return []
  | piece :: pieces => do
    let first ← piece.scraps run split cut
    return first ++ (← Piece.allScraps run split cut pieces)

end

/-! ## Words -/

namespace Word

/-- The pieces of a text outside quotes, with the home directory in place of a tilde at
its front that stands alone or before a slash. `isLast` says whether the word ends with the
text. -/
def atHome (home : Text) (isLast : Bool) : Text → List Piece
  | ['~'] => if isLast then [.plain home true] else [.plain ['~'] false]
  | '~' :: '/' :: rest => [.plain home true, .plain ('/' :: rest) false]
  | text => [.plain text false]

/-- The word with the home directory in place of a tilde at its front. -/
def withHome : Option Text → Word → Word
  | some home, .plain text false :: pieces => atHome home pieces.isEmpty text ++ pieces
  | _, word => word

/-- The word, which is the value of a variable, with the home directory in place of a tilde
at its front, and in that of one behind a colon. -/
def withHomes : Option Text → Word → Word
  | some home, .plain text false :: pieces =>
    let parts := (splitAt ':' text).map (atHome home pieces.isEmpty)
    (parts.intersperse [.plain [':'] false]).flatten ++ pieces
  | _, word => word

/-- What a word becomes. -/
def scraps (run : List Statement → Shell Text) (split : Bool) (word : Word) :
    Shell (List Scrap) := do
  Piece.allScraps run split false (withHome (← Shell.binding? "HOME".toList) word)

/-- The texts that a word becomes. -/
def expand (run : List Statement → Shell Text) (word : Word) : Shell (List Text) := do
  let fields := fieldsOf (← Shell.separators) (← scraps run true word)
  let state ← get
  if state.options.contains 'f' then return fields.map textOf
  return fields.flatMap (resolve state.files state.here)

/-- The texts that words become. -/
def expandAll (run : List Statement → Shell Text) : List Word → Shell (List Text)
  | [] => return []
  | word :: words => do
    let first ← expand run word
    return first ++ (← expandAll run words)

/-- The one field that a word becomes where none are cut. -/
def field (run : List Statement → Shell Text) (word : Word) : Shell (List Mark) := do
  return fieldOf (← scraps run false word)

/-- The one text that a word becomes where no fields are made. -/
def text (run : List Statement → Shell Text) (word : Word) : Shell Text := do
  return textOf (← field run word)

/-- The text that a word becomes as the value of a variable. -/
def assigned (run : List Statement → Shell Text) (word : Word) : Shell Text := do
  let word := withHomes (← Shell.binding? "HOME".toList) word
  return textOf (fieldOf (← Piece.allScraps run false false word))

/-- The commands whose arguments give values to variables. -/
def declaring : List Text := ["alias", "export", "local", "readonly"].map String.toList

/-- The text that a word becomes if it is written as a name with a value. -/
def assignment? (run : List Statement → Shell Text) : Word → Option (Shell Text)
  | .plain text false :: pieces =>
    match splitOnce '=' text with
    | some (name, value) =>
      if isName name then
        some do return name ++ '=' :: (← assigned run (.plain value false :: pieces))
      else none
    | none => none
  | _ => none

/-- The texts that the words of a command become. Behind the name of a command that gives
values to variables, values are not cut. -/
def expandCommand (run : List Statement → Shell Text) : List Word → Shell (List Text)
  | [] => return []
  | word :: words => do
    let front ← expand run word
    match front with
    | [] => expandCommand run words
    | [name] =>
      if name == "command".toList then return name :: (← expandCommand run words)
      else if declaring.contains name then
        let arguments ← words.mapM fun word =>
          match assignment? run word with
          | some text => do return [← text]
          | none => expand run word
        return name :: arguments.flatten
      else return name :: (← expandAll run words)
    | _ => return front ++ (← expandAll run words)

end Word

end SlideDeck.Script
