import SlideDeck.Tool.Script.Cursor
import SlideDeck.Tool.Script.Statement

/-!
# Reading scripts

A script is read line by line: `nextLine` reads the statements of one line, and of
the further lines that belong to them. What is wrong with a line is found only when
the lines before it have run.

Reading goes down into words and statements; each step down takes one of the fuel, of
which there is more than any text needs.
-/

set_option autoImplicit false

namespace SlideDeck.Script

open SlideDeck SlideDeck.Text

/-! ## Words -/

/-- Where pieces of words stand, which decides where they end and which characters
have a meaning. -/
inductive Context where
  /-- Outside quotes. -/
  | word
  /-- Between double quotes. -/
  | quotes
  /-- Between braces. -/
  | braces (quoted : Bool)
  /-- In a text of several lines. -/
  | document
  /-- In a sum, inside so many parentheses. -/
  | sum (depth : Nat)
  deriving DecidableEq, Repr

/-- Whether the text in a context counts as quoted. -/
def Context.isQuoted : Context → Bool
  | .word | .braces false => false
  | _ => true

/-- Puts a character that stands for itself before pieces. -/
def consPlain (c : Char) (quoted : Bool) : List Piece → List Piece
  | .plain text sameQuoted :: pieces =>
    if quoted == sameQuoted && !text.isEmpty then .plain (c :: text) quoted :: pieces
    else .plain [c] quoted :: .plain text sameQuoted :: pieces
  | pieces => .plain [c] quoted :: pieces

/-- Whether the pieces are all arguments and nothing else. -/
def isAllArguments : List Piece → Bool
  | [.parameter ['@'] .value true] => true
  | _ => false

/-- Whether a backslash before the character has a meaning in a context of quotes. -/
def isEscaped (context : Context) (c : Char) : Bool :=
  ['$', '\x60', '\\', '\n'].contains c || (c == '\x22' && context != .document) ||
    (c == '\x7d' && context == .braces true)

/-- The text up to the mark that ends an old way of putting in an output, without the
backslashes that protect something there, and the text behind the mark. -/
def untilBackquote (quoted : Bool) : Text → Option (Text × Text)
  | [] => none
  | '\x60' :: rest => some ([], rest)
  | '\\' :: c :: rest => do
    let (inner, behind) ← untilBackquote quoted rest
    if ['$', '\x60', '\\'].contains c || (quoted && c == '\x22') then return (c :: inner, behind)
    return ('\\' :: c :: inner, behind)
  | c :: rest => do
    let (inner, behind) ← untilBackquote quoted rest
    return (c :: inner, behind)

/-- The parameters whose name is one sign. -/
def isSign (c : Char) : Bool := ['@', '*', '#', '?', '$', '!', '-'].contains c

/-- The name of a parameter at the front of a text. -/
def parameterName (s : Text) : Text :=
  match s with
  | [] => []
  | c :: _ =>
    if isSign c then [c]
    else if c.isDigit then s.takeWhile Char.isDigit
    else s.takeWhile isNameChar

/-- The number of lines that a text ends. -/
def countLines (s : Text) : Nat := s.count '\n'

namespace Reader

/-- Goes behind text that may hold newlines. -/
def skipText (s : Text) : Reader Unit :=
  modify fun cursor =>
    { cursor with rest := cursor.rest.drop s.length, line := cursor.line + countLines s }

/-- Whether the keyword or operator that stands here ends a list of statements. -/
def atListEnd : Reader Bool := do
  let s ← rest
  return s.isEmpty || operator? s == some ")".toList || operator? s == some ";;".toList ||
    (keyword? s).any closers.contains

/-- The statement with redirections, if there are any. -/
def redirectedBy (line : Nat) (body : Statement) : List Redirection → Statement
  | [] => body
  | redirections => .redirected line body redirections

mutual

/-- Reads pieces of a word up to their end, which is left to be read unless they stand
between braces or quotes. -/
def pieces (context : Context) : Nat → Reader (List Piece)
  | 0 => problem .unterminatedQuote
  | fuel + 1 => do
    let s ← rest
    match s with
    | [] =>
      match context with
      | .word | .document => return []
      | .braces _ => problem .unterminatedBrace
      | .sum _ => problem .unterminatedSum
      | .quotes => problem .unterminatedQuote
    | c :: behind =>
      if context == .word && endsWord c then return []
      else if context == .quotes && c == '\x22' then
        advance
        return []
      else if (context == .braces true || context == .braces false) && c == '\x7d' then
        advance
        return []
      else if c == '\\' then backslash context behind fuel
      else if c == '$' then
        advance
        let piece ← dollar context.isQuoted fuel
        return piece :: (← pieces context fuel)
      else if c == '\x60' then
        let piece ← backquoted context.isQuoted fuel
        return piece :: (← pieces context fuel)
      else if c == '\x22' && context != .document then
        advance
        let inner ← pieces .quotes fuel
        let inner := if isAllArguments inner then inner else .plain [] true :: inner
        return inner ++ (← pieces context fuel)
      else if c == '\x27' && !context.isQuoted then
        match splitOnce '\x27' behind with
        | none =>
          modify fun cursor => { cursor with line := cursor.line + countLines behind }
          problem .unterminatedQuote
        | some (text, _) =>
          skipText ('\x27' :: text ++ ['\x27'])
          return .plain text true :: (← pieces context fuel)
      else
        match context with
        | .sum depth =>
          if c == '(' then plainHere (.sum (depth + 1)) c fuel
          else if c == ')' then
            match depth, behind with
            | depth + 1, _ => plainHere (.sum depth) c fuel
            | 0, ')' :: _ =>
              skip 2
              return []
            | 0, _ => plainHere context c fuel
          else plainHere context c fuel
        | _ => plainHere context c fuel
termination_by structural fuel => fuel

/-- Reads a character that stands for itself, and the pieces behind it. -/
def plainHere (context : Context) (c : Char) : Nat → Reader (List Piece)
  | 0 => problem .unterminatedQuote
  | fuel + 1 => do
    advance
    return consPlain c context.isQuoted (← pieces context fuel)
termination_by structural fuel => fuel

/-- Reads a backslash, with the text behind it, and the pieces behind what it
protects. -/
def backslash (context : Context) (behind : Text) : Nat → Reader (List Piece)
  | 0 => problem .unterminatedQuote
  | fuel + 1 => do
    advance
    match behind with
    | [] => return [.plain ['\\'] true]
    | c :: _ =>
      if context.isQuoted && !isEscaped context c then
        return consPlain '\\' true (← pieces context fuel)
      advance
      if c == '\n' then pieces context fuel
      else return consPlain c true (← pieces context fuel)
termination_by structural fuel => fuel

/-- Reads what stands behind a dollar sign. -/
def dollar (quoted : Bool) : Nat → Reader Piece
  | 0 => problem .unterminatedQuote
  | fuel + 1 => do
    match ← rest with
    | '(' :: '(' :: _ =>
      skip 2
      return .arithmetic (← pieces (.sum 0) fuel) quoted
    | '(' :: _ =>
      skip 1
      let statements ← list false fuel
      expectOperator ")"
      return .output statements quoted
    | '\x7b' :: _ =>
      skip 1
      braced quoted fuel
    | c :: behind =>
      if isSign c || c.isDigit then
        skip 1
        return .parameter [c] .value quoted
      else if isNameStart c then
        let name := (c :: behind).takeWhile isNameChar
        skip name.length
        return .parameter name .value quoted
      else return .plain ['$'] quoted
    | [] => return .plain ['$'] quoted
termination_by structural fuel => fuel

/-- Reads what stands between braces behind a dollar sign. -/
def braced (quoted : Bool) : Nat → Reader Piece
  | 0 => problem .unterminatedBrace
  | fuel + 1 => do
    let s ← rest
    let ofLength : Option Text :=
      match s with
      | '#' :: behind =>
        let name := parameterName behind
        if !name.isEmpty && behind[name.length]? == some '\x7d' then some name else none
      | _ => none
    match ofLength with
    | some name =>
      skip (name.length + 2)
      return .parameter name .length quoted
    | none =>
      let name := parameterName s
      skip name.length
      let word (use : List Piece → Use) (count : Nat) : Reader Piece := do
        skip count
        return .parameter name (use (← pieces (.braces quoted) fuel)) quoted
      let pattern (use : List Piece → Use) (count : Nat) : Reader Piece := do
        skip count
        return .parameter name (use (← pieces (.braces false) fuel)) quoted
      if name.isEmpty then
        return .parameter name ((fun _ => .nonsense) (← pieces (.braces quoted) fuel)) quoted
      match ← rest with
      | '\x7d' :: _ =>
        skip 1
        return .parameter name .value quoted
      | ':' :: '-' :: _ => word (.orElse true) 2
      | '-' :: _ => word (.orElse false) 1
      | ':' :: '=' :: _ => word (.orAssign true) 2
      | '=' :: _ => word (.orAssign false) 1
      | ':' :: '?' :: _ => word (.orFail true) 2
      | '?' :: _ => word (.orFail false) 1
      | ':' :: '+' :: _ => word (.ifThere true) 2
      | '+' :: _ => word (.ifThere false) 1
      | '%' :: '%' :: _ => pattern (.without true true) 2
      | '%' :: _ => pattern (.without true false) 1
      | '#' :: '#' :: _ => pattern (.without false true) 2
      | '#' :: _ => pattern (.without false false) 1
      | _ => word (fun _ => .nonsense) 0
termination_by structural fuel => fuel

/-- Reads statements between the old marks of an output. -/
def backquoted (quoted : Bool) : Nat → Reader Piece
  | 0 => problem .unterminatedQuote
  | fuel + 1 => do
    let cursor ← get
    match untilBackquote quoted (cursor.rest.drop 1) with
    | none =>
      modify fun cursor => { cursor with line := cursor.line + countLines cursor.rest }
      problem .unterminatedOutput
    | some (inner, behind) =>
      set { cursor with rest := inner }
      let statements ← list false fuel
      let here ← get
      if !here.rest.isEmpty then unexpected (some .endOfFile)
      set { here with rest := behind }
      return .output statements quoted
termination_by structural fuel => fuel

/-- Reads statements up to something that ends them. There has to be one if `needed`
says so. -/
def list (needed : Bool) : Nat → Reader (List Statement)
  | 0 => problem .unterminatedQuote
  | fuel + 1 => do
    skipLines
    if ← atListEnd then
      if needed && !(← rest).isEmpty then unexpected none else return []
    else
      let first ← chain fuel
      skipBlanks
      let s ← rest
      if operator? s == some ";".toList then
        skip 1
        return first :: (← list false fuel)
      else if operator? s == some "&".toList then
        skip 1
        return .background first :: (← list false fuel)
      else if startsWith ['\n'] s then return first :: (← list false fuel)
      else return [first]
termination_by structural fuel => fuel

/-- Reads a pipeline and those that depend on its success. -/
def chain : Nat → Reader Statement
  | 0 => problem .unterminatedQuote
  | fuel + 1 => do
    let first ← pipeline fuel
    chainFrom first fuel
termination_by structural fuel => fuel

/-- Reads pipelines that depend on the success of the one before. -/
def chainFrom (first : Statement) : Nat → Reader Statement
  | 0 => problem .unterminatedQuote
  | fuel + 1 => do
    skipBlanks
    let s ← rest
    if operator? s == some "&&".toList then
      skip 2
      skipLines
      let second ← pipeline fuel
      chainFrom (.pair first true second) fuel
    else if operator? s == some "||".toList then
      skip 2
      skipLines
      let second ← pipeline fuel
      chainFrom (.pair first false second) fuel
    else return first
termination_by structural fuel => fuel

/-- Reads commands with pipes between them. -/
def pipeline : Nat → Reader Statement
  | 0 => problem .unterminatedQuote
  | fuel + 1 => do
    skipBlanks
    if keyword? (← rest) == some "!".toList then
      skip 1
      skipBlanks
      if keyword? (← rest) == some "!".toList then unexpected none
      return .negated (← pipeline fuel)
    let first ← command fuel
    match ← pipesFrom fuel with
    | [] => return first
    | others => return .pipeline (first :: others)
termination_by structural fuel => fuel

/-- Reads further commands of a pipeline. -/
def pipesFrom : Nat → Reader (List Statement)
  | 0 => problem .unterminatedQuote
  | fuel + 1 => do
    skipBlanks
    if operator? (← rest) == some "|".toList then
      skip 1
      skipLines
      let next ← command fuel
      return next :: (← pipesFrom fuel)
    else return []
termination_by structural fuel => fuel

/-- Reads one command. -/
def command : Nat → Reader Statement
  | 0 => problem .unterminatedQuote
  | fuel + 1 => do
    skipBlanks
    let line := (← get).line
    let s ← rest
    if operator? s == some "(".toList then
      skip 1
      let body ← list true fuel
      expectOperator ")"
      return redirectedBy line (.subshell body) (← redirections fuel)
    match keyword? s with
    | none => simple line [] [] [] fuel
    | some keyword =>
      skip keyword.length
      let body ←
        if keyword == "\x7b".toList then do
          let body ← list true fuel
          expectKeyword "\x7d"
          pure (Statement.group body)
        else if keyword == "if".toList then branches fuel
        else if keyword == "while".toList then loop true fuel
        else if keyword == "until".toList then loop false fuel
        else if keyword == "for".toList then each line fuel
        else if keyword == "case".toList then select line fuel
        else do
          modify fun cursor => { cursor with rest := s }
          unexpected none
      return redirectedBy line body (← redirections fuel)
termination_by structural fuel => fuel

/-- Reads a choice behind its first word. -/
def branches : Nat → Reader Statement
  | 0 => problem .unterminatedQuote
  | fuel + 1 => do
    let test ← list true fuel
    expectKeyword "then"
    let yes ← list true fuel
    skipLines
    let s ← rest
    if keyword? s == some "elif".toList then
      skip 4
      return .choice test yes [← branches fuel]
    else if keyword? s == some "else".toList then
      skip 4
      let no ← list true fuel
      expectKeyword "fi"
      return .choice test yes no
    else
      expectKeyword "fi"
      return .choice test yes []
termination_by structural fuel => fuel

/-- Reads a loop behind its first word. -/
def loop (wanted : Bool) : Nat → Reader Statement
  | 0 => problem .unterminatedQuote
  | fuel + 1 => do
    let test ← list true fuel
    expectKeyword "do"
    let body ← list true fuel
    expectKeyword "done"
    return .loop wanted test body
termination_by structural fuel => fuel

/-- Reads a loop over items behind its first word. -/
def each (line : Nat) : Nat → Reader Statement
  | 0 => problem .unterminatedQuote
  | fuel + 1 => do
    skipBlanks
    match literal? (← rest) with
    | none => problem .badLoopVariable
    | some name =>
      if !isName name then problem .badLoopVariable
      skip name.length
      skipLines
      let items ←
        if keyword? (← rest) == some "in".toList then do
          skip 2
          let items ← words fuel
          pure (some items)
        else pure none
      skipBlanks
      if operator? (← rest) == some ";".toList then skip 1
      expectKeyword "do"
      let body ← list true fuel
      expectKeyword "done"
      return .each line name items body
termination_by structural fuel => fuel

/-- Reads words up to something else. -/
def words : Nat → Reader (List Word)
  | 0 => problem .unterminatedQuote
  | fuel + 1 => do
    skipBlanks
    match ← rest with
    | [] => return []
    | c :: _ =>
      if endsWord c then return []
      let first ← pieces .word fuel
      return first :: (← words fuel)
termination_by structural fuel => fuel

/-- Reads a choice between patterns behind its first word. -/
def select (line : Nat) : Nat → Reader Statement
  | 0 => problem .unterminatedQuote
  | fuel + 1 => do
    skipBlanks
    if foundAt (← rest) != .word && (keyword? (← rest)).isNone then unexpected (some .word)
    let subject ← pieces .word fuel
    expectKeyword "in"
    return .select line subject (← arms fuel)
termination_by structural fuel => fuel

/-- Reads the arms of a choice between patterns, up to the word that ends it. -/
def arms : Nat → Reader (List (List Word × List Statement))
  | 0 => problem .unterminatedQuote
  | fuel + 1 => do
    skipLines
    if keyword? (← rest) == some "esac".toList then
      skip 4
      return []
    if operator? (← rest) == some "(".toList then skip 1
    let patterns ← patterns fuel
    let body ← list false fuel
    skipLines
    if operator? (← rest) == some ";;".toList then
      skip 2
      return (patterns, body) :: (← arms fuel)
    else
      if keyword? (← rest) != some "esac".toList then unexpected (some (.fixed ";;".toList))
      skip 4
      return [(patterns, body)]
termination_by structural fuel => fuel

/-- Reads the patterns of an arm and the parenthesis behind them. -/
def patterns : Nat → Reader (List Word)
  | 0 => problem .unterminatedQuote
  | fuel + 1 => do
    skipBlanks
    if foundAt (← rest) != .word && (keyword? (← rest)).isNone then
      unexpected (some (.fixed [')']))
    let first ← pieces .word fuel
    skipBlanks
    if operator? (← rest) == some "|".toList then
      skip 1
      return first :: (← patterns fuel)
    expectOperator ")"
    return [first]
termination_by structural fuel => fuel

/-- Reads redirections. -/
def redirections : Nat → Reader (List Redirection)
  | 0 => problem .unterminatedQuote
  | fuel + 1 => do
    skipBlanks
    match descriptor? (← rest) with
    | none => return []
    | some (descriptor, signs) =>
      let first ← redirection descriptor signs fuel
      return first :: (← redirections fuel)
termination_by structural fuel => fuel

/-- Reads one redirection, whose signs begin the text. -/
def redirection (descriptor : Nat) (signs : Text) : Nat → Reader Redirection
  | 0 => problem .unterminatedQuote
  | fuel + 1 => do
    modify fun cursor => { cursor with rest := signs }
    let target (count : Nat) : Reader Word := do
      skip count
      skipBlanks
      if foundAt (← rest) != .word && (keyword? (← rest)).isNone then unexpected none
      pieces .word fuel
    match signs with
    | '<' :: '<' :: '-' :: _ => document descriptor 3 false fuel
    | '<' :: '<' :: _ => document descriptor 2 true fuel
    | '<' :: '&' :: _ => return .toDescriptor descriptor (← target 2)
    | '>' :: '&' :: _ => return .toDescriptor descriptor (← target 2)
    | '<' :: '>' :: _ => return .toFile descriptor .readAndWrite (← target 2)
    | '>' :: '>' :: _ => return .toFile descriptor .append (← target 2)
    | '>' :: '|' :: _ => return .toFile descriptor .replace (← target 2)
    | '<' :: _ => return .toFile descriptor .read (← target 1)
    | _ => return .toFile descriptor .write (← target 1)
termination_by structural fuel => fuel

/-- Reads the word that ends a text of several lines, and takes that text. -/
def document (descriptor count : Nat) (tabs : Bool) : Nat → Reader Redirection
  | 0 => problem .unterminatedQuote
  | fuel + 1 => do
    skip count
    skipBlanks
    if foundAt (← rest) != .word && (keyword? (← rest)).isNone then unexpected none
    let before ← rest
    let _ ← pieces .word fuel
    let written := before.take (before.length - (← rest).length)
    let (ending, quoted) := unquotedFrom none written
    let text ← takeLines tabs ending
    if quoted then return .toText descriptor [.plain text true]
    let cursor ← get
    set { cursor with rest := text }
    let content ← pieces .document fuel
    set cursor
    return .toText descriptor content
termination_by structural fuel => fuel

/-- Reads a simple command, of which some has been read. -/
def simple (line : Nat) (assignments : List (Text × Word)) (words : List Word)
    (redirections : List Redirection) : Nat → Reader Statement
  | 0 => problem .unterminatedQuote
  | fuel + 1 => do
    skipBlanks
    let s ← rest
    match descriptor? s with
    | some (descriptor, signs) =>
      let next ← redirection descriptor signs fuel
      simple line assignments words (redirections ++ [next]) fuel
    | none =>
      let isEmpty := assignments.isEmpty && words.isEmpty && redirections.isEmpty
      match s with
      | [] => if isEmpty then unexpected none else finish
      | c :: _ =>
        if endsWord c then
          if isEmpty || c == '(' then unexpected none else finish
        else
          let name := s.takeWhile isNameChar
          if words.isEmpty && isName name && s[name.length]? == some '=' then
            skip (name.length + 1)
            let value ← pieces .word fuel
            simple line (assignments ++ [(name, value)]) words redirections fuel
          else
            let word ← pieces .word fuel
            skipBlanks
            if isEmpty && operator? (← rest) == some "(".toList then
              skip 1
              expectOperator ")"
              match literal? s with
              | none => problem .badFunctionName
              | some name =>
                if !isName name then problem .badFunctionName
                skipLines
                return .define name (← command fuel)
            else simple line assignments (words ++ [word]) redirections fuel
termination_by structural fuel => fuel
where
  finish : Reader Statement := return .simple line assignments words redirections

end

end Reader

/-- Fuel for reading a text: a character takes fewer than sixteen steps down. -/
def readingFuel (s : Text) : Nat := 16 * s.length + 64

/-- Reads the rest of a line of statements, and of the lines that belong to it. -/
def Reader.lineFrom : Nat → Reader (List Statement)
  | 0 => problem .unterminatedQuote
  | limit + 1 => do
    let first ← chain (readingFuel (← rest))
    skipBlanks
    let s ← rest
    let separator := operator? s
    if separator == some ";".toList || separator == some "&".toList then
      skip 1
      skipBlanks
      let first := if separator == some "&".toList then .background first else first
      match ← rest with
      | [] | '\n' :: _ => return [first]
      | _ => return first :: (← lineFrom limit)
    else if s.isEmpty || startsWith ['\n'] s then return [first]
    else unexpected none

/-- Reads the statements of the next line, and of the lines that belong to it; none at the
end of the script. -/
def Reader.line : Reader (Option (List Statement)) := do
  skipLines
  let s ← rest
  if s.isEmpty then return none
  return some (← lineFrom (s.length + 1))

/-- The statements of the next line, and of the lines that belong to it; none at the
end of the script. -/
def nextLine (cursor : Cursor) : Except (Nat × Problem) (Option (List Statement) × Cursor) :=
  StateT.run Reader.line cursor

end SlideDeck.Script
