import SlideDeck.CommandLine.Argument
import SlideDeck.Path

/-!
# Invocations

What the program can be asked to do, and how that is read from its arguments.
-/

set_option autoImplicit false

namespace SlideDeck.CommandLine

open SlideDeck SlideDeck.Text

/-! ## Invocations -/

/-- The arguments about the look of a document. -/
structure LookArguments where
  theme : Option Text := none
  colorTheme : Option Text := none
  aspectRatio : Option Text := none
  /-- The name of a theme of one's own. -/
  own : Option Text := none
  title : Option Text := none
  author : Option Text := none
  deriving DecidableEq, Repr

/-- The arguments about the typesetting engine. -/
structure EngineArguments where
  engine : Option Text := none
  passes : Option Nat := none
  deriving DecidableEq, Repr

/-- The arguments about a page. -/
structure PageArguments where
  theme : Option Text := none
  stylesheets : List Text := []
  scripts : List Text := []
  /-- Whether resources are embedded or linked, as it was written. -/
  mode : Text := "embed".toList
  deriving DecidableEq, Repr

/-- What can be done with themes of one's own. -/
inductive ThemeRequest where
  | list
  | view (name : Text)
  | add (name base color aspectRatio : Text)
  | remove (name : Text)
  deriving DecidableEq, Repr

/-- What the program can be asked to do. -/
inductive Request where
  | nothing
  | convert (input : Path) (output : Option Path) (look : LookArguments)
  | build (input : Path) (engine : EngineArguments) (look : LookArguments)
  | page (input : Path) (output : Option Path) (page : PageArguments)
  | lint (input : Path) (fix : Bool)
  | preview (input : Path) (pages : Option Text) (width : Option Nat) (directory : Option Path)
      (engine : EngineArguments)
  | watch (input : Path) (html : Option Path) (compile serve : Bool) (settleTime : Option Nat)
      (engine : EngineArguments) (look : LookArguments) (page : PageArguments)
  | theme (request : ThemeRequest)
  deriving DecidableEq, Repr

/-- A request, and the level of its log. -/
structure Invocation where
  request : Request
  logLevel : Text
  deriving DecidableEq, Repr

/-! ## The levels -/

/-- An option with one value. -/
def single (name about : String) (kind : ValueKind := .text) : OptionSpec :=
  { name := name.toList, kind := .single kind, about := about.toList }

/-- A flag. -/
def flag (name about : String) : OptionSpec :=
  { name := name.toList, kind := .flag, about := about.toList }

/-- A list. -/
def listOf (name about : String) : OptionSpec :=
  { name := name.toList, kind := .list, about := about.toList }

/-- An option with the value that counts where none is given. -/
def OptionSpec.or (spec : OptionSpec) (standard : String) : OptionSpec :=
  { spec with standard := some standard.toList }

/-- The option for where the result goes. -/
def outputAs (name about : String) : OptionSpec :=
  { single name about .path with letter := some 'o' }

/-- The file that a command is about. -/
def inputFile (about : String) : OperandSpec := ⟨"INPUT".toList, .path, about.toList⟩

/-- The name of a theme that a command is about. -/
def themeName : OperandSpec := ⟨"NAME".toList, .text, []⟩

/-- The option of every level. -/
def logLevel : OptionSpec :=
  (single "log-level" "Log level (off, error, warn, info, debug, trace)").or "warn"

/-- The options about the look of a document. -/
def lookOptions : List OptionSpec := [
  single "theme" "Beamer theme (frontmatter takes precedence)",
  single "color-theme" "Beamer color theme (frontmatter takes precedence)",
  single "aspect-ratio" "Aspect ratio, e.g. 169 or 43 (frontmatter takes precedence)",
  single "custom-theme" "Name of a saved custom theme to use as defaults",
  single "title" "Title used when the frontmatter has none",
  single "author" "Author used when the frontmatter has none"]

/-- The option for the typesetting engine. -/
def engineOption : OptionSpec :=
  single "engine" "Typesetting engine, e.g. pdflatex, xelatex, lualatex"

/-- The option for the passes of the engine. -/
def passesOption : OptionSpec := single "passes" "Number of engine passes" (.number bound32)

/-- The options about a page. -/
def pageOptions : List OptionSpec := [
  single "html-theme" "HTML theme name for the linked <theme>.css and <theme>.js",
  listOf "css" "CSS files to include (local paths or URLs)",
  listOf "js" "JavaScript files to include (local paths or URLs)",
  (single "mode" "Mode for CSS/JS: 'embed' to embed content or 'link' to reference").or "embed"]

/-- The level of `convert`. -/
def convertLevel : Level where
  path := ["convert".toList]
  about := "Convert Markdown to Beamer LaTeX".toList
  options := logLevel :: outputAs "output"
    "Path to the output .tex file (defaults to the input with a .tex extension)" :: lookOptions
  operands := [inputFile "Path to the Markdown file"]

/-- The level of `build`. -/
def buildLevel : Level where
  path := ["build".toList]
  about := "Build a PDF from Markdown or LaTeX (convert, lint, compile)".toList
  options := engineOption :: logLevel :: passesOption :: lookOptions
  operands := [inputFile "Path to the Markdown or LaTeX file"]

/-- The level of `html`. -/
def pageLevel : Level where
  path := ["html".toList]
  about := "Export Beamer LaTeX as a single HTML page".toList
  options := logLevel :: outputAs "output"
    "Path to output HTML file (defaults to the input with a .html extension)" :: pageOptions
  operands := [inputFile "Path to the LaTeX file"]

/-- The level of `lint`. -/
def lintLevel : Level where
  path := ["lint".toList]
  about := "Check Beamer LaTeX for structural problems".toList
  options := [flag "fix" "Attempt automatic fixes before checking", logLevel]
  operands := [inputFile "Path to the LaTeX file"]

/-- The level of `preview`. -/
def previewLevel : Level where
  path := ["preview".toList]
  about := "Render PDF pages to images".toList
  options := [logLevel,
    single "pages" "Pages to render: N, N-M or N-",
    single "width" "Image width in pixels" (.number bound32),
    outputAs "output-dir" "Directory for the page images (defaults to the input's directory)",
    engineOption, passesOption]
  operands := [inputFile "Path to a LaTeX file (compiled first) or a PDF"]

/-- The level of `watch`. -/
def watchLevel : Level where
  path := ["watch".toList]
  about := "Rebuild outputs whenever the source changes".toList
  options := [single "html" "Also write an HTML export to this path" .path,
    logLevel,
    flag "no-compile" "Skip PDF compilation",
    flag "serve" "Serve the HTML export over HTTP",
    (single "port" "Port for the local web server" (.number 65536)).or "8080",
    single "debounce-ms" "Debounce time in milliseconds" (.number bound64),
    engineOption, passesOption] ++ lookOptions ++ pageOptions
  operands := [inputFile "Path to the Markdown or LaTeX file"]

/-- The level of `theme list`. -/
def themeListLevel : Level where
  path := ["theme".toList, "list".toList]
  about := "List saved themes".toList
  options := [logLevel]

/-- The level of `theme show`. -/
def themeViewLevel : Level where
  path := ["theme".toList, "show".toList]
  about := "Show one saved theme".toList
  options := [logLevel]
  operands := [themeName]

/-- The level of `theme add`. -/
def themeAddLevel : Level where
  path := ["theme".toList, "add".toList]
  about := "Save a theme, replacing one with the same name".toList
  options := [{ single "base" "Beamer theme" with wanted := true },
    logLevel,
    (single "color" "Beamer color theme").or "default",
    (single "aspect-ratio" "Aspect ratio").or "169"]
  operands := [themeName]

/-- The level of `theme remove`. -/
def themeRemoveLevel : Level where
  path := ["theme".toList, "remove".toList]
  about := "Delete a saved theme".toList
  options := [logLevel]
  operands := [themeName]

/-- The name and the subject of a level, as the level around it lists them. -/
def Level.listed (level : Level) : Text × Text := (level.path.getLastD [], level.about)

/-- The levels of the commands of `theme`. -/
def themeCommands : List Level := [themeListLevel, themeViewLevel, themeAddLevel, themeRemoveLevel]

/-- The level of `theme`. -/
def themeLevel : Level where
  path := ["theme".toList]
  about := "Manage custom themes".toList
  options := [logLevel]
  commands := themeCommands.map Level.listed

/-- The levels of the commands. -/
def commandLevels : List Level :=
  [convertLevel, buildLevel, pageLevel, lintLevel, previewLevel, watchLevel, themeLevel]

/-- The outermost level. -/
def topLevel : Level where
  path := []
  about :=
    ("A command-line tool for converting, linting, exporting and previewing Beamer " ++
      "presentations").toList
  options := [logLevel]
  commands := commandLevels.map Level.listed

/-- All levels. -/
def levels : List Level := topLevel :: commandLevels ++ themeCommands

/-! ## Reading -/

namespace Given

/-- The first operand. -/
def input (given : Given) : Text := given.operands.headD []

/-- The arguments about the look of a document. -/
def look (given : Given) : LookArguments where
  theme := given.value? "theme"
  colorTheme := given.value? "color-theme"
  aspectRatio := given.value? "aspect-ratio"
  own := given.value? "custom-theme"
  title := given.value? "title"
  author := given.value? "author"

/-- The arguments about the typesetting engine. -/
def engine (given : Given) : EngineArguments where
  engine := given.value? "engine"
  passes := given.number? "passes" bound32

/-- The arguments about a page. -/
def page (given : Given) : PageArguments where
  theme := given.value? "html-theme"
  stylesheets := given.items "css"
  scripts := given.items "js"
  mode := (given.value? "mode").getD "embed".toList

end Given

/-- Reads a request about themes of one's own. -/
def readTheme (arguments : List Text) : Except Stop (ThemeRequest × List Given) := do
  let (outer, command) ← themeLevel.readCommand arguments
  match command with
  | none => throw .misuse
  | some (name, rest) =>
    if name == "list".toList then
      let given ← themeListLevel.readAll rest
      return (.list, [given, outer])
    else if name == "add".toList then
      let given ← themeAddLevel.readAll rest
      return (.add given.input ((given.value? "base").getD [])
        ((given.value? "color").getD "default".toList)
        ((given.value? "aspect-ratio").getD "169".toList), [given, outer])
    else if name == "show".toList then
      let given ← themeViewLevel.readAll rest
      return (.view given.input, [given, outer])
    else
      let given ← themeRemoveLevel.readAll rest
      return (.remove given.input, [given, outer])

/-- Reads a request behind the name of its command. -/
def readRequest (name : Text) (rest : List Text) : Except Stop (Request × List Given) := do
  if name == "theme".toList then
    let (request, levels) ← readTheme rest
    return (.theme request, levels)
  else if name == "convert".toList then
    let given ← convertLevel.readAll rest
    return (.convert given.input (given.value? "output") given.look, [given])
  else if name == "build".toList then
    let given ← buildLevel.readAll rest
    return (.build given.input given.engine given.look, [given])
  else if name == "html".toList then
    let given ← pageLevel.readAll rest
    return (.page given.input (given.value? "output") given.page, [given])
  else if name == "lint".toList then
    let given ← lintLevel.readAll rest
    return (.lint given.input (given.has "fix"), [given])
  else if name == "preview".toList then
    let given ← previewLevel.readAll rest
    return (.preview given.input (given.value? "pages") (given.number? "width" bound32)
      (given.value? "output-dir") given.engine, [given])
  else
    let given ← watchLevel.readAll rest
    return (.watch given.input (given.value? "html") (!given.has "no-compile")
      (given.has "serve") (given.number? "debounce-ms" bound64) given.engine given.look given.page,
      [given])

/-- The level of the log, of which the innermost one that is given counts. -/
def logLevelOf (levels : List Given) : Text :=
  (levels.findSome? fun given => given.value? "log-level").getD "warn".toList

/-- Reads the arguments of the program. -/
def Invocation.read (arguments : List Text) : Except Stop Invocation := do
  let (outer, command) ← topLevel.readCommand arguments
  match command with
  | none => return ⟨.nothing, logLevelOf [outer]⟩
  | some (name, rest) =>
    let (request, levels) ← readRequest name rest
    return ⟨request, logLevelOf (levels ++ [outer])⟩

end SlideDeck.CommandLine
