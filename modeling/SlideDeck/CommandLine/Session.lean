import SlideDeck.Build.Preview
import SlideDeck.Build.Watch
import SlideDeck.CommandLine.Invocation
import SlideDeck.Theme.Store

/-!
# Sessions

A session does one request in a workspace. What goes wrong is a complaint: the
failure of an activity, or a cause that only requests have.
-/

set_option autoImplicit false

namespace SlideDeck.CommandLine

open SlideDeck SlideDeck.Text

/-! ## Complaints -/

/-- Why a request was not done. -/
inductive Complaint where
  | failed (failure : Failure)
  | inputUnreadable (path : Path) (fault : SystemFault)
  | outputUnwritable (path : Path) (fault : SystemFault)
  | unreadable (fault : SystemFault)
  | unknownTheme (name : Text)
  deriving DecidableEq, Repr

/-- The fault of the system behind a failure. -/
def causeOf? : Failure → Option SystemFault
  | .unreadable fault => some fault
  | .unwritable _ fault => some fault
  | _ => none

/-- The wording of a complaint: a failure is followed by the fault behind it. -/
def Complaint.message : Complaint → Text
  | .failed failure =>
    failure.message ++
      (match causeOf? failure with
        | some fault => ": ".toList ++ fault.message
        | none => [])
  | .inputUnreadable path fault =>
    "Failed to read ".toList ++ path ++ ": ".toList ++ fault.message
  | .outputUnwritable path fault =>
    "Failed to write ".toList ++ path ++ ": ".toList ++ fault.message
  | .unreadable fault => fault.message
  | .unknownTheme name => "Unknown custom theme: ".toList ++ name

/-- The doing of a request. -/
abbrev Session := ReaderT Host (ExceptT Complaint (StateM Workspace))

namespace Session

/-- An activity as a part of a session. -/
def of {α : Type} (activity : Activity α) : Session α := fun host =>
  ExceptT.adapt Complaint.failed (activity host)

/-- The result, or the complaint that the fault means. -/
def orComplain {α : Type} (complaint : SystemFault → Complaint) :
    Except SystemFault α → Session α
  | .ok value => pure value
  | .error fault => throw (complaint fault)

/-! ## Options -/

/-- The variables of the environment. -/
abbrev Environment := Text.Entries

/-- The directory of themes where no setting names one. -/
def defaultThemes? (environment : Environment) : Option Path :=
  let home := (environment.get? "HOME".toList).filter fun (home : Text) => !home.isEmpty
  let base :=
    ((environment.get? "XDG_CONFIG_HOME".toList).filter Path.isAbsolute).or
      (home.map fun home => Path.child home ".config".toList)
  base.map fun base => Path.child (Path.child base "beamer-slides".toList) "themes".toList

/-- The store of themes. -/
def themeStore (environment : Environment) (settings : Settings) : Session ThemeStore :=
  match settings.themeDirectory.or (defaultThemes? environment) with
  | some directory => pure ⟨directory⟩
  | none => throw (.failed (.theme .noConfigurationDirectory))

/-- The theme with a name. -/
def themeNamed (store : ThemeStore) (name : Text) : Session Theme := do
  match ← of (store.get name) with
  | some theme => return theme
  | none => throw (.unknownTheme name)

/-- The options of a document. -/
def documentOptions (environment : Environment) (settings : Settings) (look : LookArguments) :
    Session Document.Options := do
  let own ←
    match look.own with
    | some name => some <$> themeNamed (← themeStore environment settings) name
    | none => pure none
  return { settings.documentOptions own look.theme look.colorTheme look.aspectRatio with
    title := look.title
    author := look.author }

/-- Whether a mode embeds resources. -/
def embeds (mode : Text) : Session Bool :=
  if mode == "embed".toList then pure true
  else if mode == "link".toList then pure false
  else throw (.failed (.invalid (.resourceMode mode)))

/-- The options of a page. -/
def pageOptions (settings : Settings) (page : PageArguments) : Session PageOptions := do
  let embed ← embeds page.mode
  return settings.pageOptions page.theme (page.stylesheets.map Resource.mk)
    (page.scripts.map Resource.mk) embed

/-- The options of a compilation. -/
def compileOptions (settings : Settings) (engine : EngineArguments) : CompileOptions :=
  settings.compileOptions engine.engine engine.passes

/-! ## Requests -/

/-- The text of a file that was given as the input. -/
def readInput (path : Path) : Session Text := do
  of (Activity.checkFile path)
  orComplain (.inputUnreadable path)
    (← of (Activity.look fun tree here => tree.readText here path))

/-- Converts a Markdown file to a LaTeX file. -/
def convertFile (input output : Path) (options : Document.Options) : Session Unit := do
  let latex ← of (Build.convert (← readInput input) options)
  of (Activity.ensureParent output)
  orComplain (.outputUnwritable output)
    (← of (Activity.change fun tree here => tree.write here output (Utf8.encode latex)))

/-- Tells that something was made. -/
def tell (what : String) (path : Path) : Session Unit :=
  of (Activity.printLine (what.toList ++ ": ".toList ++ quoted path))

/-- Converts a Markdown file. Without an output the LaTeX file is beside it. -/
def convert (input : Path) (output : Option Path) (options : Document.Options) :
    Session Unit := do
  let output := output.getD (Path.withExtension "tex".toList input)
  convertFile input output options
  tell "LaTeX generated successfully" output

/-- Prints the report about a file, and refuses it if it has errors that stop a
build. -/
def checkBeforeBuild (file : Path) : Session Unit := do
  let source ← readInput file
  of (Activity.print (Lint.report file (Lint.issues source)))
  match Lint.blockers source with
  | [] => pure ()
  | blockers => throw (.failed (.lintFailed blockers.length))

/-- Makes a PDF file of a LaTeX file. -/
def buildLatex (file : Path) (options : CompileOptions) : Session Unit := do
  checkBeforeBuild file
  tell "PDF built successfully" (← of (Build.compile file options))

/-- Makes a PDF file of a Markdown or LaTeX file. -/
def build (environment : Environment) (settings : Settings) (input : Path)
    (engine : EngineArguments) (look : LookArguments) : Session Unit := do
  if Build.isMarkdown input then
    convertFile input (Build.latexPath input) (← documentOptions environment settings look)
  buildLatex (Build.latexPath input) (compileOptions settings engine)

/-- Makes a page of a LaTeX file. Without an output the page is beside it. -/
def page (input : Path) (output : Option Path) (options : PageOptions) : Session Unit := do
  let output := output.getD (Path.withExtension "html".toList input)
  of (do Page.save (← Page.ofFile input options) output)
  tell "HTML generated successfully" output

/-- Mends a file, as far as that can be done. -/
def mend (file : Path) : Session Unit := do
  let source ← orComplain .unreadable
    (← of (Activity.look fun tree here => tree.readText here file))
  of (Activity.noticeAll Lint.fixNotices)
  if Lint.fix source != source then
    orComplain .unreadable (← of (Activity.change fun tree here =>
      tree.write here file (Utf8.encode (Lint.fix source))))

/-- Prints the report about a file, and refuses it if it has errors. -/
def lint (file : Path) (fix : Bool) : Session Unit := do
  of (Activity.checkFile file)
  if fix then mend file
  let issues ← of (Build.lintFile file)
  of (Activity.print (Lint.report file issues))
  let summary := Lint.Summary.of issues
  if summary.hasErrors then throw (.failed (.lintFailed summary.errors))

/-- The PDF file that is to be shown, which is made of any other file. -/
def pdfOf (input : Path) (options : CompileOptions) : Session Path :=
  if Path.hasExtension "pdf".toList input then pure input else of (Build.compile input options)

/-- Makes images of pages and prints their paths. -/
def preview (settings : Settings) (input : Path) (pages : Option Text) (width : Option Nat)
    (directory : Option Path) (engine : EngineArguments) : Session Unit := do
  let pdf ← pdfOf input (compileOptions settings engine)
  let pages ←
    match pages with
    | some written => some <$> of (Activity.ofExcept (PageRange.read written))
    | none => pure none
  let options := settings.previewOptions (directory.getD (Path.directoryOf pdf)) pages width
  let images ← of (Build.preview pdf options)
  images.forM fun image => of (Activity.printLine image)

/-- Begins to watch a file. -/
def watch (environment : Environment) (settings : Settings) (input : Path) (html : Option Path)
    (compile serve : Bool) (settleTime : Option Nat) (engine : EngineArguments)
    (look : LookArguments) (page : PageArguments) : Session Build.Watch := do
  let document ← documentOptions environment settings look
  let pageOptions ← pageOptions settings page
  let job : Build.Job := {
    source := input, document, page := html, pageOptions,
    compile := if compile then some (compileOptions settings engine) else none }
  of (Build.beginWatch job serve)
  of (Activity.printLine ("Watching ".toList ++ quoted input ++
    " for changes (Press Ctrl+C to stop)".toList))
  return ⟨job, settleTime.getD settings.settleTime⟩

/-- The line that lists a theme. -/
def themeLine (theme : Theme) : Text :=
  theme.name ++ ": ".toList ++
    join " / ".toList [theme.base, theme.color, theme.aspectRatio]

/-- Lists the themes. -/
def listThemes (store : ThemeStore) : Session Unit := do
  let themes ← of store.loadAll
  if themes.isEmpty then
    of (Activity.printLine ("No custom themes in ".toList ++ quoted store.directory))
  themes.forM fun theme => of (Activity.printLine (themeLine theme))

/-- Does a request about themes. -/
def theme (store : ThemeStore) : ThemeRequest → Session Unit
  | .list => listThemes store
  | .view name => do of (Activity.print (← themeNamed store name).render)
  | .add name base color aspectRatio => do
    tell "Theme saved" (← of (store.save ⟨name, base, color, aspectRatio⟩))
  | .remove name => do
    if ← of (store.remove name) then
      of (Activity.printLine ("Theme removed: ".toList ++ name))
    else throw (.unknownTheme name)

/-- A request after which nothing is watched. -/
def once (session : Session Unit) : Session (Option Build.Watch) := do
  session
  return none

/-- Does a request. The answer is what is watched from then on. -/
def perform (environment : Environment) (settings : Settings) :
    Request → Session (Option Build.Watch)
  | .nothing => once <|
    of (Activity.printLine "No command specified. Use --help for usage information.".toList)
  | .convert input output look => once do
    convert input output (← documentOptions environment settings look)
  | .build input engine look => once (build environment settings input engine look)
  | .page input output arguments => once do
    page input output (← pageOptions settings arguments)
  | .lint input fix => once (lint input fix)
  | .preview input pages width directory engine =>
    once (preview settings input pages width directory engine)
  | .watch input html compile serve settleTime engine look page =>
    some <$> watch environment settings input html compile serve settleTime engine look page
  | .theme request => once do theme (← themeStore environment settings) request

end Session

end SlideDeck.CommandLine
