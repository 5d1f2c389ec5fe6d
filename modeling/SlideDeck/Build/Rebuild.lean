import SlideDeck.Build.Compilation
import SlideDeck.Html.Export
import SlideDeck.Lint.Source

/-!
# Rebuilding

A rebuild makes all results of a source anew: the LaTeX file of a Markdown source,
the PDF file and the page. Errors that would stop the engine skip the compilation,
but the page is still written.
-/

set_option autoImplicit false

namespace SlideDeck.Build

open SlideDeck SlideDeck.Text

/-- What is to be built from a source. -/
structure Job where
  source : Path
  document : Document.Options := {}
  /-- How the document is compiled, if it is. -/
  compile : Option CompileOptions := none
  /-- Where the page is written, if it is. -/
  page : Option Path := none
  pageOptions : PageOptions := {}
  deriving DecidableEq, Repr

/-- What a rebuild made. -/
structure Outcome where
  latex : Path
  lint : Lint.Summary
  pdf : Option Path
  page : Option Path
  deriving DecidableEq, Repr

/-- Whether a path is that of a Markdown file. -/
def isMarkdown (path : Path) : Bool := Path.hasExtension "md".toList path

/-- The LaTeX file of a source: the source itself, or the file beside a Markdown
source that is made from it. -/
def latexPath (source : Path) : Path :=
  if isMarkdown source then Path.withExtension "tex".toList source else source

/-- The document of a Markdown source, with notices about what it leaves out. -/
def convert (source : Text) (options : Document.Options) : Activity Text := do
  Activity.noticeAll (Document.noticesOfMarkdown source options)
  return Document.ofMarkdown source options

/-- The issues of a LaTeX file. -/
def lintFile (file : Path) : Activity (List Lint.Issue) := do
  Activity.checkFile file
  return Lint.issues (← Activity.readText file)

/-- The LaTeX of a job. That of a Markdown source is written to its file. -/
def latexOf (job : Job) (source : Text) : Activity Text := do
  if isMarkdown job.source then
    let latex ← convert source job.document
    Activity.ensureParent (latexPath job.source)
    Activity.writeText (.unwritable (latexPath job.source)) (latexPath job.source) latex
    return latex
  else return source

/-- Compiles the LaTeX file of a job, unless its text has errors that stop a build. -/
def compileUnlessBlocked (job : Job) (latex : Text) : Activity (Option Path) := do
  match job.compile with
  | none => return none
  | some options =>
    match Lint.blockers latex with
    | [] => return some (← compile (latexPath job.source) options)
    | blockers =>
      Activity.notice (.compilationSkipped blockers.length)
      return none

/-- Writes the page of a job. -/
def savePage (job : Job) (latex : Text) : Activity (Option Path) := do
  match job.page with
  | none => return none
  | some file =>
    Page.save (← Page.ofText latex job.pageOptions) file
    return some file

/-- Makes everything that a job asks for. -/
def rebuild (job : Job) : Activity Outcome := do
  let latex ← latexOf job (← Activity.readText job.source)
  let issues := Lint.issues latex
  if !issues.isEmpty then
    Activity.notice (.lintReport (trimEnd (Lint.report (latexPath job.source) issues)))
  let pdf ← compileUnlessBlocked job latex
  let page ← savePage job latex
  return ⟨latexPath job.source, .of issues, pdf, page⟩

end SlideDeck.Build
