import SlideDeck.Build.Rebuild

/-!
# Watching

Watching begins with a check and a first build. From then on a change of a file
leads to a rebuild if the file is the source, or of a kind that documents are made
of and not a result of the build itself.
-/

set_option autoImplicit false

namespace SlideDeck.Build

open SlideDeck SlideDeck.Text

/-- A job that is watched. -/
structure Watch where
  job : Job
  /-- How long to wait for further changes, in milliseconds. -/
  settleTime : Nat
  deriving DecidableEq, Repr

/-- Whether two paths have the same components. -/
def samePath (a b : Path) : Bool := Path.components a == Path.components b

/-- The absolute form of a path, or the path itself if nothing is there. -/
def absoluteOr (tree : FileTree) (here : Location) (path : Path) : Path :=
  (tree.absolute here path).toOption.getD path

/-- The extensions of the files that documents are made of. -/
def watchedExtensions : List Text := ["md".toList, "tex".toList, "sty".toList, "bib".toList]

/-- Whether a change of a file leads to a rebuild of the source. -/
def isRelevant (tree : FileTree) (here : Location) (source : Path) (generated : List Path)
    (path : Path) : Bool :=
  let whole := absoluteOr tree here path
  if samePath whole (absoluteOr tree here source) || samePath path source then true
  else if generated.any fun result => samePath result whole || samePath result path then false
  else watchedExtensions.any fun extension => Path.hasExtension extension path

/-- The results of a job whose changes do not lead to a rebuild, as absolute paths. -/
def generatedBy (tree : FileTree) (here : Location) (job : Job) : List Path :=
  let latex := if isMarkdown job.source then [latexPath job.source] else []
  (latex ++ job.page.toList).map (absoluteOr tree here)

/-- Whether the differences between two trees call for a rebuild. -/
def calls (job : Job) (before after : FileTree) (here : Location) : Bool :=
  (before.differences after).any fun place =>
    isRelevant after here job.source (generatedBy after here job) (FileTree.pathOf place)

/-- Refuses a job that cannot be watched. -/
def checkWatch (job : Job) : Activity Unit := do
  Activity.checkFile job.source
  match job.page with
  | some page => Activity.ensureParent page
  | none => pure ()

/-- Begins to watch a job: checks it and builds it once. A build that fails is no
reason not to watch. -/
def beginWatch (job : Job) (serve : Bool) : Activity Unit := do
  checkWatch job
  try discard (rebuild job) catch failure => Activity.notice (.initialBuildFailed failure)
  if serve && job.page.isNone then Activity.notice .nothingToServe

/-- Builds a watched job again, which may fail as well. -/
def buildAgain (job : Job) : Activity Unit := do
  try discard (rebuild job) catch failure => Activity.notice (.rebuildFailed failure)

end SlideDeck.Build
