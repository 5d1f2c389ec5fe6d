import SlideDeck.Failure
import SlideDeck.Tool.Signal

/-!
# Notices

What an operation tells its user besides its result: something was left out,
replaced or not done. Notices are values; an operation that gives them lists
them in the order in which they arise.
-/

set_option autoImplicit false

namespace SlideDeck

/-- Something that an operation left out, replaced or did not do. -/
inductive Notice where
  | malformedMetadata (line : Nat) (content : Text)
  | unclosedMetadata
  | droppedTableRow (row cells columns : Nat)
  | emptyDiagram
  | unclosedCode
  | unsupportedAspectRatio (value : Text)
  | unterminatedNote
  | fixesNotImplemented
  | resourceLeftOut (path : Text) (reason : Failure)
  | staleImageKept (path : Text) (fault : SystemFault)
  | probeKept (path : Text) (fault : SystemFault)
  | viewerFailed (ending : ProgramEnd) (image : Text)
  | themeFileIncomplete (path : Text)
  | themeFileUnreadable (path : Text) (reason : Failure)
  | lintReport (report : Text)
  | compilationSkipped (blockers : Nat)
  | initialBuildFailed (reason : Failure)
  | rebuildFailed (reason : Failure)
  | nothingToServe
  deriving DecidableEq, Repr

/-- Whether the notice is about something that failed, and not only a warning. -/
def Notice.isError : Notice → Bool
  | .initialBuildFailed _ | .rebuildFailed _ => true
  | _ => false

open Text (quoted ofNat)

/-- The wording of a notice. -/
def Notice.message : Notice → Text
  | .malformedMetadata line content =>
    "Ignoring malformed frontmatter line ".toList ++ ofNat line ++ ": ".toList ++ content
  | .unclosedMetadata => "Frontmatter block was never closed".toList
  | .droppedTableRow row cells columns =>
    "Dropping table row ".toList ++ ofNat row ++ " with ".toList ++ ofNat cells ++
      " cells (header has ".toList ++ ofNat columns ++ ")".toList
  | .emptyDiagram => "Diagram block contained no parseable nodes, emitting placeholder".toList
  | .unclosedCode => "Code block was not closed before the end of the slide".toList
  | .unsupportedAspectRatio value =>
    "Unsupported aspect ratio: ".toList ++ value ++ ". Using 16:9 instead.".toList
  | .unterminatedNote => "Unterminated \\note command, ignoring notes".toList
  | .fixesNotImplemented =>
    "Automatic fixes are not implemented; the source is left unchanged".toList
  | .resourceLeftOut path reason =>
    "Failed to include resource ".toList ++ path ++ ": ".toList ++ reason.message
  | .staleImageKept path fault =>
    "Failed to remove stale image ".toList ++ quoted path ++ ": ".toList ++ fault.message
  | .probeKept path fault =>
    "Failed to clean up probe file ".toList ++ quoted path ++ ": ".toList ++ fault.message
  | .viewerFailed ending image =>
    "Image viewer exited with ".toList ++ ending.message ++ " for ".toList ++ quoted image
  | .themeFileIncomplete path =>
    "Skipping theme file with empty fields: ".toList ++ quoted path
  | .themeFileUnreadable path reason =>
    "Skipping theme file ".toList ++ quoted path ++ ": ".toList ++ reason.message
  | .lintReport report => report
  | .compilationSkipped blockers =>
    "Skipping compilation: ".toList ++ ofNat blockers ++ " blocking error(s)".toList
  | .initialBuildFailed reason => "Initial build failed: ".toList ++ reason.message
  | .rebuildFailed reason => "Rebuild failed: ".toList ++ reason.message
  | .nothingToServe => "--serve needs an HTML output; not starting the server".toList

end SlideDeck
