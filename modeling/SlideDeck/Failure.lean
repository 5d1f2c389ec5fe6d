import SlideDeck.Text.Quoted

/-!
# Failures

Why an operation did not give a result. A failure is a cause, with the paths and
values that belong to it; its wording is in one place, `Failure.message`.
-/

set_option autoImplicit false

namespace SlideDeck

/-- Why the system refused to read, write or run something. -/
inductive SystemFault where
  | notFound
  | permissionDenied
  | notDirectory
  | isDirectory
  | alreadyExists
  | nameTooLong
  /-- A name holds the character that ends the names of the system. -/
  | nulInName
  /-- A command holds the character that ends the texts of the system. -/
  | nulInCommand
  /-- The file that was to be run is no program. -/
  | notExecutable
  /-- The file that was to be read as text is not UTF-8. -/
  | notText
  /-- Any other fault, in the words of the system. -/
  | described (description : Text)
  deriving DecidableEq, Repr

/-- Why a value that the caller gave cannot be used. -/
inductive InvalidInput where
  | pageNumber (number : Text)
  | reversedPageRange (range : Text)
  | resourceMode (mode : Text)
  | themeName (name : Text)
  | notFilePath (path : Text)
  | notFile (path : Text)
  | notDirectory (path : Text)
  | notWritable (path : Text) (fault : SystemFault)
  | noAbsolutePath (path : Text) (fault : SystemFault)
  | described (description : Text)
  deriving DecidableEq, Repr

/-- Why previewing failed. -/
inductive PreviewFault where
  /-- The tool ended with a failure and left this log. -/
  | toolFailed (log : Text)
  | viewerNotRun (viewer : Text) (fault : SystemFault)
  deriving DecidableEq, Repr

/-- Why the theme store refused. -/
inductive ThemeFault where
  | noConfigurationDirectory
  | emptyFields (name : Text)
  | invalidFile
  | described (description : Text)
  deriving DecidableEq, Repr

/-- Why a setting cannot be used. -/
inductive SettingFault where
  | emptyViewer
  | described (description : Text)
  deriving DecidableEq, Repr

/-- Why watching could not begin. -/
inductive WatchFault where
  | noWatcher (fault : SystemFault)
  | described (description : Text)
  deriving DecidableEq, Repr

/-- Why an operation did not give a result. -/
inductive Failure where
  | unreadable (fault : SystemFault)
  | unwritable (path : Text) (fault : SystemFault)
  | notFetched (description : Text)
  | invalidResource (path : Text)
  | invalid (reason : InvalidInput)
  | missing (path : Text)
  | engineMissing (engine : Text)
  | compilationFailed (path log : Text)
  | previewToolMissing (tool : Text)
  | preview (reason : PreviewFault)
  | noPages (pattern : Text)
  | lintFailed (count : Nat)
  | theme (reason : ThemeFault)
  | setting (reason : SettingFault)
  | watch (reason : WatchFault)
  | unknown (description : Text)
  deriving DecidableEq, Repr

/-! ## Wording -/

open Text (quoted)

/-- The words of the system for a fault. -/
def SystemFault.words : SystemFault → Text
  | .notFound => "No such file or directory".toList
  | .permissionDenied => "Permission denied".toList
  | .notDirectory => "Not a directory".toList
  | .isDirectory => "Is a directory".toList
  | .alreadyExists => "File exists".toList
  | .nameTooLong => "File name too long".toList
  | .nulInName => "file name contained an unexpected NUL byte".toList
  | .nulInCommand => "nul byte found in provided data".toList
  | .notExecutable => "Exec format error".toList
  | .notText => "stream did not contain valid UTF-8".toList
  | .described description => description

/-- The number that the system has for a fault. -/
def SystemFault.number? : SystemFault → Option Nat
  | .notFound => some 2
  | .notExecutable => some 8
  | .permissionDenied => some 13
  | .alreadyExists => some 17
  | .notDirectory => some 20
  | .isDirectory => some 21
  | .nameTooLong => some 36
  | .nulInName | .nulInCommand | .notText | .described _ => none

/-- The wording of a fault of the system. -/
def SystemFault.message (fault : SystemFault) : Text :=
  match fault.number? with
  | some number => fault.words ++ " (os error ".toList ++ Text.ofNat number ++ [')']
  | none => fault.words

/-- The wording of a refused value. -/
def InvalidInput.message : InvalidInput → Text
  | .pageNumber number => "Invalid page number: ".toList ++ quoted number
  | .reversedPageRange range =>
    "Page range ".toList ++ range ++ " ends before it starts".toList
  | .resourceMode mode =>
    "Invalid mode ".toList ++ quoted mode ++ ": use 'embed' or 'link'".toList
  | .themeName name =>
    "Invalid theme name ".toList ++ quoted name ++ ": use letters, digits, '-' or '_'".toList
  | .notFilePath path => "Not a file path: ".toList ++ quoted path
  | .notFile path => "Expected a file but found something else: ".toList ++ quoted path
  | .notDirectory path => "Path exists but is not a directory: ".toList ++ quoted path
  | .notWritable path fault =>
    "Directory is not writable: ".toList ++ quoted path ++ " - ".toList ++ fault.message
  | .noAbsolutePath path fault =>
    "Failed to get absolute path for ".toList ++ quoted path ++ ": ".toList ++ fault.message
  | .described description => description

/-- The wording of a failed preview. -/
def PreviewFault.message : PreviewFault → Text
  | .toolFailed log => log
  | .viewerNotRun viewer fault =>
    "Failed to run ".toList ++ viewer ++ ": ".toList ++ fault.message

/-- The wording of a refusal of the theme store. -/
def ThemeFault.message : ThemeFault → Text
  | .noConfigurationDirectory => "Could not determine a configuration directory".toList
  | .emptyFields name => "Theme ".toList ++ name ++ " has empty fields".toList
  | .invalidFile => "Invalid theme file".toList
  | .described description => description

/-- The wording of an unusable setting. -/
def SettingFault.message : SettingFault → Text
  | .emptyViewer => "Image viewer command is empty".toList
  | .described description => description

/-- The wording of a failed start of watching. -/
def WatchFault.message : WatchFault → Text
  | .noWatcher fault => "Failed to create file watcher: ".toList ++ fault.message
  | .described description => description

/-- The wording of a failure. -/
def Failure.message : Failure → Text
  | .unreadable fault => "Failed to read file: ".toList ++ fault.message
  | .unwritable path fault =>
    "Failed to write ".toList ++ path ++ ": ".toList ++ fault.message
  | .notFetched description => "Failed to fetch remote resource: ".toList ++ description
  | .invalidResource path => "Invalid resource path: ".toList ++ path
  | .invalid reason => "Input validation error: ".toList ++ reason.message
  | .missing path => "Path not found: ".toList ++ path
  | .engineMissing engine =>
    "Typesetting engine not found: ".toList ++ engine ++
      ". Make sure a TeX distribution is installed.".toList
  | .compilationFailed path log =>
    "Compilation of ".toList ++ path ++ " failed:\n".toList ++ log
  | .previewToolMissing tool =>
    "Preview tool not found: ".toList ++ tool ++
      ". Make sure poppler-utils is installed.".toList
  | .preview reason => "Preview error: ".toList ++ reason.message
  | .noPages pattern => "No page images found matching pattern: ".toList ++ pattern
  | .lintFailed count =>
    "Lint failed with ".toList ++ Text.ofNat count ++ " error(s)".toList
  | .theme reason => "Theme store error: ".toList ++ reason.message
  | .setting reason => "Configuration error: ".toList ++ reason.message
  | .watch reason => "Watch error: ".toList ++ reason.message
  | .unknown description => "Unknown error: ".toList ++ description

end SlideDeck
