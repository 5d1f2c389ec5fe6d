import SlideDeck.Failure
import SlideDeck.Files.Tree
import SlideDeck.Path
import SlideDeck.Tool.Signal

/-!
# Commands

The typesetting engine, the tool that makes images of pages and the viewer of
images are other programs. A command says which program is started, with which
arguments and in which directory; what it then does is up to the host.
-/

set_option autoImplicit false

namespace SlideDeck

/-- A program to be started. -/
structure Command where
  program : Text
  arguments : List Text
  /-- The directory in which the program works. -/
  directory : Path := Path.here
  deriving DecidableEq, Repr

/-- What a program that has ended left behind. -/
structure Ran where
  ending : ProgramEnd
  output : List UInt8
  errors : List UInt8
  files : FileTree

/-- Whether the program ended with success. -/
def Ran.succeeded (ran : Ran) : Bool := ran.ending.isSuccess

/-- How a host runs commands that are given in a directory of a file tree. -/
abbrev Runner := FileTree → Location → Command → Except SystemFault Ran

end SlideDeck
