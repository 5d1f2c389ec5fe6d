import SlideDeck.Files.Change

/-!
# Resources of a page

A page may bring style sheets and scripts of its own. A resource is a file, or an
address that is fetched; its content stands in the page, or the page refers to it.
-/

set_option autoImplicit false

namespace SlideDeck

open SlideDeck.Text

/-- A file or an address. -/
structure Resource where
  path : Text
  deriving DecidableEq, Repr

namespace Resource

/-- What a resource is used as. -/
inductive Use where
  | stylesheet
  | script
  deriving DecidableEq, Repr

/-- Whether the resource is an address. -/
def isRemote (resource : Resource) : Bool :=
  startsWith "http://".toList resource.path || startsWith "https://".toList resource.path

/-- The tag that refers to a resource. -/
def reference (use : Use) (resource : Resource) : Text :=
  match use with
  | .stylesheet => "<link rel=\"stylesheet\" href=\"".toList ++ resource.path ++ "\">".toList
  | .script => "<script src=\"".toList ++ resource.path ++ "\"></script>".toList

/-- The element that holds the content of a resource. -/
def embedded (use : Use) (content : Text) : Text :=
  match use with
  | .stylesheet => "<style>".toList ++ content ++ "</style>".toList
  | .script => "<script>".toList ++ content ++ "</script>".toList

/-- How resources get their content. -/
abbrev Reader := Resource → Except Failure Text

/-- Gets addresses by fetching them and files from a file tree. -/
def content (fetch : Text → Except Failure Text) (tree : FileTree) (here : Location) : Reader :=
  fun resource =>
    if resource.isRemote then fetch resource.path
    else if tree.holds here resource.path then
      (tree.readText here resource.path).mapError .unreadable
    else .error (.missing resource.path)

/-- The tag of a resource: its content where `embed` says so, a reference to it
otherwise. -/
def tag (read : Reader) (use : Use) (embed : Bool) (resource : Resource) : Except Failure Text :=
  if embed then (read resource).map (embedded use) else .ok (reference use resource)

end Resource

end SlideDeck
