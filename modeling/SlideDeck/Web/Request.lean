import SlideDeck.Path

/-!
# Requests for files

Which file a request for a page means, and how its content is announced. A request
never leaves the directory that is served.
-/

set_option autoImplicit false

namespace SlideDeck.Web

open SlideDeck SlideDeck.Text

/-- The path of an address: what stands before its query and its fragment. -/
def pathOf (address : Text) : Text := address.takeWhile fun c => c != '?' && c != '#'

/-- The file below `root` that an address means. The bare directory means its index
file; an address with a component that is no name means nothing. -/
def fileOf? (root : Path) (index : Text) (address : Text) : Option Path :=
  let relative := (pathOf address).dropWhile (· == '/')
  if relative.isEmpty then some (root.child index)
  else if (Path.components relative).all Path.Component.isName then some (root.child relative)
  else none

/-- The media types of files, by extension. -/
def mediaTypes : List (Text × Text) := [
  ("html".toList, "text/html; charset=utf-8".toList),
  ("css".toList, "text/css".toList),
  ("js".toList, "application/javascript".toList),
  ("png".toList, "image/png".toList),
  ("jpg".toList, "image/jpeg".toList),
  ("jpeg".toList, "image/jpeg".toList),
  ("svg".toList, "image/svg+xml".toList),
  ("pdf".toList, "application/pdf".toList)]

/-- The media type of a file. -/
def mediaType (path : Path) : Text :=
  let extension := lowerAscii ((Path.extension? path).getD [])
  match mediaTypes.find? fun entry => entry.1 == extension with
  | some entry => entry.2
  | none => "application/octet-stream".toList

end SlideDeck.Web
