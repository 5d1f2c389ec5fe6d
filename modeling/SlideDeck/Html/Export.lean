import SlideDeck.Html.Page
import SlideDeck.Workspace

/-!
# Exporting pages

Reading a LaTeX file as a page, and writing a page to a file.
-/

set_option autoImplicit false

namespace SlideDeck.Page

open SlideDeck SlideDeck.Text

/-- The page of a LaTeX text, with notices about what it leaves out. -/
def ofText (latex : Text) (options : PageOptions) : Activity Text := do
  let host ← read
  let reader ← Activity.look (Resource.content host.fetch)
  Activity.noticeAll (noticesOfLatex reader latex options)
  return ofLatex reader host.today latex options

/-- The page of a deck, with notices about what it leaves out. -/
def ofDeck (deck : Deck) (options : PageOptions) : Activity Text := do
  let host ← read
  let reader ← Activity.look (Resource.content host.fetch)
  Activity.noticeAll (notices reader options)
  return render reader host.today deck options

/-- The page of a LaTeX file. -/
def ofFile (file : Path) (options : PageOptions) : Activity Text := do
  Activity.checkFile file
  ofText (← Activity.readText file) options

/-- Writes a page, in a directory that is made if it is missing. -/
def save (page : Text) (file : Path) : Activity Unit := do
  Activity.ensureParent file
  Activity.writeText (.unwritable file) file page

end SlideDeck.Page
