import SlideDeck.Build.PageRange
import SlideDeck.Document
import SlideDeck.Html.Page
import SlideDeck.Path
import SlideDeck.Theme.Theme

/-!
# Settings

The settings of the program come from the variables of its environment; a variable
that is not given, blank, or not of the right kind leaves the default. The options
of each activity are then the arguments of the caller over these settings.
-/

set_option autoImplicit false

namespace SlideDeck

open SlideDeck.Text

/-- How documents are compiled. -/
structure CompileOptions where
  engine : Text := "pdflatex".toList
  passes : Nat := 1
  deriving DecidableEq, Repr

/-- How pages are made into images. -/
structure PreviewOptions where
  tool : Text := "pdftoppm".toList
  directory : Path := Path.here
  /-- With which text the names of the images begin. -/
  stem : Text := "page".toList
  pages : PageRange := PageRange.all
  width : Nat := 1280
  /-- The command that shows an image, if the images are to be shown. -/
  viewer : Option Text := none
  deriving DecidableEq, Repr

/-- The settings of the program. -/
structure Settings where
  theme : Text := "Madrid".toList
  colorTheme : Text := "default".toList
  aspectRatio : Text := "169".toList
  engine : Text := "pdflatex".toList
  passes : Nat := 1
  previewTool : Text := "pdftoppm".toList
  previewWidth : Nat := 1280
  viewer : Option Text := none
  pageThemeBase : Text := "themes".toList
  themeDirectory : Option Path := none
  /-- How long the watcher waits for further changes, in milliseconds. -/
  settleTime : Nat := 500
  deriving DecidableEq, Repr

namespace Settings

/-- The defaults. -/
def defaults : Settings := {}

/-- A variable that is not blank. -/
def given? (environment : Entries) (name : String) : Option Text :=
  (environment.get? name.toList).filter fun value => !isBlankText value

/-- A variable, or the default if it is blank. -/
def textOf (environment : Entries) (name : String) (default : Text) : Text :=
  (given? environment name).getD default

/-- A variable that holds a number, or the default. -/
def numberOf (environment : Entries) (name : String) (bound default : Nat) : Nat :=
  ((environment.get? name.toList).bind fun value => boundedNat? bound (trim value)).getD default

/-- The settings that an environment gives. -/
def ofEnvironment (environment : Entries) : Settings where
  theme := textOf environment "BEAMER_THEME" defaults.theme
  colorTheme := textOf environment "BEAMER_COLOR_THEME" defaults.colorTheme
  aspectRatio := textOf environment "BEAMER_ASPECT_RATIO" defaults.aspectRatio
  engine := textOf environment "BEAMER_ENGINE" defaults.engine
  passes := max 1 (numberOf environment "BEAMER_ENGINE_PASSES" bound32 defaults.passes)
  previewTool := textOf environment "BEAMER_PREVIEW_TOOL" defaults.previewTool
  previewWidth := numberOf environment "BEAMER_PREVIEW_WIDTH" bound32 defaults.previewWidth
  viewer := given? environment "BEAMER_IMAGE_VIEWER"
  pageThemeBase := textOf environment "BEAMER_HTML_THEME_BASE" defaults.pageThemeBase
  themeDirectory := environment.get? "BEAMER_THEME_DIR".toList
  settleTime := numberOf environment "BEAMER_DEBOUNCE_MS" bound64 defaults.settleTime

/-- The options of a document: arguments go before a theme of one's own, and that
goes before the settings. -/
def documentOptions (settings : Settings) (own : Option Theme)
    (theme colorTheme aspectRatio : Option Text) : Document.Options where
  theme := (theme.or (own.map Theme.base)).getD settings.theme
  colorTheme := (colorTheme.or (own.map Theme.color)).getD settings.colorTheme
  aspectRatio := (aspectRatio.or (own.map Theme.aspectRatio)).getD settings.aspectRatio

/-- The options of a compilation, which has at least one pass. -/
def compileOptions (settings : Settings) (engine : Option Text) (passes : Option Nat) :
    CompileOptions where
  engine := engine.getD settings.engine
  passes := max 1 (passes.getD settings.passes)

/-- The options of a preview. -/
def previewOptions (settings : Settings) (directory : Path) (pages : Option PageRange)
    (width : Option Nat) : PreviewOptions where
  tool := settings.previewTool
  directory := directory
  pages := pages.getD PageRange.all
  width := width.getD settings.previewWidth
  viewer := settings.viewer

/-- The options of a page. -/
def pageOptions (settings : Settings) (theme : Option Text) (stylesheets scripts : List Resource)
    (embed : Bool) : PageOptions where
  theme := theme.getD "default".toList
  themeBase := settings.pageThemeBase
  stylesheets := stylesheets
  scripts := scripts
  embed := embed

end Settings

end SlideDeck
