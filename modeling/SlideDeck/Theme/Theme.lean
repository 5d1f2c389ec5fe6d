import SlideDeck.Failure

/-!
# Themes of one's own

A theme of one's own is a name for a combination of theme, color theme and aspect
ratio.
-/

set_option autoImplicit false

namespace SlideDeck

open SlideDeck.Text

/-- A named combination of theme, color theme and aspect ratio. -/
structure Theme where
  name : Text
  base : Text
  color : Text
  aspectRatio : Text
  deriving DecidableEq, Repr

namespace Theme

/-- Whether no field is blank. -/
def isComplete (theme : Theme) : Bool :=
  [theme.name, theme.base, theme.color, theme.aspectRatio].all fun field => !isBlankText field

/-- The characters of theme names, which become file names. -/
def isNameChar (c : Char) : Bool := c.isAlphanum || c == '-' || c == '_'

/-- Whether the text can be the name of a theme. -/
def isName (name : Text) : Bool := !name.isEmpty && name.all isNameChar

/-- Refuses a text that cannot be the name of a theme. -/
def checkName (name : Text) : Except Failure Unit :=
  if isName name then .ok () else .error (.invalid (.themeName name))

end Theme

end SlideDeck
