import SlideDeck.Text.Number
import SlideDeck.Text.Visible

/-!
# Quoted names

Messages quote paths and names so that each can be told from its surroundings:
the text stands between double quotes, and whatever would blur its end or could
not be seen is written as an escape.
-/

set_option autoImplicit false

namespace SlideDeck.Text

/-- How one character is written between the quotes. -/
def quotedChar (c : Char) : Text :=
  if c = '\x22' then ['\\', c]
  else if c = '\\' then ['\\', '\\']
  else if c = '\n' then ['\\', 'n']
  else if c = '\r' then ['\\', 'r']
  else if c = '\t' then ['\\', 't']
  else if c.toNat = 0 then ['\\', '0']
  else if isVisible c then [c]
  else "\\u\x7b".toList ++ hexOfNat c.toNat ++ "\x7d".toList

/-- The text between double quotes, with escapes. -/
def quoted (s : Text) : Text := '\x22' :: s.flatMap quotedChar ++ ['\x22']

end SlideDeck.Text
