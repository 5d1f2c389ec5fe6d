import SlideDeck.Text.Utf8

/-!
# Bytes as characters

Scripts work on bytes. In what belongs to a script each character of a text stands
for one byte, so every character is below 256; only the names of files and what a
script is given or answers are proper text.
-/

set_option autoImplicit false

namespace SlideDeck.Script

open SlideDeck SlideDeck.Text

/-- The characters that stand for bytes. -/
def ofBytes (bytes : List UInt8) : Text := bytes.map fun byte => Char.ofNat byte.toNat

/-- The bytes for which characters stand. -/
def toBytes (s : Text) : List UInt8 := s.map fun c => UInt8.ofNat c.toNat

/-- A proper text as characters that stand for its bytes. -/
def ofText (s : Text) : Text := ofBytes (Utf8.encode s)

/-- The proper text whose bytes the characters stand for. -/
def toText (s : Text) : Text := Utf8.decodeLossy (toBytes s)

/-- The characters of the names of variables. -/
def isNameChar (c : Char) : Bool := c.isAlphanum || c == '_'

/-- The characters with which the name of a variable begins. -/
def isNameStart (c : Char) : Bool := c.isAlpha || c == '_'

/-- Whether the text is the name of a variable. -/
def isName : Text → Bool
  | [] => false
  | c :: rest => isNameStart c && rest.all isNameChar

end SlideDeck.Script
