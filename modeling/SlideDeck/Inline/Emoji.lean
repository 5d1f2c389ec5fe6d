import SlideDeck.Text.Search

/-!
# Emoji in slide text

The typesetting engine has no glyphs for emoji. Those that carry a meaning are
replaced by plain text; every other character of the emoji blocks is dropped.
-/

set_option autoImplicit false

namespace SlideDeck.Inline

open SlideDeck

/-- The emoji with a meaning and their replacements. A form with a variation
selector comes before its bare counterpart. -/
def emojiReplacements : List (Text × Text) := [
  ([Char.ofNat 0x2705], "[OK]".toList),
  ([Char.ofNat 0x2714, Char.ofNat 0xFE0F], "[OK]".toList),
  ([Char.ofNat 0x2714], "[OK]".toList),
  ([Char.ofNat 0x274C], "[X]".toList),
  ([Char.ofNat 0x2716, Char.ofNat 0xFE0F], "[X]".toList),
  ([Char.ofNat 0x26A0, Char.ofNat 0xFE0F], "[!]".toList),
  ([Char.ofNat 0x26A0], "[!]".toList),
  ([Char.ofNat 0x27A1, Char.ofNat 0xFE0F], "->".toList),
  ([Char.ofNat 0x2192], "->".toList),
  ([Char.ofNat 0x2B50], "*".toList),
  ([Char.ofNat 0x1F4A1], "Tip:".toList),
  ([Char.ofNat 0x1F4DD], "Note:".toList)]

/-- The characters of the emoji blocks, with the joiners and variation selectors
that combine them. -/
def isEmoji (c : Char) : Bool :=
  let n := c.toNat
  (0x1F000 ≤ n && n ≤ 0x1FAFF) || (0x2600 ≤ n && n ≤ 0x27BF) || (0xFE00 ≤ n && n ≤ 0xFE0F) ||
    n == 0x200D || (0x2B00 ≤ n && n ≤ 0x2BFF)

/-- Replaces the entries of the table one after the other over the whole text. -/
def replaceEmoji (s : Text) : Text :=
  emojiReplacements.foldl (fun text (emoji, replacement) => Text.replace emoji replacement text) s

/-- Replaces the emoji with a meaning and drops the others. -/
def sanitize (s : Text) : Text := (replaceEmoji s).filter fun c => !isEmoji c

/-- The sanitized text has no emoji left. -/
theorem isEmoji_of_mem_sanitize {c : Char} {s : Text} (member : c ∈ sanitize s) :
    isEmoji c = false := by
  simpa using (List.mem_filter.mp member).2

end SlideDeck.Inline
