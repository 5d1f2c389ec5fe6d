import SlideDeck.Text.Basic

/-!
# Unsigned numbers in text

Numbers are read with an optional plus sign and ASCII digits, leading zeros
included, and only if they are below a bound; they are written in decimal
without any of that.
-/

set_option autoImplicit false

namespace SlideDeck.Text

/-- The value of a text of ASCII digits, behind the digits that gave `value`. -/
def digitsFrom (value : Nat) : Text → Option Nat
  | [] => some value
  | c :: cs => if c.isDigit then digitsFrom (10 * value + (c.toNat - '0'.toNat)) cs else none

/-- The value of a non-empty text of ASCII digits. -/
def digits? : Text → Option Nat
  | [] => none
  | c :: cs => digitsFrom 0 (c :: cs)

/-- The text without one plus sign at its front. -/
def dropPlus : Text → Text
  | '+' :: cs => cs
  | cs => cs

/-- Reads an unsigned number below `bound`. -/
def boundedNat? (bound : Nat) (s : Text) : Option Nat :=
  (digits? (dropPlus s)).bind fun value => if value < bound then some value else none

/-- One more than the greatest unsigned number of 32 bits. -/
def bound32 : Nat := 4294967296

/-- One more than the greatest unsigned number of 64 bits. -/
def bound64 : Nat := 18446744073709551616

/-- Reads an unsigned number of 32 bits. -/
def nat32? (s : Text) : Option Nat := boundedNat? bound32 s

/-- The number in decimal. -/
def ofNat (n : Nat) : Text := Nat.toDigits 10 n

/-- The lower-case hexadecimal digits of a number. -/
def hexOfNat (n : Nat) : Text := Nat.toDigits 16 n

end SlideDeck.Text
