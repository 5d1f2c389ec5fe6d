import SlideDeck.Failure
import SlideDeck.Text.Search

/-!
# Page ranges

A range of pages is written as `N`, `N-` or `N-M`, cut at the first hyphen. Pages
are numbered from 1; without a last page the range goes to the end.
-/

set_option autoImplicit false

namespace SlideDeck

open SlideDeck.Text

/-- A range of pages, both ends included. -/
structure PageRange where
  first : Nat
  last : Option Nat
  deriving DecidableEq, Repr

namespace PageRange

/-- All pages. -/
def all : PageRange := ⟨1, none⟩

/-- Reads the number of a page. -/
def page (s : Text) : Except Failure Nat :=
  match (nat32? (trim s)).filter (0 < ·) with
  | some number => .ok number
  | none => .error (.invalid (.pageNumber s))

/-- Refuses a range that ends before it starts; `written` is its text. -/
def ordered (written : Text) (range : PageRange) : Except Failure PageRange :=
  match range.last with
  | some last =>
    if last < range.first then .error (.invalid (.reversedPageRange written)) else .ok range
  | none => .ok range

/-- Reads the ends of a range. -/
def ends (s : Text) : Except Failure PageRange :=
  match splitOnce '-' s with
  | none => (page s).map fun number => ⟨number, some number⟩
  | some (first, []) => (page first).map fun number => ⟨number, none⟩
  | some (first, last) => do
    let first ← page first
    let last ← page last
    return ⟨first, some last⟩

/-- Reads a range. -/
def read (s : Text) : Except Failure PageRange := do
  let range ← ends s
  ordered s range

/-- The shortest text of a range. -/
def render (range : PageRange) : Text :=
  match range.last with
  | none => Text.ofNat range.first ++ ['-']
  | some last =>
    if last = range.first then Text.ofNat last
    else Text.ofNat range.first ++ '-' :: Text.ofNat last

end PageRange

end SlideDeck
