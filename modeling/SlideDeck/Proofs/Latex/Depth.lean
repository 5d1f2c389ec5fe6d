import SlideDeck.Latex.Basic

/-!
# The depth of braces

How deep a sequence of braces leads when it begins at a given depth (`depthAfter`); it
leads nowhere when a closing brace has no partner. A sequence is *balanced* when it leads
from the outermost level back to it. A sequence that leads from one depth to another does
the same from any deeper level (`depthAfter_add`); a balanced one therefore stays where it
begins (`Balanced.depthAfter`), and balanced sequences can be put side by side and between
a pair of braces.
-/

set_option autoImplicit false

namespace SlideDeck.Latex

/-- How many braces are open behind, when `depth` are open before. -/
def depthAfter : Nat → List Brace → Option Nat
  | depth, [] => some depth
  | depth, .opening :: rest => depthAfter (depth + 1) rest
  | 0, .closing :: _ => none
  | depth + 1, .closing :: rest => depthAfter depth rest

/-- Each brace has its partner. -/
def Balanced (braces : List Brace) : Prop := depthAfter 0 braces = some 0

instance (braces : List Brace) : Decidable (Balanced braces) :=
  inferInstanceAs (Decidable (depthAfter 0 braces = some 0))

theorem depthAfter_append (depth : Nat) (front back : List Brace) :
    depthAfter depth (front ++ back) = (depthAfter depth front).bind (depthAfter · back) := by
  fun_induction depthAfter depth front <;> simp_all [depthAfter]

/-- Further open braces around a sequence stay open. -/
theorem depthAfter_add {depth last : Nat} {braces : List Brace}
    (leads : depthAfter depth braces = some last) (outer : Nat) :
    depthAfter (depth + outer) braces = some (last + outer) := by
  fun_induction depthAfter depth braces with
  | case1 depth =>
      cases leads
      rfl
  | case2 depth rest ih =>
      rw [depthAfter, Nat.add_right_comm]
      exact ih leads
  | case3 => cases leads
  | case4 depth rest ih =>
      rw [Nat.succ_add, depthAfter]
      exact ih leads

namespace Balanced

theorem nil : Balanced [] := rfl

/-- A balanced sequence stays at the depth at which it begins. -/
theorem depthAfter {braces : List Brace} (balanced : Balanced braces) (depth : Nat) :
    depthAfter depth braces = some depth := by
  simpa using depthAfter_add balanced depth

theorem append {front back : List Brace} (first : Balanced front) (second : Balanced back) :
    Balanced (front ++ back) := by
  rw [Balanced, depthAfter_append, first.depthAfter]
  exact second

/-- A balanced sequence between a pair of braces. -/
theorem enclose {braces : List Brace} (inner : Balanced braces) :
    Balanced (.opening :: (braces ++ [.closing])) := by
  rw [Balanced, Latex.depthAfter, depthAfter_append, inner.depthAfter]
  rfl

end Balanced

end SlideDeck.Latex
