import SlideDeck.Path
import SlideDeck.Proofs.Text.Lines

/-!
# Paths below a directory

What comes of putting one path behind another. If the second one does not begin at the root, its
pieces come behind those of the first (`components_child`): all components of the first path stay,
and only the components of the second one come behind them. A `.` at the front of the second path
would be lost, so the statement is about paths that begin with a name.
-/

set_option autoImplicit false

namespace SlideDeck.Path

open SlideDeck.Text

/-! ## Names -/

theorem isAbsolute_cons (c : Char) (path : Path) : isAbsolute (c :: path) = ('/' == c) := by
  simp [isAbsolute, startsWith, List.isPrefixOf]

/-- A name that leads to an entry of a directory: it has no slash in it, and it is neither empty
nor one of the two names of directories. -/
structure IsName (name : Text) : Prop where
  noSlash : '/' ∉ name
  noIdle : isIdle name = false
  notAbove : name ≠ above

instance (name : Text) : Decidable (IsName name) :=
  decidable_of_iff ('/' ∉ name ∧ isIdle name = false ∧ name ≠ above)
    ⟨fun ⟨first, second, third⟩ => ⟨first, second, third⟩,
      fun name => ⟨name.noSlash, name.noIdle, name.notAbove⟩⟩

theorem isIdle_iff {name : Text} : isIdle name = true ↔ name = [] ∨ name = here := by
  simp [isIdle]

theorem IsName.ne_here {name : Text} (ok : IsName name) : name ≠ here := by
  intro same
  simpa [same, isIdle] using ok.noIdle

/-- Without a slash a path does not begin at the root. -/
theorem not_isAbsolute_of_noSlash {name : Text} (absent : '/' ∉ name) :
    isAbsolute name = false := by
  cases name with
  | nil => rfl
  | cons c name =>
      rw [List.mem_cons, not_or] at absent
      simpa [isAbsolute_cons] using absent.1

theorem IsName.not_isAbsolute {name : Text} (ok : IsName name) : isAbsolute name = false :=
  not_isAbsolute_of_noSlash ok.noSlash

theorem IsName.ofName {name : Text} (ok : IsName name) :
    Component.ofName name = some (.name name) := by
  simp [Component.ofName, ok.noIdle, ok.notAbove]

/-! ## Components -/

theorem isAbsolute_append {front : Path} (nonempty : front ≠ []) (behind : Text) :
    isAbsolute (front ++ behind) = isAbsolute front := by
  cases front with
  | nil => exact absurd rfl nonempty
  | cons c front => rw [List.cons_append, isAbsolute_cons, isAbsolute_cons]

/-- What stands behind a slash only adds components. -/
theorem components_append_slash (front behind : Text) :
    components (front ++ '/' :: behind) =
      components (front ++ ['/']) ++ (pieces behind).filterMap Component.ofName := by
  obtain ⟨first, rest, cut⟩ := List.exists_cons_of_ne_nil (splitAt_ne_nil '/' front)
  have same : isAbsolute (front ++ '/' :: behind) = isAbsolute (front ++ ['/']) := by
    rw [List.append_cons, isAbsolute_append (by simp)]
  have whole : pieces (front ++ '/' :: behind) = first :: (rest ++ pieces behind) := by
    rw [pieces, splitAt_append_cons, cut]
    rfl
  have head : pieces (front ++ ['/']) = first :: (rest ++ [[]]) := by
    rw [pieces, splitAt_append_cons, cut]
    rfl
  have idle : Component.ofName [] = none := rfl
  simp only [components, whole, head, same, List.filterMap_append, List.filterMap_cons, idle,
    List.filterMap_nil, List.append_nil, List.append_assoc]

/-- A slash behind a path changes none of its components. -/
theorem components_append_singleton {front : Path} (nonempty : front ≠ []) :
    components (front ++ ['/']) = components front := by
  obtain ⟨first, rest, cut⟩ := List.exists_cons_of_ne_nil (splitAt_ne_nil '/' front)
  have head : pieces (front ++ ['/']) = first :: (rest ++ [[]]) := by
    rw [pieces, splitAt_append_cons, cut]
    rfl
  have idle : Component.ofName [] = none := rfl
  have own : pieces front = first :: rest := cut
  simp only [components, head, own, isAbsolute_append nonempty, List.filterMap_append,
    List.filterMap_cons, idle, List.filterMap_nil, List.append_nil]

/-- The components of a path that begins with a name, or with nothing, are those of its
pieces. -/
theorem components_of_isName {path : Path} (names : (components path).all Component.isName) :
    components path = (pieces path).filterMap Component.ofName := by
  obtain ⟨first, rest, cut⟩ := List.exists_cons_of_ne_nil (splitAt_ne_nil '/' path)
  have own : pieces path = first :: rest := cut
  simp only [components, own] at names ⊢
  rw [List.all_append, Bool.and_eq_true] at names
  split at names
  · simp [Component.isName] at names
  · split at names
    · simp [Component.isName] at names
    next relative notHere =>
      rw [if_neg relative, if_neg notHere, List.filterMap_cons]
      cases Component.ofName first <;> rfl

theorem not_isAbsolute_of_isName {path : Path} (names : (components path).all Component.isName) :
    isAbsolute path = false := by
  obtain ⟨first, rest, cut⟩ := List.exists_cons_of_ne_nil (splitAt_ne_nil '/' path)
  have own : pieces path = first :: rest := cut
  by_contra absolute
  rw [Bool.not_eq_false] at absolute
  simp [components, own, absolute, Component.isName] at names

/-- **A path of names below a directory has the components of the directory, and behind them its
own.** -/
theorem components_child (root : Path) {other : Path}
    (names : (components other).all Component.isName) :
    components (child root other) = components root ++ components other := by
  rw [child, not_isAbsolute_of_isName names]
  by_cases empty : root = []
  · subst empty
    rfl
  have nonempty : root.isEmpty = false := by simpa using empty
  by_cases slashed : endsWith ['/'] root = true
  · obtain ⟨front, rfl⟩ : ['/'] <:+ root := by simpa [endsWith] using slashed
    simp only [nonempty, slashed, Bool.false_eq_true, if_false, Bool.or_true, if_true]
    rw [List.append_assoc, List.singleton_append, components_append_slash,
      components_of_isName names]
  · simp only [nonempty, slashed, Bool.false_eq_true, if_false, Bool.or_self]
    rw [components_append_slash, components_append_singleton empty, components_of_isName names]

/-- A name is the one component of its path. -/
theorem IsName.components {name : Text} (ok : IsName name) :
    components name = [.name name] := by
  have own : pieces name = [name] := splitAt_of_not_mem ok.noSlash
  simp [Path.components, own, ok.not_isAbsolute, ok.ne_here, ok.ofName]

end SlideDeck.Path
