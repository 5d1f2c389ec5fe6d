import SlideDeck.Proofs.Path.Child
import SlideDeck.Web.Request

/-!
# Requests stay below the served directory

The path of an address ends at its query or its fragment (`pathOf_append`), so what stands behind
it does not matter. Slashes at its front are dropped, which keeps it from beginning at the root
again, and an address is answered only if each of its pieces is a name or says nothing. Such a path
can only lead down: the components of the file are those of the directory and behind them one or
more names (`requests_stay_below`).

Nothing else is refused: an address has no file exactly if it goes up somewhere or begins with a
`.` (`fileOf?_eq_none_iff`).
-/

set_option autoImplicit false

namespace SlideDeck.Web

open SlideDeck.Text SlideDeck.Path

/-! ## The path of an address -/

/-- What may stand behind the path of an address: nothing, a query or a fragment. -/
def EndsPath (behind : Text) : Prop := ∀ c ∈ behind.head?, c = '?' ∨ c = '#'

theorem pathOf_append {front behind : Text} (bare : ∀ c ∈ front, c ≠ '?' ∧ c ≠ '#')
    (ends : EndsPath behind) : pathOf (front ++ behind) = front := by
  have own : ∀ c ∈ front, (c != '?' && c != '#') = true := by
    intro c member
    simpa using bare c member
  rw [pathOf, List.takeWhile_append_of_pos own]
  cases behind with
  | nil => simp
  | cons c behind =>
      have stop : (c != '?' && c != '#') = false := by
        rcases ends c rfl with rfl | rfl <;> rfl
      simp only [List.takeWhile_cons, stop, Bool.false_eq_true, if_false, List.append_nil]

/-! ## The pieces of the path -/

/-- The names of a path: its pieces that say something. -/
def namesOf (path : Path) : List Text := (pieces path).filter fun piece => !isIdle piece

theorem pieces_slash (path : Path) : pieces ('/' :: path) = [] :: pieces path := rfl

theorem namesOf_slash (path : Path) : namesOf ('/' :: path) = namesOf path := by
  rw [namesOf, pieces_slash, List.filter_cons_of_neg (by decide), namesOf]

theorem namesOf_dropSlashes (path : Path) : namesOf (path.dropWhile (· == '/')) = namesOf path := by
  induction path with
  | nil => rfl
  | cons c path ih =>
      by_cases slash : c = '/'
      · subst slash
        rw [List.dropWhile_cons_of_pos rfl, ih, namesOf_slash]
      · rw [List.dropWhile_cons_of_neg (by simpa using slash)]

theorem noSlash_of_mem_namesOf {path : Path} {name : Text} (member : name ∈ namesOf path) :
    '/' ∉ name :=
  not_mem_of_mem_splitAt (List.mem_filter.mp member).1

/-- A path that goes up nowhere has the names as its components. -/
theorem filterMap_ofName {ps : List Text} (down : above ∉ ps) :
    ps.filterMap Component.ofName = (ps.filter fun piece => !isIdle piece).map .name := by
  induction ps with
  | nil => rfl
  | cons piece ps ih =>
      rw [List.mem_cons, not_or] at down
      cases idle : isIdle piece with
      | true => simp [Component.ofName, idle, ih down.2]
      | false => simp [Component.ofName, idle, Ne.symm down.1, ih down.2]

theorem above_mem_iff {ps : List Text} :
    Component.above ∈ ps.filterMap Component.ofName ↔ above ∈ ps := by
  rw [List.mem_filterMap]
  constructor
  · rintro ⟨piece, member, is⟩
    rw [Component.ofName] at is
    split at is
    · simp at is
    · split at is
      next same => exact beq_iff_eq.mp same ▸ member
      · simp at is
  · intro member
    exact ⟨above, member, rfl⟩

/-- A path that does not begin with a slash has a first name, unless it is empty. -/
theorem exists_pieces {path : Path} (nonempty : path ≠ []) (relative : isAbsolute path = false) :
    ∃ first rest, pieces path = first :: rest ∧ first ≠ [] := by
  cases path with
  | nil => exact absurd rfl nonempty
  | cons c path =>
      have other : c ≠ '/' := by
        intro slash
        simp [isAbsolute_cons, slash] at relative
      obtain ⟨first, rest, cut⟩ := List.exists_cons_of_ne_nil (splitAt_ne_nil '/' path)
      exact ⟨c :: first, rest, by simp [pieces, splitAt, other, cut], by simp⟩

theorem not_isAbsolute_dropSlashes (path : Path) :
    isAbsolute (path.dropWhile (· == '/')) = false := by
  cases rest : path.dropWhile (· == '/') with
  | nil => rfl
  | cons c cs =>
      have stopped : (c == '/') = false := by
        simpa [rest] using List.head?_dropWhile_not (· == '/') path
      rw [isAbsolute_cons, BEq.comm, stopped]

/-- Whether all components are names, in terms of the pieces. -/
theorem all_isName_iff {path : Path} {first : Text} {rest : List Text}
    (cut : pieces path = first :: rest) (relative : isAbsolute path = false) :
    (components path).all Component.isName = true ↔ first ≠ here ∧ above ∉ pieces path := by
  have each : ∀ ps : List Text,
      (ps.filterMap Component.ofName).all Component.isName = true ↔ above ∉ ps := by
    intro ps
    rw [List.all_eq_true]
    constructor
    · intro names member
      simpa [Component.isName] using names _ (above_mem_iff.mpr member)
    · intro down component member
      rw [filterMap_ofName down, List.mem_map] at member
      obtain ⟨name, -, rfl⟩ := member
      rfl
  by_cases dot : first = here
  · simp [components, cut, relative, dot, Component.isName]
  · have whole : components path = (pieces path).filterMap Component.ofName := by
      simp only [components, cut, relative, Bool.false_eq_true, if_false, beq_iff_eq, dot,
        List.filterMap_cons]
      cases Component.ofName first <;> rfl
    rw [whole, each]
    simp [dot]

/-! ## The file of an address -/

section Address

variable {root : Path} {index front behind : Text}

theorem fileOf?_append (bare : ∀ c ∈ front, c ≠ '?' ∧ c ≠ '#') (ends : EndsPath behind) :
    fileOf? root index (front ++ behind) =
      if front.dropWhile (· == '/') = [] then some (root.child index)
      else if (components (front.dropWhile (· == '/'))).all Component.isName then
        some (root.child (front.dropWhile (· == '/')))
      else none := by
  simp only [fileOf?, pathOf_append bare ends, List.isEmpty_iff]

/-- An address has no file exactly if it goes up somewhere or begins with a `.`. -/
theorem fileOf?_eq_none_iff (bare : ∀ c ∈ front, c ≠ '?' ∧ c ≠ '#') (ends : EndsPath behind) :
    fileOf? root index (front ++ behind) = none ↔
      above ∈ pieces (front.dropWhile (· == '/')) ∨
        (pieces (front.dropWhile (· == '/'))).head? = some here := by
  rw [fileOf?_append bare ends]
  have relative := not_isAbsolute_dropSlashes front
  by_cases empty : front.dropWhile (· == '/') = []
  · simp [empty, pieces, splitAt, above, here]
  · obtain ⟨first, rest, cut, -⟩ := exists_pieces empty relative
    have names := all_isName_iff cut relative
    rw [if_neg empty, cut, List.head?_cons, Option.some.injEq, ← cut]
    split
    next all => simp [(names.mp all).1, (names.mp all).2]
    next other =>
      rw [names, not_and_or, not_not, not_not] at other
      simpa [or_comm] using other

/-- **A request never leaves the served directory.** The file of an address is the index file of
the directory, or has the components of the directory and behind them one or more names, those of
the address; and it does not depend on what stands behind the path of the address. -/
theorem requests_stay_below {other : Text} (plain : IsName index)
    (bare : ∀ c ∈ front, c ≠ '?' ∧ c ≠ '#') (ends : EndsPath behind) (alsoEnds : EndsPath other) :
    fileOf? root index (front ++ other) = fileOf? root index (front ++ behind) ∧
      ∀ path, fileOf? root index (front ++ behind) = some path →
        ∃ names : List Text, names ≠ [] ∧ (∀ name ∈ names, IsName name) ∧
          components path = components root ++ names.map .name ∧
          (path = root.child index ∧ names = [index] ∨ names = namesOf front) := by
  refine ⟨by rw [fileOf?_append bare ends, fileOf?_append bare alsoEnds], fun path found => ?_⟩
  rw [fileOf?_append bare ends] at found
  have relative := not_isAbsolute_dropSlashes front
  by_cases empty : front.dropWhile (· == '/') = []
  · rw [if_pos empty, Option.some.injEq] at found
    refine ⟨[index], by simp, by simpa using plain, ?_, Or.inl ⟨found.symm, rfl⟩⟩
    rw [← found, components_child root (by simp [plain.components, Component.isName]),
      plain.components]
    rfl
  · obtain ⟨first, rest, cut, nonempty⟩ := exists_pieces empty relative
    rw [if_neg empty] at found
    split at found
    · next all =>
      obtain ⟨notHere, down⟩ := (all_isName_iff cut relative).mp all
      have whole : components (front.dropWhile (· == '/')) = (namesOf front).map .name := by
        rw [components_of_isName all, filterMap_ofName down, ← namesOf_dropSlashes front]
        rfl
      refine ⟨namesOf front, ?_, ?_, ?_, Or.inr rfl⟩
      · have idle : isIdle first = false := by
          rw [← Bool.not_eq_true, isIdle_iff, not_or]
          exact ⟨nonempty, notHere⟩
        rw [← namesOf_dropSlashes, namesOf, cut, List.filter_cons_of_pos (by simp [idle])]
        exact List.cons_ne_nil _ _
      · intro name member
        refine ⟨noSlash_of_mem_namesOf member, ?_, ?_⟩
        · simpa using (List.mem_filter.mp member).2
        · rw [← namesOf_dropSlashes] at member
          rintro rfl
          exact down (List.mem_filter.mp member).1
      · rw [Option.some.injEq] at found
        rw [← found, components_child root all, whole]
    · simp at found

end Address

/-- An address with slashes at its front, a `.` inside and a query. -/
theorem requests_stay_below_slashes :
    IsName "index.html".toList ∧ fileOf? "site".toList "index.html".toList
        "//css/./deck.css?v=/../2".toList = some "site/css/./deck.css".toList ∧
      ∃ names : List Text, names ≠ [] ∧ (∀ name ∈ names, IsName name) ∧
        components "site/css/./deck.css".toList =
          components "site".toList ++ names.map .name := by
  have plain : IsName "index.html".toList := by decide
  have bare : ∀ c ∈ "//css/./deck.css".toList, c ≠ '?' ∧ c ≠ '#' := by decide
  have ends : EndsPath "?v=/../2".toList := by simp [EndsPath]
  have alsoEnds : EndsPath "#top".toList := by simp [EndsPath]
  have found : fileOf? "site".toList "index.html".toList
      ("//css/./deck.css".toList ++ "?v=/../2".toList) =
        some "site/css/./deck.css".toList := by decide
  obtain ⟨names, nonempty, each, whole, -⟩ :=
    (requests_stay_below plain bare ends alsoEnds).2 _ found
  exact ⟨plain, found, names, nonempty, each, whole⟩

end SlideDeck.Web
