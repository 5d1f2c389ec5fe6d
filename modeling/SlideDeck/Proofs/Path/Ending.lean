import SlideDeck.Proofs.Path.Child

/-!
# The end of a path

The last name of a path and what stands before it, seen from the pieces of the path: the reader of
ends (`ending?`) drops the empty pieces at the back, and the path ends with a slash exactly if there
are any (`exists_of_ending?`). What stands before the name is the path of a directory, from which
the names at the back that say nothing are left out (`exists_of_parent?`).
-/

set_option autoImplicit false

namespace SlideDeck.Path

open SlideDeck.Text

variable {path : Path} {before : List Text} {name : Text}

/-- A path is its pieces with slashes between them. -/
theorem join_pieces (path : Path) : join ['/'] (pieces path) = path := join_splitAt '/' path

/-- No piece of a path has a slash in it. -/
theorem slash_not_mem_of_mem_pieces (path : Path) {piece : Text} (member : piece ∈ pieces path) :
    '/' ∉ piece :=
  not_mem_of_mem_splitAt member

/-- A path is absolute if nothing stands before its first slash. -/
theorem isAbsolute_of_pieces (cut : pieces path = before ++ [name]) :
    isAbsolute path = (before.head? == some []) := by
  have slashless : ∀ piece ∈ before ++ [name], '/' ∉ piece := fun piece member =>
    slash_not_mem_of_mem_pieces path (by rw [cut]; exact member)
  rw [← join_pieces path, cut]
  rcases before with _ | ⟨_ | ⟨c, first⟩, rest⟩
  · have absent := slashless name (by simp)
    cases name with
    | nil => rfl
    | cons c name =>
        rw [List.mem_cons, not_or] at absent
        simpa [join, isAbsolute_cons] using absent.1
  · rw [join_append _ (List.cons_ne_nil _ _) (List.cons_ne_nil _ _)]
    cases rest <;> rfl
  · have absent := slashless (c :: first) (by simp)
    rw [List.mem_cons, not_or] at absent
    rw [join_append _ (List.cons_ne_nil _ _) (List.cons_ne_nil _ _)]
    cases rest <;> simpa [join, isAbsolute_cons] using absent.1

/-- A path ends with a slash if nothing stands behind its last one. -/
theorem endsWith_slash_iff (cut : pieces path = before ++ [name]) :
    endsWith ['/'] path = true ↔ name = [] ∧ before ≠ [] := by
  rw [endsWith, List.isSuffixOf_iff_suffix]
  constructor
  · rintro ⟨front, rfl⟩
    rw [pieces, splitAt_append_cons] at cut
    obtain ⟨same, empty⟩ := List.append_inj' cut rfl
    exact ⟨(List.cons.inj empty).1.symm, same ▸ splitAt_ne_nil '/' front⟩
  · rintro ⟨rfl, nonempty⟩
    rw [← join_pieces path, cut, join_append ['/'] nonempty (by simp)]
    exact ⟨join ['/'] before, by simp [join]⟩

/-- The end of a path whose last piece is not empty. -/
theorem ending?_of_pieces (cut : pieces path = before ++ [name]) (nonempty : name ≠ []) :
    ending? path = some ⟨before, name, false⟩ := by
  have bare : endsWith ['/'] path = false := by
    rw [← Bool.not_eq_true, endsWith_slash_iff cut]
    simp [nonempty]
  have stop : ¬ name.isEmpty = true := by simpa using nonempty
  simp only [ending?, cut, List.reverse_append, List.reverse_singleton, List.singleton_append,
    List.dropWhile_cons_of_neg stop, List.reverse_reverse, bare]

/-- What the end of a path says about its pieces. -/
theorem exists_of_ending? {ending : Ending} (found : ending? path = some ending) :
    ∃ empty : Nat, pieces path = ending.before ++ ending.last :: List.replicate empty [] ∧
      ending.last ≠ [] ∧ (ending.slashed = true ↔ 0 < empty) := by
  rw [ending?] at found
  split at found
  · simp at found
  next last reversed rest =>
    obtain rfl := Option.some.inj found
    let idle := (pieces path).reverse.takeWhile List.isEmpty
    have empty : idle = List.replicate idle.length [] := by
      apply List.eq_replicate_of_mem
      intro piece member
      simpa using List.mem_takeWhile_imp member
    have parted : (pieces path).reverse = List.replicate idle.length [] ++ last :: reversed := by
      rw [← empty, ← rest]
      exact List.takeWhile_append_dropWhile.symm
    have whole : pieces path = reversed.reverse ++ last :: List.replicate idle.length [] := by
      have back := congrArg List.reverse parted
      simpa using back
    have nonempty : last ≠ [] := by
      have stopped := List.head?_dropWhile_not List.isEmpty (pieces path).reverse
      simpa [rest] using stopped
    refine ⟨idle.length, whole, nonempty, ?_⟩
    change endsWith ['/'] path = true ↔ _
    cases count : idle.length with
    | zero =>
        rw [count] at whole
        rw [endsWith_slash_iff whole]
        simp [nonempty]
    | succ count' =>
        rw [count, List.replicate_succ', ← List.cons_append, ← List.append_assoc] at whole
        rw [endsWith_slash_iff whole]
        simp

/-- The pieces of a path from the back, if the last one says something. -/
theorem reversed_of_pieces (cut : pieces path = before ++ [name]) (noIdle : isIdle name = false) :
    reversed path = name :: before.reverse := by
  rw [reversed, cut, List.reverse_append, List.reverse_singleton, List.singleton_append]
  cases before.reverse with
  | nil => rfl
  | cons first rest => simp [dropIdle, noIdle]

/-- The name of a path is its last piece, if that is a name. -/
theorem fileName?_of_pieces (cut : pieces path = before ++ [name]) (noIdle : isIdle name = false)
    (notAbove : name ≠ above) : fileName? path = some name := by
  simp [fileName?, reversed_of_pieces cut noIdle, noIdle, notAbove]

/-! ## Without the last name -/

/-- The names that are left out at the back say nothing. -/
theorem exists_idle_append_dropIdle (names : List Text) :
    ∃ idle, names = idle ++ dropIdle names ∧ ∀ name ∈ idle, isIdle name = true := by
  induction names using dropIdle.induct with
  | case1 => exact ⟨[], rfl, nofun⟩
  | case2 first => exact ⟨[], rfl, nofun⟩
  | case3 name earlier rest nothing ih =>
      obtain ⟨idle, parted, each⟩ := ih
      refine ⟨name :: idle, ?_, List.forall_mem_cons.mpr ⟨nothing, each⟩⟩
      rw [dropIdle.eq_3 name earlier rest, if_pos nothing, List.cons_append, ← parted]
  | case4 name earlier rest something =>
      refine ⟨[], ?_, nofun⟩
      rw [dropIdle.eq_3 name earlier rest, if_neg something, List.nil_append]

theorem dropIdle_ne_nil {names : List Text} (nonempty : names ≠ []) : dropIdle names ≠ [] := by
  induction names using dropIdle.induct with
  | case1 => exact absurd rfl nonempty
  | case2 first => exact List.cons_ne_nil first []
  | case3 name earlier rest nothing ih =>
      rw [dropIdle.eq_3 name earlier rest, if_pos nothing]
      exact ih rest
  | case4 name earlier rest something =>
      rw [dropIdle.eq_3 name earlier rest, if_neg something]
      exact List.cons_ne_nil name earlier

theorem ofReversed_of_ne {names : List Text} (notRoot : names ≠ [[]]) :
    ofReversed names = join ['/'] names.reverse := by
  rw [ofReversed]
  exact notRoot

/-- The path without its last name is that of the names before it, without those at their back that
say nothing. It is empty if there are none. -/
theorem parent?_of_pieces (cut : pieces path = before ++ [name]) (noIdle : isIdle name = false) :
    parent? path = some (if before = [] then [] else ofReversed (dropIdle before.reverse)) := by
  obtain ⟨c, name, rfl⟩ : ∃ c rest, name = c :: rest := List.exists_cons_of_ne_nil <| by
    rintro rfl
    simp [isIdle] at noIdle
  rw [parent?, reversed_of_pieces cut noIdle]
  rcases before.eq_nil_or_concat with rfl | ⟨front, last, rfl⟩
  · rfl
  · rw [if_neg (by simp), List.concat_eq_append, List.reverse_append]
    rfl

/-- **What stands before the last name** has the names before it, apart from some at the back that
say nothing. -/
theorem exists_of_parent? {directory : Path} (cut : pieces path = before ++ [name])
    (noIdle : isIdle name = false) (parent : parent? path = some directory)
    (nonempty : directory ≠ []) : ∃ kept idle idle', before = kept ++ idle ∧
      pieces directory = kept ++ idle' ∧ (∀ name ∈ idle ++ idle', isIdle name = true) ∧
      directory <+: path := by
  rw [parent?_of_pieces cut noIdle, Option.some.injEq] at parent
  have someBefore : before ≠ [] := by
    rintro rfl
    exact nonempty parent.symm
  rw [if_neg someBefore] at parent
  obtain ⟨idle, parted, silent⟩ := exists_idle_append_dropIdle before.reverse
  have someKept := dropIdle_ne_nil (List.reverse_ne_nil_iff.mpr someBefore)
  generalize dropIdle before.reverse = kept at parent parted someKept
  rw [← List.reverse_ne_nil_iff] at someKept
  have whole : before = kept.reverse ++ idle.reverse := by
    rw [← List.reverse_append, ← parted, List.reverse_reverse]
  have begins : path = join ['/'] kept.reverse ++ ['/'] ++ join ['/'] (idle.reverse ++ [name]) := by
    rw [← join_append _ someKept (by simp), ← join_pieces path, cut, whole, List.append_assoc]
  by_cases root : kept = [[]]
  · subst root parent
    refine ⟨[[]], idle.reverse, [[]], whole, by rfl, ?_, ?_⟩
    · simpa [or_imp, forall_and] using ⟨silent, rfl⟩
    · rw [begins]
      exact List.prefix_append ['/'] _
  · rw [ofReversed_of_ne root] at parent
    have slashless : ∀ piece ∈ kept.reverse, '/' ∉ piece := fun piece member =>
      slash_not_mem_of_mem_pieces path (by
        rw [cut, whole, List.append_assoc]
        exact List.mem_append_left _ member)
    refine ⟨kept.reverse, idle.reverse, [], whole, ?_, by simpa using silent, ?_⟩
    · rw [← parent, List.append_nil]
      exact splitAt_join someKept slashless
    · rw [begins, parent, List.append_assoc]
      exact List.prefix_append directory _

end SlideDeck.Path
