import SlideDeck.Proofs.Path.Ending
import SlideDeck.Proofs.Text.Search

/-!
# Paths with another extension

To give a path another extension is to give its name one (`pieces_withExtension`): the directories
before the name stay, and of the name what stands before its last period. The name stays as it is
only if it has this extension already (`renamed_eq_self_iff`). The name `..a` is a name of its own,
but without its extension it is that of the directory above, which gets no other.
-/

set_option autoImplicit false

namespace SlideDeck.Path

open SlideDeck.Text

variable {extension name stem own : Text} {path : Path} {before : List Text}

/-! ## Names -/

/-- A name without a period in it, but perhaps at its front, has no extension. -/
theorem splitName_of_none (absent : (splitName name).2 = none) : (splitName name).1 = name := by
  rw [splitName] at absent ⊢
  split
  · next parted =>
      split
      · rfl
      · next nonempty => simp [parted, nonempty] at absent
  · rfl

/-- An extension is what stands behind the last period. -/
theorem splitName_eq_some_iff :
    splitName name = (stem, some own) ↔ name = stem ++ '.' :: own ∧ stem ≠ [] ∧ '.' ∉ own := by
  constructor
  · intro parted
    rw [splitName] at parted
    split at parted
    · next back front cut =>
        split at parted
        · simp at parted
        · next nonempty =>
            obtain ⟨rfl, same⟩ := Prod.mk.inj parted
            obtain rfl := Option.some.inj same
            obtain ⟨whole, absent⟩ := splitOnce_eq_some cut
            refine ⟨?_, by simpa using nonempty, by simpa using absent⟩
            have back := congrArg List.reverse whole
            simpa using back
    · simp at parted
  · rintro ⟨rfl, nonempty, absent⟩
    have back : (stem ++ '.' :: own).reverse = own.reverse ++ '.' :: stem.reverse := by simp
    rw [splitName, back, splitOnce_append (by simpa using absent)]
    simp [nonempty]

/-- The name with another extension. -/
def renamed (extension name : Text) : Text :=
  match splitName name with
  | (_, none) => name ++ '.' :: extension
  | (stem, some _) => if stem = here then above else stem ++ '.' :: extension

/-- **A name is as it was only if it had the extension before.** -/
theorem renamed_eq_self_iff (notAbove : name ≠ above) :
    renamed extension name = name ↔
      (splitName name).2 = some extension ∧ (splitName name).1 ≠ here := by
  rw [renamed]
  rcases parted : splitName name with ⟨stem, _ | own⟩
  · simp
  · obtain ⟨rfl, -, -⟩ := splitName_eq_some_iff.mp parted
    dsimp only
    by_cases bare : stem = here
    · rw [if_pos bare]
      exact ⟨fun same => absurd same.symm notAbove, fun both => absurd bare both.2⟩
    · rw [if_neg bare, List.append_cancel_left_eq, List.cons_eq_cons]
      simp [bare, eq_comm]

/-! ## Paths -/

theorem join_concat_append (before : List Text) (front behind : Text) :
    join ['/'] (before ++ [front ++ behind]) = join ['/'] (before ++ [front]) ++ behind := by
  cases before with
  | nil => rfl
  | cons first rest =>
      rw [join_append _ (List.cons_ne_nil first rest) (List.cons_ne_nil _ _),
        join_append _ (List.cons_ne_nil first rest) (List.cons_ne_nil _ _)]
      simp [join]

theorem pieces_join (cut : pieces path = before ++ [name]) {last : Text} (noSlash : '/' ∉ last) :
    pieces (join ['/'] (before ++ [last])) = before ++ [last] := by
  refine splitAt_join (by simp) fun piece member => ?_
  rcases List.mem_append.mp member with inside | same
  · exact slash_not_mem_of_mem_pieces path (by rw [cut]; exact List.mem_append_left _ inside)
  · rw [List.mem_singleton.mp same]
    exact noSlash

theorem setExtension_of_pieces (cut : pieces path = before ++ [name]) (noIdle : isIdle name = false)
    (notAbove : name ≠ above) :
    setExtension extension path =
      join ['/'] (before ++ [(splitName name).1 ++ '.' :: extension]) := by
  rw [setExtension, stem?, fileName?_of_pieces cut noIdle notAbove, reversed_of_pieces cut noIdle]
  simp

theorem setExtension_of_above (cut : pieces path = before ++ [above]) :
    setExtension extension path = path := by
  have up : fileName? path = none := by
    rw [fileName?, reversed_of_pieces cut (by decide)]
    rfl
  rw [setExtension, stem?, up]
  rfl

/-- **A path with another extension** is the path with its name renamed. -/
theorem pieces_withExtension (cut : pieces path = before ++ [name]) (noIdle : isIdle name = false)
    (notAbove : name ≠ above) (noSlash : '/' ∉ extension) :
    pieces (withExtension extension path) = before ++ [renamed extension name] := by
  have slashless : '/' ∉ name := slash_not_mem_of_mem_pieces path (by simp [cut])
  have extension? : extension? path = (splitName name).2 := by
    rw [extension?, fileName?_of_pieces cut noIdle notAbove, Option.bind_some]
  rw [withExtension, extension?, renamed]
  rcases parted : splitName name with ⟨stem, _ | own⟩
  · have whole := splitName_of_none (show (splitName name).2 = none by rw [parted])
    simp only [setExtension_of_pieces cut noIdle notAbove, whole]
    refine pieces_join cut ?_
    simp [slashless, noSlash]
  · obtain ⟨rfl, nonempty, -⟩ := splitName_eq_some_iff.mp parted
    rw [List.mem_append, not_or] at slashless
    have shorter :
        path.take (path.length - own.length) = join ['/'] (before ++ [stem ++ ['.']]) := by
      rw [← join_pieces path, cut, List.append_cons stem, join_concat_append]
      simp
    have cut' : pieces (join ['/'] (before ++ [stem ++ ['.']])) = before ++ [stem ++ ['.']] :=
      pieces_join cut (by simp [slashless.1])
    simp only [shorter]
    by_cases bare : stem = here
    · subst bare
      rw [if_pos rfl, setExtension_of_above cut']
      exact cut'
    · have noIdle' : isIdle (stem ++ ['.']) = false := by
        simp [isIdle, here, nonempty]
      have notAbove' : stem ++ ['.'] ≠ above := fun same =>
        bare (List.append_cancel_right (show stem ++ ['.'] = here ++ ['.'] from same))
      have again : splitName (stem ++ ['.']) = (stem, some []) :=
        splitName_eq_some_iff.mpr ⟨rfl, nonempty, by simp⟩
      rw [if_neg bare, setExtension_of_pieces cut' noIdle' notAbove', again]
      refine pieces_join cut ?_
      simp [slashless.1, noSlash]

/-- A path whose name has the extension stays. -/
theorem withExtension_eq_self (cut : pieces path = before ++ [name]) (noIdle : isIdle name = false)
    (notAbove : name ≠ above) (noSlash : '/' ∉ extension) (same : renamed extension name = name) :
    withExtension extension path = path := by
  rw [← join_pieces (withExtension extension path),
    pieces_withExtension cut noIdle notAbove noSlash, same, ← cut, join_pieces]

end SlideDeck.Path
