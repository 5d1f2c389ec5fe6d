import SlideDeck.Proofs.Text.Silent

/-!
# Conversions between blanks

A conversion *breaks at* a character when nothing that it looks for reaches across the character
(`BreaksAt`). It is *wordwise* when it breaks at all blanks: it converts what stands between the
blanks, and leaves these. Replacing a text without blanks is wordwise
(`Wordwise.replace`), and so is one such conversion behind another. Joined lines can then be
converted line by line (`Wordwise.unlines`).
-/

set_option autoImplicit false

namespace SlideDeck.Text

/-! ## Replacing around a character -/

section Replace

variable {c d : Char} {literal : Text}

theorem replace_append_self (d : Char) (literal replacement s : Text) :
    replace (d :: literal) replacement (d :: literal ++ s) =
      replacement ++ replace (d :: literal) replacement s := by
  have skipped : skip? (d :: literal) (d :: literal ++ s) = some s := skip?_eq_some_iff.mpr rfl
  refine substitute_append_of_some ?_ (List.cons_ne_nil d literal)
  rw [literally, skipped]
  rfl

theorem replace_cons (replacement : Text) {s : Text} (other : ¬ literal <+: c :: s) :
    replace literal replacement (c :: s) = c :: replace literal replacement s := by
  refine substitute_cons_of_none ?_
  rw [literally, skip?_eq_none other]
  rfl

/-- What does not hold a character is replaced on either side of it. -/
theorem replace_append_cons (absent : c ∉ d :: literal) (replacement s t : Text) :
    replace (d :: literal) replacement (s ++ c :: t) =
      replace (d :: literal) replacement s ++ c :: replace (d :: literal) replacement t := by
  induction s using occurrence_induction d literal with
  | nil =>
      refine replace_cons replacement fun begins => absent ?_
      rw [(List.cons_prefix_cons.mp begins).1]
      exact List.mem_cons_self
  | occurs rest ih =>
      rw [List.append_assoc, replace_append_self, replace_append_self, ih, List.append_assoc]
  | other e s begins ih =>
      have later : ¬ d :: literal <+: e :: (s ++ c :: t) := fun begun =>
        begins (isPrefix_of_isPrefix_append_cons absent begun)
      rw [List.cons_append, replace_cons replacement later, replace_cons replacement begins, ih,
        List.cons_append]

/-- Where something visible comes in place of a text, what was visible stays so. -/
theorem isBlankText_replace {replacement s : Text} (visible : isBlankText replacement = false)
    (shown : isBlankText s = false) :
    isBlankText (replace (d :: literal) replacement s) = false := by
  induction s with
  | nil => cases shown
  | cons e s ih =>
      by_cases begins : d :: literal <+: e :: s
      · obtain ⟨rest, whole⟩ := begins
        rw [← whole, replace_append_self, isBlankText, List.all_append]
        exact Bool.and_eq_false_imp.mpr fun blank => absurd (visible.symm.trans blank) (by decide)
      · rw [replace_cons replacement begins, isBlankText, List.all_cons]
        rw [isBlankText, List.all_cons] at shown
        cases blank : isBlank e with
        | false => rfl
        | true =>
            rw [blank] at shown
            exact ih shown

end Replace

/-! ## Conversions around a character -/

/-- A conversion for which nothing that it looks for reaches across a character. -/
structure BreaksAt (c : Char) (convert : Text → Text) : Prop where
  nil : convert [] = []
  around : ∀ s t, convert (s ++ c :: t) = convert s ++ c :: convert t

namespace BreaksAt

variable {c : Char} {convert later : Text → Text}

theorem comp (first : BreaksAt c convert) (second : BreaksAt c later) :
    BreaksAt c fun s => later (convert s) where
  nil := by rw [first.nil, second.nil]
  around s t := by rw [first.around, second.around]

theorem replace {d : Char} {literal : Text} (absent : c ∉ d :: literal) (replacement : Text) :
    BreaksAt c (Text.replace (d :: literal) replacement) where
  nil := rfl
  around := replace_append_cons absent replacement

theorem cons (breaks : BreaksAt c convert) (t : Text) : convert (c :: t) = c :: convert t := by
  have whole := breaks.around [] t
  rwa [breaks.nil] at whole

theorem concat (breaks : BreaksAt c convert) (s : Text) :
    convert (s ++ [c]) = convert s ++ [c] := by
  rw [breaks.around, breaks.nil]

end BreaksAt

/-! ## Wordwise conversions -/

/-- A conversion of what stands between the blanks of a text. -/
structure Wordwise (convert : Text → Text) : Prop where
  nil : convert [] = []
  blank : ∀ s t {c : Char}, isBlank c = true → convert (s ++ c :: t) = convert s ++ c :: convert t

/-- Joined lines are converted line by line where the ends of lines do not matter. -/
theorem convert_unlines {convert : Text → Text} (nil : convert [] = []) {ls : List Text}
    (each : ∀ line ∈ ls, ∀ t, convert (line ++ '\n' :: t) = convert line ++ '\n' :: convert t) :
    convert (unlines ls) = unlines (ls.map convert) := by
  induction ls with
  | nil => exact nil
  | cons line ls ih =>
      rw [List.forall_mem_cons] at each
      cases ls with
      | nil => rfl
      | cons next ls =>
          rw [unlines_cons_cons, each.1, ih each.2]
          exact (unlines_cons_cons (convert line) (convert next) (ls.map convert)).symm

namespace Wordwise

variable {convert later : Text → Text}

theorem replace {d : Char} {literal : Text} (noBlank : ∀ c ∈ d :: literal, isBlank c = false)
    (replacement : Text) : Wordwise (Text.replace (d :: literal) replacement) where
  nil := rfl
  blank s t {c} blank := by
    refine replace_append_cons (fun member => ?_) replacement s t
    rw [noBlank c member] at blank
    cases blank

theorem comp (first : Wordwise convert) (second : Wordwise later) :
    Wordwise fun s => later (convert s) where
  nil := by rw [first.nil, second.nil]
  blank s t {c} blank := by rw [first.blank s t blank, second.blank _ _ blank]

theorem unlines (wordwise : Wordwise convert) (ls : List Text) :
    convert (Text.unlines ls) = Text.unlines (ls.map convert) :=
  convert_unlines wordwise.nil fun line _ t => wordwise.blank line t (by decide)

/-- A word and the blank behind it stand in front of what is converted. -/
theorem word (wordwise : Wordwise convert) {w : Text} (kept : convert w = w) {c : Char}
    (blank : isBlank c = true) (t : Text) : convert (w ++ c :: t) = w ++ c :: convert t := by
  rw [wordwise.blank w t blank, kept]

theorem breaksAt (wordwise : Wordwise convert) {c : Char} (blank : isBlank c = true) :
    BreaksAt c convert where
  nil := wordwise.nil
  around s t := wordwise.blank s t blank

/-- Blanks stay in front of what is converted. -/
theorem blanks_append {front : Text} (wordwise : Wordwise convert)
    (areBlank : ∀ c ∈ front, isBlank c = true)
    (t : Text) : convert (front ++ t) = front ++ convert t := by
  induction front with
  | nil => rfl
  | cons c front ih =>
      rw [List.forall_mem_cons] at areBlank
      rw [List.cons_append, (wordwise.breaksAt areBlank.1).cons, ih areBlank.2, List.cons_append]

/-- And behind it. -/
theorem append_blanks {back : Text} (wordwise : Wordwise convert)
    (areBlank : ∀ c ∈ back, isBlank c = true) (s : Text) :
    convert (s ++ back) = convert s ++ back := by
  cases back with
  | nil => rw [List.append_nil, List.append_nil]
  | cons c back =>
      rw [List.forall_mem_cons] at areBlank
      have later := wordwise.blanks_append areBlank.2 []
      rw [wordwise.nil, List.append_nil] at later
      rw [wordwise.blank s back areBlank.1, later]

end Wordwise

end SlideDeck.Text
