import SlideDeck.Proofs.Html.Fragment

/-!
# Reading the tags of a piece of HTML

A reader of tags (`ReadsTags`) looks for some of the tags that the exporter writes. In marked text
it finds them where they were written and nowhere else (`ReadsTags.append`). What comes last in
the making of a fragment, the removal of the names of commands and of braces, the resolving of
escapes and the trimming, touches no tag and so leaves them as they are (`ReadsTags.finished`).
-/

set_option autoImplicit false

namespace SlideDeck.Html

open SlideDeck SlideDeck.Text

/-- Tags that begin at one place are the same. -/
theorem IsTag.eq_of_append_eq {first second s t : Text} (isFirst : IsTag first)
    (isSecond : IsTag second) (same : first ++ s = second ++ t) : first = second := by
  rcases List.append_eq_append_iff.mp same with ⟨between, rfl, -⟩ | ⟨between, rfl, -⟩
  · obtain ⟨inner, shape, -⟩ := isFirst.shape
    have ends : first ++ between = ('<' :: inner) ++ '>' :: between := by simp [shape]
    rw [isSecond.greater_last ends, List.append_nil]
  · obtain ⟨inner, shape, -⟩ := isSecond.shape
    have ends : second ++ between = ('<' :: inner) ++ '>' :: between := by simp [shape]
    rw [isFirst.greater_last ends, List.append_nil]

/-- A matcher that reads tags as they are `written`. -/
structure ReadsTags {α : Type} (written : α → Text) (look : Matcher α) : Prop where
  isTag : ∀ tag, IsTag (written tag)
  reads : ∀ tag s, look (written tag ++ s) = some (tag, s)
  whole : ∀ {s tag rest}, look s = some (tag, rest) → s = written tag ++ rest

/-- What a search among tags finds is written at the front. -/
theorem eq_of_findSome?_skip? {α : Type} {known : List α} {written : α → Text}
    {s rest : Text} {tag : α}
    (search : (known.findSome? fun tag => (skip? (written tag) s).map fun rest => (tag, rest)) =
      some (tag, rest)) : s = written tag ++ rest := by
  obtain ⟨found, -, here⟩ := List.exists_of_findSome?_eq_some search
  obtain ⟨behind, skipped, same⟩ := Option.map_eq_some_iff.mp here
  cases same
  exact skip?_eq_some_iff.mp skipped

/-! ## Tags in marked text -/

section Reader

variable {α : Type} {written : α → Text} {look : Matcher α}

namespace ReadsTags

theorem quiet (reads : ReadsTags written look) {c : Char} (other : c ≠ '<') (s : Text) :
    look (c :: s) = none := by
  cases found : look (c :: s) with
  | none => rfl
  | some answer =>
      obtain ⟨tag, rest⟩ := answer
      have whole := reads.whole found
      obtain ⟨inner, shape, -⟩ := (reads.isTag tag).shape
      rw [shape] at whole
      exact absurd (List.cons.inj whole).1 other

theorem cons (reads : ReadsTags written look) {c : Char} (other : c ≠ '<') (s : Text) :
    matchesOf look (c :: s) = matchesOf look s :=
  matchesOf_cons_of_none (reads.quiet other s)

/-- Text without `<` holds no tag. -/
theorem append_of_not_mem (reads : ReadsTags written look) {s : Text} (noLess : '<' ∉ s)
    (t : Text) :
    matchesOf look (s ++ t) = matchesOf look t := by
  induction s with
  | nil => rfl
  | cons c s ih =>
      rw [List.mem_cons, not_or] at noLess
      rw [List.cons_append, reads.cons (Ne.symm noLess.1), ih noLess.2]

theorem of_not_mem (reads : ReadsTags written look) {s : Text} (noLess : '<' ∉ s) :
    matchesOf look s = [] := by
  have whole := reads.append_of_not_mem noLess []
  rwa [List.append_nil] at whole

theorem written_append (reads : ReadsTags written look) (tag : α) (s : Text) :
    matchesOf look (written tag ++ s) = tag :: matchesOf look s := by
  have found := reads.reads tag s
  obtain ⟨inner, shape, -⟩ := (reads.isTag tag).shape
  rw [shape] at found ⊢
  exact matchesOf_cons_of_some found ⟨inner ++ ['>'], rfl⟩

/-- A tag is one that is read, or it is none of these whatever follows. -/
theorem tag_append (reads : ReadsTags written look) {t : Text} (isTag : IsTag t) (s : Text) :
    matchesOf look (t ++ s) = matchesOf look t ++ matchesOf look s := by
  by_cases known : ∃ tag, t = written tag
  · obtain ⟨tag, rfl⟩ := known
    have alone := reads.written_append tag []
    rw [List.append_nil] at alone
    rw [reads.written_append, alone]
    rfl
  · have other : ∀ s, matchesOf look (t ++ s) = matchesOf look s := by
      intro s
      have quiet : look (t ++ s) = none := by
        cases found : look (t ++ s) with
        | none => rfl
        | some answer =>
            obtain ⟨tag, rest⟩ := answer
            exact absurd ⟨tag, isTag.eq_of_append_eq (reads.isTag tag) (reads.whole found)⟩ known
      obtain ⟨inner, rfl, chars⟩ := isTag.shape
      have noLess : '<' ∉ inner ++ ['>'] := by
        simp only [List.mem_append, List.mem_singleton]
        rintro (member | member)
        · exact absurd (chars _ member) (by decide)
        · exact absurd member (by decide)
      exact (matchesOf_cons_of_none quiet).trans (reads.append_of_not_mem noLess s)
    have alone := other []
    rw [List.append_nil] at alone
    rw [other, alone]
    rfl

/-- **Behind marked text, tags are read on their own.** -/
theorem append (reads : ReadsTags written look) {s : Text} (marked : Marked s) (t : Text) :
    matchesOf look (s ++ t) = matchesOf look s ++ matchesOf look t := by
  induction marked with
  | nil => rfl
  | char notLess _ _ ih => rw [List.cons_append, reads.cons notLess, reads.cons notLess, ih]
  | tag isTag _ ih =>
      rw [List.append_assoc, reads.tag_append isTag, reads.tag_append isTag, ih, List.append_assoc]

end ReadsTags

end Reader

/-! ## Changes away from the tags -/

/-- A matcher whose matches and replacements hold no `<`. -/
def AvoidsTags (matcher : Matcher Text) : Prop :=
  ∀ ⦃s replacement rest : Text⦄, matcher s = some (replacement, rest) →
    ∃ used, s = used ++ rest ∧ '<' ∉ used ∧ '<' ∉ replacement

theorem avoidsTags_literally {literal replacement : Text} (noLess : '<' ∉ literal)
    (unwritten : '<' ∉ replacement) : AvoidsTags (literally literal replacement) := by
  intro s found rest matched
  obtain ⟨behind, skipped, same⟩ := Option.map_eq_some_iff.mp matched
  cases same
  exact ⟨literal, skip?_eq_some_iff.mp skipped, noLess, unwritten⟩

theorem avoidsTags_commandName :
    AvoidsTags fun s => (commandName? s).map fun rest => ([], rest) := by
  intro s replacement rest matched
  obtain ⟨behind, found, same⟩ := Option.map_eq_some_iff.mp matched
  cases same
  obtain ⟨c, behind, star, rfl, letters, part⟩ := commandName?_eq_some found
  refine ⟨'\\' :: c :: (behind ++ star), rfl, ?_, List.not_mem_nil⟩
  exact List.not_mem_cons_of_ne_of_not_mem (by decide) (less_not_mem_of_commandName letters part)

theorem avoidsTags_gap : AvoidsTags gap? := by
  intro s replacement rest matched
  obtain ⟨t, rfl, -, rfl, rfl⟩ := gap?_eq_some matched
  refine ⟨'\n' :: t.takeWhile isGapChar, ?_, ?_, by decide⟩
  · simp [List.takeWhile_append_dropWhile]
  · rw [List.mem_cons, not_or]
    exact ⟨by decide, fun member => absurd (List.mem_takeWhile_imp member) (by decide)⟩

/-! ## The last conversions -/

section Reader

variable {α : Type} {written : α → Text} {look : Matcher α}

/-- **Substituting away from the tags leaves them as they are.** -/
theorem ReadsTags.substitute (reads : ReadsTags written look) {matcher : Matcher Text}
    (keeps : Keeps matcher) (avoids : AvoidsTags matcher) {s : Text} (marked : Marked s) :
    matchesOf look (Text.substitute matcher s) = matchesOf look s := by
  induction marked using Marked.pass_induction keeps with
  | nil => rfl
  | quiet c s notLess notGreater rest unmatched ih =>
      rw [substitute_cons_of_none unmatched, reads.cons notLess, reads.cons notLess, ih]
  | found c s replacement rest _ _ found isRest _ ih =>
      obtain ⟨used, whole, noLess, unwritten⟩ := avoids found
      rw [substitute_cons_of_some found isRest, reads.append_of_not_mem unwritten, ih, whole,
        reads.append_of_not_mem noLess]
  | tag t s isTag rest ih =>
      rw [substitute_append_of_quiet fun c member => keeps.quiet (isTag.not_neutral member),
        reads.tag_append isTag, reads.tag_append isTag, ih]

namespace ReadsTags

theorem dropGroupBracesFrom (reads : ReadsTags written look) (escaped : Bool) {s : Text}
    (marked : Marked s) :
    matchesOf look (Html.dropGroupBracesFrom escaped s) = matchesOf look s := by
  induction marked generalizing escaped with
  | nil => rfl
  | char notLess _ _ ih =>
      rw [Html.dropGroupBracesFrom, reads.cons notLess]
      split
      · exact ih _
      · rw [reads.cons notLess, ih]
  | @tag t s isTag _ ih =>
      obtain ⟨behind, same⟩ := dropGroupBracesFrom_append escaped (t := s) isTag.isBrace_eq_false
      rw [same, reads.tag_append isTag, reads.tag_append isTag, ih]

theorem resolveEscapes (reads : ReadsTags written look) {s : Text} (marked : Marked s) :
    matchesOf look (Html.resolveEscapes s) = matchesOf look s := by
  have fits : ∀ entry ∈ escapes, isHarmless entry.1 = true ∧ '<' ∉ entry.1 ∧ '<' ∉ entry.2 ∧
      '>' ∉ entry.2 := by decide
  unfold Html.resolveEscapes
  generalize escapes = entries at fits
  induction entries generalizing s with
  | nil => rfl
  | cons entry entries ih =>
      rw [List.forall_mem_cons] at fits
      obtain ⟨⟨harmless, noLess, unwritten, noGreater⟩, later⟩ := fits
      have plain : Marked entry.2 := .of_plain unwritten noGreater
      rw [List.foldl_cons, ih (marked.replace harmless plain) later]
      exact reads.substitute (keeps_literally harmless plain)
        (avoidsTags_literally noLess unwritten) marked

theorem trim (reads : ReadsTags written look) {s : Text} (marked : Marked s) :
    matchesOf look (Text.trim s) = matchesOf look s := by
  have blank : ∀ {c}, isBlank c = true → c ≠ '<' := by
    rintro c isBlank rfl
    exact absurd isBlank (by decide)
  have start : matchesOf look (trimStart s) = matchesOf look s := by
    have noLess : '<' ∉ s.takeWhile isBlank :=
      fun member => blank (List.mem_takeWhile_imp member) rfl
    have behind := reads.append_of_not_mem noLess (s.dropWhile isBlank)
    rw [List.takeWhile_append_dropWhile] at behind
    exact behind.symm
  obtain ⟨blanks, whole, areBlank⟩ := exists_blanks_trimEnd (trimStart s)
  have front := reads.append marked.trim blanks
  rw [Text.trim, ← whole, start, reads.of_not_mem fun member => blank (areBlank _ member) rfl,
    List.append_nil] at front
  exact front.symm

/-- **What comes last in the making of a fragment leaves the tags as they are.** -/
theorem finished (reads : ReadsTags written look) {s : Text} (marked : Marked s) :
    matchesOf look (Text.trim (collapseGaps
      (Html.resolveEscapes (dropGroupBraces (remove commandName? s))))) =
      matchesOf look s := by
  have bare : Marked (remove commandName? s) := marked.substitute keepsRest_commandName.remove
  have ungrouped : Marked (dropGroupBraces (remove commandName? s)) :=
    bare.dropGroupBracesFrom false
  have resolved := ungrouped.resolveEscapes
  have collapsed :
      Marked (collapseGaps (Html.resolveEscapes (dropGroupBraces (remove commandName? s)))) :=
    resolved.substitute keeps_gap
  calc matchesOf look (Text.trim _)
      = matchesOf look (collapseGaps (Html.resolveEscapes
        (dropGroupBraces (remove commandName? s)))) :=
        reads.trim collapsed
    _ = matchesOf look (Html.resolveEscapes (dropGroupBraces (remove commandName? s))) :=
        reads.substitute keeps_gap avoidsTags_gap resolved
    _ = matchesOf look (dropGroupBraces (remove commandName? s)) := reads.resolveEscapes ungrouped
    _ = matchesOf look (remove commandName? s) := reads.dropGroupBracesFrom false bare
    _ = matchesOf look s :=
      reads.substitute keepsRest_commandName.remove avoidsTags_commandName marked

end ReadsTags

end Reader

end SlideDeck.Html
