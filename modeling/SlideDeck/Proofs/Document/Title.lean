import SlideDeck.Proofs.Document.TitlePage
import SlideDeck.Proofs.Html.NoteEnd
import SlideDeck.Proofs.Markdown.Title

/-!
# The title of a document

A source may state a title in its metadata block and in headings of the first level. Of the values
in the block the last one that is not blank should count, or else the first heading that is not
(`statedTitle?`), or else the title of the options. A document has that title, whatever the options
are, just if no blank text hides it (`writtenTitle?_iff`).

A blank text does so if it is the title of the presentation all the same (`HidesTitle`): a value of
nothing but blanks in quotes, which is not empty, or a heading without text in front of the others.
The presentation keeps it, and the document leaves it out again, together with the titles that it
hides.
-/

set_option autoImplicit false

namespace SlideDeck

open SlideDeck.Text SlideDeck.Latex SlideDeck.Markdown

/-! ## What stands in the braces -/

namespace Deck

/-- In guarded text the braces without a backslash before them are those that count. -/
theorem bareBraces_of_guarded {second : Char → Bool} {row : Bool} {s : Text}
    (guarded : Guarded second row s) : bareBraces s = bracesOf s := by
  rw [bareBraces, bracesOf]
  induction guarded with
  | nil => rfl
  | rowEnd => rfl
  | @char _ c s loose _ ih =>
      have notSlash : (c == '\\') = false := beq_eq_false_iff_ne.mpr (isLoose_iff.mp loose).1
      simp [bareBracesFrom, bracesFrom, escapesNext, notSlash, ih]
  | @pair _ c s other _ _ ih =>
      have notSlash : (c == '\\') = false := beq_eq_false_iff_ne.mpr other
      simp [bareBracesFrom, bracesFrom, escapesNext, notSlash, ih]

/-- Guarded text ends in a backslash just if it ends a row. -/
theorem slashed_of_guarded {second : Char → Bool} {row : Bool} {s : Text}
    (guarded : Guarded second row s) : slashed false s = row := by
  induction guarded with
  | nil => rfl
  | rowEnd => rfl
  | @char _ c s loose _ ih =>
      rw [slashed_cons, beq_eq_false_iff_ne.mpr (isLoose_iff.mp loose).1, ih]
  | @pair _ c s other _ _ ih =>
      rw [slashed_cons, slashed_cons, beq_eq_false_iff_ne.mpr other, ih]

/-- Tidy text in braces is read as it is. -/
theorem balancedFrom_tidy {s : Text} (tidy : Tidy s) (rest : Text) :
    balancedFrom false 0 (s ++ '\x7d' :: rest) = some s := by
  have leads : depthAfter 0 (bareBracesFrom false s) = some 0 :=
    (congrArg (depthAfter 0) (bareBraces_of_guarded tidy.guarded)).trans tidy.depth
  rw [balancedFrom_append leads, slashed_of_guarded tidy.guarded]
  exact congrArg some (List.append_nil s)

end Deck

namespace Document

/-- The text in the braces of the title command behind the first parts of a document. -/
def writtenTitle? (source : Text) (options : Options) : Option Text :=
  let presentation := Presentation.read source
  let front := terminated (leading (settings presentation.metadata options) presentation.hasNotes)
  (skip? (front ++ "\\title\x7b".toList) (ofMarkdown source options)).bind
    (Deck.balancedFrom false 0)

theorem writtenTitle?_eq (source : Text) (options : Options) :
    writtenTitle? source options =
      some (settings (Presentation.read source).metadata options).title := by
  let given := settings (Presentation.read source).metadata options
  have tidy : Tidy given.title := tidy_titleText_getD _ (by decide)
  obtain ⟨rest, same⟩ : ∃ rest, ofMarkdown source options =
      terminated (leading given (Presentation.read source).hasNotes) ++ "\\title\x7b".toList ++
        (given.title ++ '\x7d' :: rest) := by
    refine ⟨'\n' :: terminated (command "author".toList given.author ::
      command "date".toList given.date :: [] :: beginEnvironment "document".toList ::
        (textParts (Presentation.read source).slides ++ [endEnvironment "document".toList])), ?_⟩
    have title : command "title".toList given.title =
        "\\title\x7b".toList ++ (given.title ++ ['\x7d']) := rfl
    rw [ofMarkdown, render_eq, preliminaries_eq, List.append_assoc, terminated_append,
      List.cons_append, terminated_cons, title]
    simp only [List.append_assoc, List.cons_append, List.nil_append]
    rfl
  rw [writtenTitle?, skip?_eq_some_iff.mpr same]
  exact Deck.balancedFrom_tidy tidy rest

/-! ## Titles that are stated -/

/-- The title that a source states: the last value that is not blank, or else the first such
heading. -/
def statedTitle? (source : Text) : Option Text :=
  (((titleValues source).filter fun value => !isBlankText value).getLast?.or
    ((titleHeadings source).find? fun title => !isBlankText title)).map trim

/-- The presentation keeps a blank title, although the source states another one. -/
def HidesTitle (source : Text) : Prop :=
  ∃ title, keptTitle? source = some title ∧ isBlankText title = true ∧ statedTitle? source ≠ none

/-- A blank title of the presentation does not count. -/
theorem lookup_title (source : Text) :
    lookup (Presentation.read source).metadata [titleKey] =
      ((keptTitle? source).filter fun title => !isBlankText title).map trim := by
  have key : [titleKey].filterMap (Presentation.read source).metadata.get? =
      (keptTitle? source).toList := by
    rw [← get?_title_read, List.filterMap_cons, List.filterMap_nil]
    cases (Presentation.read source).metadata.get? titleKey <;> rfl
  rw [lookup, key]
  cases keptTitle? source with
  | none => rfl
  | some title =>
      have blank : (trim title).isEmpty = isBlankText title := by
        rw [Bool.eq_iff_iff, List.isEmpty_iff, trim_eq_nil_iff]
      cases same : isBlankText title <;> simp [blank, same, Option.filter]

theorem filter_visible (values : List Text) :
    values.filter (fun value => !isBlankText value) =
      (values.filter fun value => !value.isEmpty).filter fun value => !isBlankText value := by
  rw [List.filter_filter]
  refine List.filter_congr fun value _ => ?_
  cases value <;> simp [isBlankText]

/-- Without a title of the presentation the source states none. -/
theorem statedTitle?_of_none {source : Text} (absent : keptTitle? source = none) :
    statedTitle? source = none := by
  rw [keptTitle?, Option.or_eq_none_iff, List.getLast?_eq_none_iff,
    List.head?_eq_none_iff] at absent
  rw [statedTitle?, filter_visible, absent.1, absent.2]
  rfl

/-- A title of the presentation that is not blank is the one that the source states. -/
theorem statedTitle?_of_visible {source title : Text} (kept : keptTitle? source = some title)
    (visible : isBlankText title = false) : statedTitle? source = some (trim title) := by
  rw [statedTitle?, filter_visible]
  rcases Option.or_eq_some_iff.mp kept with last | ⟨absent, first⟩
  · obtain ⟨front, whole⟩ := List.getLast?_eq_some_iff.mp last
    have filtered : [title].filter (fun value => !isBlankText value) = [title] := by simp [visible]
    rw [whole, List.filter_append, filtered, List.getLast?_concat]
    rfl
  · obtain ⟨rest, whole⟩ := List.head?_eq_some_iff.mp first
    rw [List.getLast?_eq_none_iff.mp absent, whole, List.find?_cons, visible]
    rfl

theorem title_settings (metadata : Entries) (options : Options) :
    (settings metadata options).title =
      (((lookup metadata [titleKey]).or options.title).map titleText).getD "Presentation".toList :=
  rfl

/-- **The title of a document.** It is the one that the source states, or else the one of the
options, for all options, just if the source hides no title. -/
theorem writtenTitle?_iff (source : Text) :
    (∀ options : Options, writtenTitle? source options =
        some ((((statedTitle? source).or options.title).map titleText).getD
          "Presentation".toList)) ↔
      ¬ HidesTitle source := by
  simp only [writtenTitle?_eq, title_settings, lookup_title, Option.some.injEq]
  cases kept : keptTitle? source with
  | none => simp [HidesTitle, kept, statedTitle?_of_none kept]
  | some title =>
      cases blank : isBlankText title with
      | false => simp [HidesTitle, kept, blank, statedTitle?_of_visible kept blank, Option.filter]
      | true =>
          cases stated : statedTitle? source with
          | none => simp [HidesTitle, kept, blank, stated, Option.filter]
          | some other =>
              have hides : HidesTitle source := ⟨title, kept, blank, by simp [stated]⟩
              refine iff_of_false (fun all => ?_) (not_not_intro hides)
              -- The document has the title of the options, and these have different ones.
              have absent : (some title).filter (fun title => !isBlankText title) = none := by
                simp [Option.filter, blank]
              simp only [absent, Option.map_none, Option.none_or, Option.some_or, Option.map_some,
                Option.getD_some] at all
              have empty : titleText [] = titleText other := all { title := some [] }
              have letter : titleText "A".toList = titleText other :=
                all { title := some "A".toList }
              exact absurd (empty.trans letter.symm) (by decide)

/-- A value of blanks in quotes hides a heading. -/
theorem writtenTitle?_quotedBlank :
    ¬ ∀ (source : Text) (options : Options), writtenTitle? source options =
        some ((((statedTitle? source).or options.title).map titleText).getD
          "Presentation".toList) := by
  intro all
  have hidden := all (unlines ["---".toList, "title: \x22 \x22".toList, "---".toList,
    "# Real".toList, "## A".toList, []]) {}
  revert hidden
  decide +kernel

end Document

end SlideDeck
