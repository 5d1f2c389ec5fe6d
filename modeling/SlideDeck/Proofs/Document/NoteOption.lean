import SlideDeck.Proofs.Document.Parts
import SlideDeck.Proofs.Markdown.Transcript

/-!
# Whether notes are shown

A document turns its notes on in the preamble (`ShowsNotes`), and the notes themselves stand behind
the frames (`HasNote`). The preamble goes by the lines of the notes as they were written
(`showsNotes_iff`), a frame by what formatting leaves of them (`hasNote_iff`).

Formatting leaves nothing of a line only if sanitizing does (`Inline.format_eq_nil_iff`), and a note
is empty only if it has no other line with text (`Slide.noteBody_eq_nil_iff`). So a note never
stands in a document that does not show it (`HasNote.showsNotes`); but where the notes of all slides
are one line of emoji each, or none, the document turns them on for nothing. That is the only way in
which the two differ (`showsNotes_iff_hasNote_iff`).
-/

set_option autoImplicit false

namespace SlideDeck

open SlideDeck.Text SlideDeck.Latex SlideDeck.Markdown

/-! ## What formatting leaves -/

/-- Where no match is replaced by nothing, something is left of a text. -/
theorem Text.substitute_ne_nil {matcher : Matcher Text}
    (nonempty : ∀ {s replacement rest}, matcher s = some (replacement, rest) → replacement ≠ [])
    {s : Text} (visible : s ≠ []) : substitute matcher s ≠ [] := by
  cases s with
  | nil => exact absurd rfl visible
  | cons c s =>
      rw [substitute, substituteFrom]
      split
      · next found => exact List.append_ne_nil_of_left_ne_nil (nonempty found) _
      · exact List.cons_ne_nil c _

namespace Inline

theorem escapeChar_ne_nil (c : Char) : escapeChar c ≠ [] := by
  rw [escapeChar]
  split_ifs
  · decide
  · exact List.cons_ne_nil _ _
  · decide
  · decide
  · exact List.cons_ne_nil _ _

theorem escape_ne_nil {s : Text} (nonempty : s ≠ []) : escape s ≠ [] := by
  cases s with
  | nil => exact absurd rfl nonempty
  | cons c s => exact List.append_ne_nil_of_left_ne_nil (escapeChar_ne_nil c) _

theorem emphasize_ne_nil {s : Text} (nonempty : s ≠ []) : emphasize s ≠ [] := by
  refine substitute_ne_nil (fun found => ?_) (substitute_ne_nil (fun found => ?_) nonempty)
  · obtain ⟨body, -, rfl⟩ := italicSpan_eq_some found
    exact List.cons_ne_nil _ _
  · obtain ⟨body, -, rfl⟩ := boldSpan_eq_some found
    exact List.cons_ne_nil _ _

/-- The first part of a line is code, or text with its first character. -/
theorem format_eq_nil_iff {s : Text} : format s = [] ↔ sanitize s = [] := by
  rw [format, spans]
  cases sanitize s with
  | nil => exact iff_of_true rfl rfl
  | cons c s =>
      refine iff_of_false ?_ (List.cons_ne_nil c s)
      rw [spansFrom]
      split
      · exact List.cons_ne_nil _ _
      · rw [Span.consText.eq_def]
        split
        · exact List.append_ne_nil_of_left_ne_nil (emphasize_ne_nil (escape_ne_nil (by simp))) _
        · exact List.append_ne_nil_of_left_ne_nil (emphasize_ne_nil (escape_ne_nil (by simp))) _

end Inline

/-! ## Empty notes -/

namespace Slide

/-- The notes have a single line with text, and sanitizing leaves nothing of that. -/
def Unspoken (notes : List Text) : Prop :=
  ∃ line, visibleLines notes = [line] ∧ Inline.sanitize (trim line) = []

theorem noteLines_eq (notes : List Text) :
    noteLines notes = ((visibleLines notes).map trim).map Inline.format := by
  have same : (fun line : Text => !line.isEmpty) ∘ trim = fun line => !isBlankText line := by
    funext line
    rw [Function.comp_apply, Bool.not_inj_iff, Bool.eq_iff_iff, List.isEmpty_iff, trim_eq_nil_iff]
  rw [noteLines, visibleLines, List.filter_map, same]

/-- A note is empty without such lines, or where its only one is left empty. -/
theorem noteBody_eq_nil_iff {notes : List Text} :
    noteBody notes = [] ↔ visibleLines notes = [] ∨ Unspoken notes := by
  have between : " \\\\\n".toList ≠ [] := by decide
  rw [noteBody, noteLines_eq, Unspoken]
  cases visibleLines notes with
  | nil => exact iff_of_true rfl (.inl rfl)
  | cons line rest =>
      rw [List.map_cons, List.map_cons, join_eq_nil_iff between, Inline.format_eq_nil_iff,
        List.map_eq_nil_iff, List.map_eq_nil_iff]
      constructor
      · rintro ⟨empty, rfl⟩
        exact .inr ⟨line, rfl, empty⟩
      · rintro (empty | ⟨_, same, empty⟩)
        · cases empty
        · cases same
          exact ⟨empty, rfl⟩

end Slide

theorem Markdown.Slide.hasNotes_iff (slide : Markdown.Slide) :
    slide.hasNotes = true ↔ visibleLines slide.notes ≠ [] := by
  rw [hasNotes, visibleLines, List.any_eq_true, Ne, List.filter_eq_nil_iff]
  simp

namespace Document

open SlideDeck.Markdown SlideDeck.Slide

/-! ## The option of the preamble -/

/-- The line of the preamble that turns the notes on. -/
def noteOption : Text := command "setbeameroption".toList "show notes".toList

/-- The lines of the preamble in front of it. -/
def classLines (settings : Settings) : List Text :=
  [commandWith "documentclass".toList ("aspectratio=".toList ++ settings.aspectRatio)
      "beamer".toList,
    command "usetheme".toList settings.theme,
    command "usecolortheme".toList settings.colorTheme] ++
  preamble

/-- The preamble of the document of a source turns the notes on. -/
def ShowsNotes (source : Text) (options : Options) : Prop :=
  terminated (classLines (settings (Presentation.read source).metadata options) ++ [noteOption]) <+:
    ofMarkdown source options

theorem showsNotes_iff (source : Text) (options : Options) :
    ShowsNotes source options ↔ (Presentation.read source).hasNotes = true := by
  obtain ⟨rest, whole⟩ : ∃ rest, ofMarkdown source options =
      terminated (classLines (settings (Presentation.read source).metadata options)) ++
        (terminated (if (Presentation.read source).hasNotes then [noteOption] else []) ++
          '\n' :: rest) := by
    rw [ofMarkdown, render_eq, preliminaries, ← classLines]
    simp only [terminated_append, terminated_cons, List.append_assoc, List.nil_append]
    exact ⟨_, rfl⟩
  rw [ShowsNotes, whole, terminated_append, List.prefix_append_right_inj]
  cases (Presentation.read source).hasNotes with
  | true => exact iff_of_true (List.prefix_append _ _) rfl
  | false =>
      refine iff_of_false (fun begins => ?_) Bool.false_ne_true
      exact absurd (List.cons_prefix_cons.mp begins).1 (by decide)

/-! ## The notes behind the frames -/

/-- The lines of the frame of a slide, without the note behind it. -/
def frameLines (slide : Slide) : List Text :=
  (beginEnvironment "frame".toList ++ frameArguments slide) ::
    (bodyParts slide ++ [endEnvironment "frame".toList])

/-- In the document of a source, a note stands behind the frame of a slide. -/
def HasNote (source : Text) (options : Options) : Prop :=
  let presentation := Presentation.read source
  ∃ before slide after, presentation.slides = before ++ slide :: after ∧
    terminated (opening (settings presentation.metadata options) presentation.hasNotes ++
      titleFrame ++ before.flatMap frame ++ frameLines slide) ++ "\\note\x7b".toList <+:
        ofMarkdown source options

/-- Behind the frame of a slide stands its note, and then an empty line. -/
theorem exists_behind_frame {source : Text} (options : Options) {before after : List Slide}
    {slide : Slide} (cut : (Presentation.read source).slides = before ++ slide :: after) :
    ∃ rest, ofMarkdown source options =
      terminated (opening (settings (Presentation.read source).metadata options)
          (Presentation.read source).hasNotes ++
        titleFrame ++ before.flatMap frame ++ frameLines slide) ++
      (terminated (noteLines (noteBody slide.notes)) ++ '\n' :: rest) := by
  have note : frame slide = frameLines slide ++ (noteLines (noteBody slide.notes) ++ [[]]) := by
    rw [frame_eq, frameLines, List.cons_append, List.append_assoc]
    rfl
  refine ⟨terminated (after.flatMap frame ++ closing), ?_⟩
  rw [ofMarkdown, render, cut, List.flatMap_append, List.flatMap_cons, note]
  simp only [terminated_append, terminated_cons, List.append_assoc, List.nil_append,
    List.cons_append]

theorem hasNote_iff (source : Text) (options : Options) :
    HasNote source options ↔
      ∃ slide ∈ (Presentation.read source).slides, noteBody slide.notes ≠ [] := by
  constructor
  · rintro ⟨before, slide, after, cut, begins⟩
    refine ⟨slide, by simp [cut], fun empty => ?_⟩
    obtain ⟨rest, whole⟩ := exists_behind_frame options cut
    rw [whole, empty, List.prefix_append_right_inj] at begins
    exact absurd (List.cons_prefix_cons.mp begins).1 (by decide)
  · rintro ⟨slide, member, nonempty⟩
    obtain ⟨before, after, cut⟩ := List.append_of_mem member
    obtain ⟨rest, whole⟩ := exists_behind_frame options cut
    refine ⟨before, slide, after, cut, ?_⟩
    have written : noteLines (noteBody slide.notes) =
        ["\\note\x7b".toList, noteBody slide.notes, "\x7d".toList] := by
      simp [noteLines, nonempty]
    rw [whole, written, List.prefix_append_right_inj, terminated_cons, List.append_assoc]
    exact List.prefix_append _ _

theorem noteBody_ne_nil_iff {slide : Slide} :
    noteBody slide.notes ≠ [] ↔ slide.hasNotes = true ∧ ¬ Unspoken slide.notes := by
  rw [Ne, noteBody_eq_nil_iff, not_or, slide.hasNotes_iff]

/-- No note stands in a document that does not turn its notes on. -/
theorem HasNote.showsNotes {source : Text} {options : Options} (note : HasNote source options) :
    ShowsNotes source options := by
  obtain ⟨slide, member, nonempty⟩ := (hasNote_iff source options).mp note
  rw [showsNotes_iff, Presentation.hasNotes, List.any_eq_true]
  exact ⟨slide, member, (noteBody_ne_nil_iff.mp nonempty).1⟩

/-- **The preamble and the frames agree.** The notes are turned on just where one stands behind a
frame, if some slide with notes has more to say than a line of which nothing is left, or no slide
has notes. -/
theorem showsNotes_iff_hasNote_iff (source : Text) (options : Options) :
    (ShowsNotes source options ↔ HasNote source options) ↔
      ((∃ slide ∈ (Presentation.read source).slides, slide.hasNotes = true) →
        ∃ slide ∈ (Presentation.read source).slides,
          slide.hasNotes = true ∧ ¬ Unspoken slide.notes) := by
  have forth : (ShowsNotes source options ↔ HasNote source options) ↔
      (ShowsNotes source options → HasNote source options) :=
    ⟨Iff.mp, fun shown => ⟨shown, HasNote.showsNotes⟩⟩
  rw [forth, showsNotes_iff, hasNote_iff, Presentation.hasNotes, List.any_eq_true]
  simp only [noteBody_ne_nil_iff]

/-- The notes are turned on for a rocket, and no note stands behind the frame. -/
theorem showsNotes_rocket :
    ¬ ∀ (source : Text) (options : Options), ShowsNotes source options ↔
      HasNote source options := by
  intro all
  have agrees := all (unlines ["## A".toList, "Note: ".toList ++ [Char.ofNat 0x1F680], []]) {}
  rw [showsNotes_iff, hasNote_iff] at agrees
  revert agrees
  decide +kernel

end Document

end SlideDeck
