import Mathlib.Data.List.Forall2
import SlideDeck.Proofs.Document.ReadBack
import SlideDeck.Proofs.Html.Fragment

/-!
# Angle brackets in speaker notes

The notes of a deck go to the page as they are. The reader turns bold commands into elements
(`Bolded`) and leaves everything else alone, so the angle brackets of what it shows are those of
the note and those of the tags around bold text.

The writer adds no angle bracket to a note and takes none away: escaping has no escape for them,
emphasis only replaces asterisks, and trimming only drops blanks (`angles_noteBody`). So the angle
brackets of a note are those of its lines in the source, once these have been sanitized
(`notes_read_ofMarkdown`). Titles and bodies are different: their angle brackets become entities.
-/

set_option autoImplicit false

namespace SlideDeck

open SlideDeck.Text SlideDeck.Latex SlideDeck.Markdown

namespace Html

/-! ## Angle brackets -/

/-- The angle brackets of a text, in order. -/
def angles (s : Text) : Text := s.filter fun c => c == '<' || c == '>'

theorem angles_append (s t : Text) : angles (s ++ t) = angles s ++ angles t :=
  List.filter_append s t

theorem angles_cons (c : Char) (s : Text) : angles (c :: s) = angles [c] ++ angles s :=
  angles_append [c] s

theorem angles_flatMap {α : Type} (items : List α) (write : α → Text) :
    angles (items.flatMap write) = items.flatMap fun item => angles (write item) :=
  List.filter_flatMap

theorem angles_of_blank {s : Text} (blanks : ∀ c ∈ s, isBlank c = true) : angles s = [] := by
  rw [angles, List.filter_eq_nil_iff]
  intro c member angle
  have blank := blanks c member
  rcases Bool.or_eq_true_iff.mp angle with same | same <;>
    · rw [beq_iff_eq.mp same] at blank
      exact absurd blank (by decide)

theorem angles_trim (s : Text) : angles (trim s) = angles s := by
  obtain ⟨front, back, whole, first, last⟩ := exists_blanks_trim s
  conv_rhs => rw [whole, angles_append, angles_append, angles_of_blank first, angles_of_blank last,
    List.append_nil, List.nil_append]

theorem angles_join {separator : Text} (noAngles : angles separator = []) (pieces : List Text) :
    angles (join separator pieces) = pieces.flatMap angles := by
  induction pieces with
  | nil => rfl
  | cons piece pieces ih =>
      cases pieces with
      | nil => simp [join]
      | cons next pieces =>
          rw [join, angles_append, angles_append, noAngles, ih, List.append_nil]
          rfl

theorem angles_command {name : Text} (noAngles : angles name = []) (s : Text) :
    angles (command name s) = angles s := by
  have whole : command name s = ['\\'] ++ name ++ ['\x7b'] ++ s ++ ['\x7d'] := by
    simp [command, group]
  have slash : angles ['\\'] = [] := by decide
  have opening : angles ['\x7b'] = [] := by decide
  have closing : angles ['\x7d'] = [] := by decide
  rw [whole, angles_append, angles_append, angles_append, angles_append, slash, noAngles, opening,
    closing, List.append_nil]
  rfl

/-- Where each match keeps the angle brackets of what it replaces, substituting keeps them. -/
theorem angles_substitute {matcher : Matcher Text}
    (keeps : ∀ {s replacement rest}, matcher s = some (replacement, rest) →
      ∃ used, s = used ++ rest ∧ used ≠ [] ∧ angles replacement = angles used) (s : Text) :
    angles (substitute matcher s) = angles s := by
  induction s using pass_induction matcher with
  | nil => rfl
  | quiet c s unmatched ih => rw [substitute_cons_of_none unmatched, angles_cons, ih, ← angles_cons]
  | found c s replacement rest found ih =>
      obtain ⟨used, whole, nonempty, same⟩ := keeps found
      have isRest : rest <:+ s := by
        obtain ⟨d, used, rfl⟩ := List.exists_cons_of_ne_nil nonempty
        exact ⟨used, (List.cons.inj whole).2.symm⟩
      rw [substitute_cons_of_some found isRest, angles_append, ih isRest, same, whole,
        angles_append]

end Html

/-! ## What formatting does to angle brackets -/

namespace Inline

open SlideDeck.Html

theorem angles_escapeChar (c : Char) : angles (escapeChar c) = angles [c] := by
  have symbols : ∀ name ∈ symbolNames, angles (symbol name) = [] := by decide
  rw [escapeChar]
  split
  · next same =>
      rw [same, symbols _ (by decide)]
      rfl
  · split
    · exact angles_append ['\\'] [c]
    · split
      · next same =>
          rw [same, symbols _ (by decide)]
          rfl
      · split
        · next same =>
            rw [same, symbols _ (by decide)]
            rfl
        · rfl

theorem angles_escape (s : Text) : angles (escape s) = angles s := by
  rw [escape, angles_flatMap]
  simp only [angles_escapeChar]
  rw [← angles_flatMap]
  exact congrArg angles (List.flatMap_singleton' s)

theorem angles_emphasize (s : Text) : angles (emphasize s) = angles s := by
  have stars : angles ['*', '*'] = [] ∧ angles ['*'] = [] := by decide
  rw [emphasize, angles_substitute fun found => ?_, angles_substitute fun found => ?_]
  · obtain ⟨body, rfl, rfl⟩ := boldSpan_eq_some found
    refine ⟨['*', '*'] ++ body ++ ['*', '*'], by simp, by simp, ?_⟩
    rw [angles_command (by decide), angles_append, angles_append, stars.1]
    simp
  · obtain ⟨body, rfl, rfl⟩ := italicSpan_eq_some found
    refine ⟨['*'] ++ body ++ ['*'], by simp, by simp, ?_⟩
    rw [angles_command (by decide), angles_append, angles_append, stars.2]
    simp

theorem angles_toLatex (span : Span) : angles span.toLatex = angles span.content := by
  cases span with
  | text s => exact (angles_emphasize _).trans (angles_escape s)
  | code s => exact (angles_command (by decide) _).trans (angles_escape s)

theorem flatMap_consText (c : Char) (parts : List Span) :
    (Span.consText c parts).flatMap Span.content = c :: parts.flatMap Span.content := by
  rw [Span.consText.eq_def]
  split <;> rfl

/-- Cutting out code spans drops backquotes, and nothing else. -/
theorem angles_spansFrom (covered : Nat) (s : Text) :
    angles ((spansFrom covered s).flatMap Span.content) = angles (s.drop covered) := by
  induction s generalizing covered with
  | nil => cases covered <;> rfl
  | cons c s ih =>
      cases covered with
      | succ covered => exact ih covered
      | zero =>
          have quotes : angles [backquote] = [] := by decide
          rw [List.drop_zero, spansFrom]
          split
          · next code rest found =>
              split at found
              · next quote =>
                  obtain rfl := codeSpan?_eq_some found
                  have behind : (code ++ backquote :: rest).drop
                      ((code ++ backquote :: rest).length - rest.length) = rest := by
                    rw [List.append_cons, List.length_append, Nat.add_sub_cancel, List.drop_left]
                  rw [List.flatMap_cons, angles_append, ih, behind, quote, angles_cons, quotes,
                    angles_append, angles_cons backquote rest, quotes]
                  rfl
              · cases found
          · rw [flatMap_consText, angles_cons, ih, List.drop_zero, ← angles_cons]

/-- **Formatting keeps the angle brackets of the sanitized text.** -/
theorem angles_format (s : Text) : angles (format s) = angles (sanitize s) := by
  rw [format, angles_flatMap]
  simp only [angles_toLatex]
  rw [← angles_flatMap]
  exact angles_spansFrom 0 (sanitize s)

end Inline

/-- **Writing notes keeps the angle brackets of their lines.** -/
theorem Slide.angles_noteBody (notes : List Text) :
    Html.angles (Slide.noteBody notes) =
      notes.flatMap fun line => Html.angles (Inline.sanitize (trim line)) := by
  have between : Html.angles " \\\\\n".toList = [] := by decide
  rw [Slide.noteBody, Html.angles_join between, Slide.noteLines]
  induction notes with
  | nil => simp only [List.map_nil, List.filter_nil, List.flatMap_nil]
  | cons line notes ih =>
      rw [List.map_cons, List.flatMap_cons, ← ih, List.filter_cons]
      split
      · rw [List.map_cons, List.flatMap_cons, Inline.angles_format]
      · next empty =>
          have blank : trim line = [] := by simpa using empty
          rw [blank]
          rfl

/-! ## What a deck shows of a note -/

namespace Deck

/-- A note with some of its bold commands as elements. -/
inductive Bolded : Text → Text → Prop where
  | nil : Bolded [] []
  | char (c : Char) {s t : Text} (rest : Bolded s t) : Bolded (c :: s) (c :: t)
  | bold (body : Text) {s t : Text} (rest : Bolded s t) :
      Bolded (command "textbf".toList body ++ s) (Html.element "strong".toList body ++ t)

/-- Where no such element begins, nothing was turned into one. -/
theorem Bolded.eq_of_not_isInfix {note shown : Text} (bolded : Bolded note shown)
    (absent : ¬ Html.openTag "strong".toList <:+: shown) : note = shown := by
  induction bolded with
  | nil => rfl
  | char c _ ih =>
      rw [ih fun occurs => absent (occurs.trans (List.suffix_cons c _).isInfix)]
  | bold body _ _ =>
      refine absurd ?_ absent
      rw [Html.element, List.append_assoc, List.append_assoc]
      exact (List.prefix_append _ _).isInfix

/-- A note is shown with its bold commands as elements, and otherwise as it is. -/
theorem bolded_noteHtml (note : Text) : Bolded note (noteHtml note) := by
  rw [noteHtml, Html.convertBold]
  induction note using pass_induction (Html.spanCommand ["textbf".toList] "strong".toList) with
  | nil => exact .nil
  | quiet c s unmatched ih =>
      rw [substitute_cons_of_none unmatched]
      exact .char c ih
  | found c s written behind found ih =>
      have isRest := (Html.keeps_spanCommand (by decide) (by decide)).isSuffix found
      obtain ⟨name, known, argument, body, skipped, inner, rfl⟩ := Html.spanCommand_eq_some found
      obtain rfl := List.mem_singleton.mp known
      have whole : c :: s = command "textbf".toList body ++ behind := by
        rw [skip?_eq_some_iff.mp skipped, Html.innermost?_eq_some inner]
        simp [command, group]
      rw [substitute_cons_of_some found isRest, whole]
      exact .bold body (ih isRest)

/-- All angle brackets of shown notes belong to tags that were put around bold text. -/
def OnlyStrong (notes : Text) : Prop := ∃ note, Bolded note notes ∧ Html.angles note = []

end Deck

/-! ## Documents -/

namespace Document

open SlideDeck.Slide

/-- The angle brackets of the notes of a slide. -/
def noteAngles (slide : Slide) : Text :=
  slide.notes.flatMap fun line => Html.angles (Inline.sanitize (trim line))

theorem exists_bolded_of_deckSlide {slide : Slide} {notes : Text}
    (shown : (deckSlide slide).notes = some notes) :
    ∃ note, Deck.Bolded note notes ∧ Html.angles note = noteAngles slide := by
  rw [deckSlide] at shown
  split at shown
  · cases shown
  · cases shown
    exact ⟨_, Deck.bolded_noteHtml _, (Html.angles_trim _).trans (angles_noteBody slide.notes)⟩

/-- **The notes of a deck have the angle brackets of the notes in the source** and those of the tags
around bold text. So all of them belong to such tags if the sanitized notes of the source have
none. -/
theorem notes_read_ofMarkdown (source : Text) (options : Options)
    (theme : '\\' ∉ (settings (Presentation.read source).metadata options).theme)
    (colorTheme : '\\' ∉ (settings (Presentation.read source).metadata options).colorTheme)
    (code : ∀ line ∈ fencedOfSource source, Frameless line) :
    List.Forall₂
        (fun shown slide => ∀ notes, shown.notes = some notes →
          ∃ note, Deck.Bolded note notes ∧ Html.angles note = noteAngles slide)
        (Deck.read (ofMarkdown source options)).slides (Presentation.read source).slides ∧
      ((∀ slide ∈ (Presentation.read source).slides, noteAngles slide = []) →
        ∀ shown ∈ (Deck.read (ofMarkdown source options)).slides,
          ∀ notes, shown.notes = some notes → Deck.OnlyStrong notes) := by
  have lined : ∀ slide ∈ (Presentation.read source).slides, Lined Frameless slide :=
    fun slide member => lined_of_mem_read code member
  have slides : (Deck.read (ofMarkdown source options)).slides =
      (Presentation.read source).slides.map deckSlide := by
    rw [Deck.read, framesOf_ofMarkdown theme colorTheme]
    exact map_framesOf_text lined
  rw [slides]
  constructor
  · rw [List.forall₂_map_left_iff]
    exact List.forall₂_same.mpr fun slide _ notes shown => exists_bolded_of_deckSlide shown
  · intro noAngles shown member notes isShown
    obtain ⟨slide, inside, rfl⟩ := List.mem_map.mp member
    obtain ⟨note, bolded, same⟩ := exists_bolded_of_deckSlide isShown
    exact ⟨note, bolded, same.trans (noAngles slide inside)⟩

/-- A slide whose notes have a bold word. -/
def boldNote : Text := unlines ["## A".toList, "Note: a **b** & c".toList]

theorem notes_read_boldNote :
    '\\' ∉ (settings (Presentation.read boldNote).metadata {}).theme ∧
      '\\' ∉ (settings (Presentation.read boldNote).metadata {}).colorTheme ∧
      (∀ line ∈ fencedOfSource boldNote, Frameless line) ∧
      (∀ slide ∈ (Presentation.read boldNote).slides, noteAngles slide = []) ∧
      (Deck.read (ofMarkdown boldNote {})).slides.map DeckSlide.notes =
        [some "a <strong>b</strong> \\& c".toList] ∧
      ∀ shown ∈ (Deck.read (ofMarkdown boldNote {})).slides,
        ∀ notes, shown.notes = some notes → Deck.OnlyStrong notes := by
  have theme : '\\' ∉ (settings (Presentation.read boldNote).metadata {}).theme := by
    decide +kernel
  have colorTheme : '\\' ∉ (settings (Presentation.read boldNote).metadata {}).colorTheme := by
    decide +kernel
  have code : ∀ line ∈ fencedOfSource boldNote, Frameless line := by decide +kernel
  have noAngles : ∀ slide ∈ (Presentation.read boldNote).slides, noteAngles slide = [] := by
    decide +kernel
  exact ⟨theme, colorTheme, code, noAngles, by decide +kernel,
    (notes_read_ofMarkdown boldNote {} theme colorTheme code).2 noAngles⟩

/-- Angle brackets in the notes of a source go to the page. -/
theorem notes_read_angles :
    ¬ ∀ source options,
      '\\' ∉ (settings (Presentation.read source).metadata options).theme →
      '\\' ∉ (settings (Presentation.read source).metadata options).colorTheme →
      ∀ shown ∈ (Deck.read (ofMarkdown source options)).slides,
        ∀ notes, shown.notes = some notes → Deck.OnlyStrong notes := by
  intro all
  let source : Text := unlines ["## A".toList, "Note: a <b> c".toList]
  let shown : DeckSlide := { title := "A".toList, notes := some "a <b> c".toList }
  have member : shown ∈ (Deck.read (ofMarkdown source {})).slides := by decide +kernel
  obtain ⟨note, bolded, noAngles⟩ :=
    all source {} (by decide +kernel) (by decide +kernel) shown member
    "a <b> c".toList rfl
  have absent : ¬ Html.openTag "strong".toList <:+: "a <b> c".toList := by
    rw [← includes_iff]
    decide
  rw [bolded.eq_of_not_isInfix absent] at noAngles
  revert noAngles
  decide

end Document

end SlideDeck
