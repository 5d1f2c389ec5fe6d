import Mathlib.Data.Bool.AllAny
import SlideDeck.Proofs.Document.Parts
import SlideDeck.Html.Deck

/-!
# The title page is read back

The title, the author and the date of a deck are read from the commands that the writer
gave them to, and from no others: their names occur nowhere in front of them
(`argumentOf?_written`). The reader takes an argument up to its first closing brace
(`readPart`). So the title page is read back exactly as far as that
(`titlePage_read_ofMarkdown`), which is the whole argument just if it has no closing brace
(`readPart_eq_trim_iff`).

An escaped text has one if the text holds a backslash, a closing brace, a tilde or a
circumflex, because each of them is written with one (`closing_mem_escape_iff`).
-/

set_option autoImplicit false

namespace SlideDeck.Document

open SlideDeck SlideDeck.Text SlideDeck.Latex SlideDeck.Markdown

/-! ## What the reader takes of an argument -/

/-- The part of an argument that the reader takes, trimmed. -/
def readPart (argument : Text) : Text := trim (argument.takeWhile (· != '\x7d'))

/-- An argument is read whole just if it has no closing brace. -/
theorem readPart_eq_trim_iff {argument : Text} :
    readPart argument = trim argument ↔ '\x7d' ∉ argument := by
  constructor
  · intro same member
    have kept : '\x7d' ∈ trim argument := mem_trim (by decide) member
    rw [← same] at kept
    have taken := List.mem_takeWhile_imp (mem_of_mem_trim kept)
    simp at taken
  · intro absent
    have whole : argument.takeWhile (· != '\x7d') = argument := by
      rw [List.takeWhile_eq_self_iff]
      intro c member
      have other : c ≠ '\x7d' := by
        rintro rfl
        exact absent member
      simpa using other
    rw [readPart, whole]

/-! ## Where an argument is found -/

/-- Behind parts in which its name does not occur, the argument of a command is read. -/
theorem argumentOf?_written {name : Text} {parts : List Text} (oneLine : '\n' ∉ name)
    (absent : ∀ part ∈ parts, ¬ '\\' :: name <:+: part) (argument : Text) (later : List Text)
    (s : Text) :
    Deck.argumentOf? name (terminated (parts ++ command name argument :: later) ++ s) =
      some (readPart argument) := by
  obtain ⟨after, cut⟩ := splitOnce_append_cons '\x7d' argument ('\n' :: (terminated later ++ s))
  have seen : (skip? ('\\' :: name)
      (command name argument ++ '\n' :: (terminated later ++ s))).bind braced? =
        some (argument.takeWhile (· != '\x7d'), after) := by
    have skipped : skip? ('\\' :: name) (command name argument ++ '\n' :: (terminated later ++ s)) =
        some (group argument ++ '\n' :: (terminated later ++ s)) := by
      rw [skip?_eq_some_iff, command, List.append_assoc]
    have braces : group argument ++ '\n' :: (terminated later ++ s) =
        '\x7b' :: (argument ++ '\x7d' :: '\n' :: (terminated later ++ s)) := by simp [group]
    rw [skipped, Option.bind_some, braces]
    exact cut
  have newline : '\n' ∉ '\\' :: name := by simp [oneLine]
  rw [Deck.argumentOf?, terminated_append, terminated_cons, List.append_assoc, List.append_assoc,
    List.cons_append, find?_terminated newline absent, find?_of_eq_some seen]
  rfl

/-! ## What stands in front of the title page -/

/-- The parts in front of the title. -/
def leading (settings : Settings) (hasNotes : Bool) : List Text :=
  [commandWith "documentclass".toList ("aspectratio=".toList ++ settings.aspectRatio)
      "beamer".toList,
    command "usetheme".toList settings.theme,
    command "usecolortheme".toList settings.colorTheme] ++
  preamble ++
  (if hasNotes then [command "setbeameroption".toList "show notes".toList] else []) ++ [[]]

theorem preliminaries_eq (settings : Settings) (hasNotes : Bool) :
    preliminaries settings hasNotes = leading settings hasNotes ++
      [command "title".toList settings.title, command "author".toList settings.author,
        command "date".toList settings.date, []] := by
  simp only [preliminaries, leading, List.append_assoc, List.cons_append, List.nil_append]

/-- The commands of the title page. -/
def titleCommands : List Text := ["title".toList, "author".toList, "date".toList]

/-- The parts that may stand in front of the title in every document. -/
def fixedParts : List Text :=
  preamble ++ [command "setbeameroption".toList "show notes".toList, []] ++
    aspectRatios.map fun ratio =>
      commandWith "documentclass".toList ("aspectratio=".toList ++ ratio) "beamer".toList

/-- They hold no command of the title page. -/
theorem not_isInfix_of_mem_fixedParts {name : Text} (known : name ∈ titleCommands) {part : Text}
    (member : part ∈ fixedParts) : ¬ '\\' :: name <:+: part := by
  have absent :
      ∀ part ∈ fixedParts, ∀ name ∈ titleCommands, includes ('\\' :: name) part = false := by
    decide +kernel
  rw [← includes_iff, absent part member name known]
  exact Bool.false_ne_true

/-- In front of the title no command of the title page stands, if the themes have no
backslash. -/
theorem not_isInfix_of_mem_leading {metadata : Entries} {options : Options} {hasNotes : Bool}
    (theme : '\\' ∉ (settings metadata options).theme)
    (colorTheme : '\\' ∉ (settings metadata options).colorTheme) {name : Text}
    (known : name ∈ titleCommands) {part : Text}
    (member : part ∈ leading (settings metadata options) hasNotes) : ¬ '\\' :: name <:+: part := by
  have initials : ∀ name ∈ titleCommands,
      "tad".toList.any fun c => name.head? = some c ∧ c ≠ 'u' ∧ c ≠ '\x7d' := by decide
  obtain ⟨c, -, begins, other, noBrace⟩ := List.any_iff_exists_prop.mp (initials name known)
  have plain : ∀ {s : Text}, '\\' ∉ s → ¬ ['\\', c] <:+: s :=
    fun noCommand occurs => noCommand (occurs.subset List.mem_cons_self)
  simp only [leading, List.mem_append, List.mem_cons, List.not_mem_nil, or_false] at member
  rcases member with (((rfl | rfl | rfl) | isPreamble) | isOption) | rfl
  · refine not_isInfix_of_mem_fixedParts known (List.mem_append_right _ (List.mem_map_of_mem ?_))
    exact normalizeAspectRatio_mem _
  · exact command_not_isInfix begins (by decide) other noBrace (by decide) (plain theme)
  · exact command_not_isInfix begins (by decide) other noBrace (by decide) (plain colorTheme)
  · refine not_isInfix_of_mem_fixedParts known (List.mem_append_left _ ?_)
    exact List.mem_append_left _ isPreamble
  · split at isOption
    · rw [List.mem_singleton.mp isOption]
      refine not_isInfix_of_mem_fixedParts known (List.mem_append_left _ ?_)
      exact List.mem_append_right _ List.mem_cons_self
    · cases isOption
  · refine not_isInfix_of_mem_fixedParts known (List.mem_append_left _ ?_)
    exact List.mem_append_right _ (List.mem_cons_of_mem _ List.mem_cons_self)

/-! ## Escaped text -/

/-- What stands behind a backslash in escaped text. -/
def isEscapeStart (c : Char) : Bool := backslashEscaped c || c == 't'

theorem guarded_escapeChar (c : Char) : Guarded isEscapeStart false (escapeChar c) := by
  rw [escapeChar]
  split
  · decide
  · next notSlash =>
      split
      · next escaped => exact .pair notSlash (by simp [isEscapeStart, escaped]) .nil
      · next plain =>
          split
          · decide
          · split
            · decide
            · refine .char (isLoose_iff.mpr ⟨notSlash, ?_, ?_⟩) .nil
              · rintro rfl
                exact plain (by decide)
              · rintro rfl
                exact plain (by decide)

theorem guarded_escape (s : Text) : Guarded isEscapeStart false (escape s) := by
  induction s with
  | nil => exact .nil
  | cons c s ih => exact (guarded_escapeChar c).append ih

/-- A text of the title page is escaped, whoever gave it. -/
theorem guarded_titleText_getD (value : Option Text) {fallback : Text}
    (guarded : Guarded isEscapeStart false fallback) :
    Guarded isEscapeStart false ((value.map titleText).getD fallback) := by
  cases value with
  | none => exact guarded
  | some text =>
      rw [Option.map_some, Option.getD_some, titleText]
      exact guarded_escape _

theorem closing_mem_escapeChar_iff {c : Char} :
    '\x7d' ∈ escapeChar c ↔ c ∈ "\\\x7d~^".toList := by
  by_cases slash : c = '\\'
  · subst slash
    decide
  · by_cases escaped : backslashEscaped c = true
    · rw [escapeChar, if_neg slash, if_pos escaped]
      simp only [backslashEscaped, Bool.or_eq_true, beq_iff_eq] at escaped
      rcases escaped with (((((rfl | rfl) | rfl) | rfl) | rfl) | rfl) | rfl <;> decide
    · have noBrace : c ≠ '\x7d' := by
        rintro rfl
        exact escaped (by decide)
      by_cases tilde : c = '~'
      · subst tilde
        decide
      · by_cases circumflex : c = '^'
        · subst circumflex
          decide
        · simp [escapeChar, slash, escaped, tilde, circumflex, noBrace, Ne.symm noBrace]

/-- A text has a closing brace when it is escaped just if one of its characters is written
with one. -/
theorem closing_mem_escape_iff {s : Text} :
    '\x7d' ∈ escape s ↔ ∃ c ∈ s, c ∈ "\\\x7d~^".toList := by
  simp only [escape, List.mem_flatMap, closing_mem_escapeChar_iff]

/-! ## Reading the title page -/

section Read

variable {metadata : Entries} {options : Options}
  (theme : '\\' ∉ (settings metadata options).theme)
  (colorTheme : '\\' ∉ (settings metadata options).colorTheme) (hasNotes : Bool) (s : Text)

include theme colorTheme

theorem argumentOf?_title :
    Deck.argumentOf? "title".toList
        (terminated (preliminaries (settings metadata options) hasNotes) ++ s) =
      some (readPart (settings metadata options).title) := by
  rw [preliminaries_eq]
  exact argumentOf?_written (by decide)
    (fun part member => not_isInfix_of_mem_leading theme colorTheme (by decide) member) _ _ s

/-- Neither of the other two commands stands in front of the author. -/
theorem not_isInfix_title {name : Text} (known : name ∈ ["author".toList, "date".toList]) :
    ∀ part ∈ leading (settings metadata options) hasNotes ++
        [command "title".toList (settings metadata options).title], ¬ '\\' :: name <:+: part := by
  have initials : ∀ name ∈ ["author".toList, "date".toList], "ad".toList.any fun c =>
      name.head? = some c ∧ c ≠ 't' ∧ c ≠ '\x7d' ∧ c ≠ '\\' ∧ isEscapeStart c = false := by
    decide
  obtain ⟨c, -, begins, differ, noBrace, noSlash, unescaped⟩ :=
    List.any_iff_exists_prop.mp (initials name known)
  have guarded : Guarded isEscapeStart false (settings metadata options).title :=
    guarded_titleText_getD _ (by decide)
  rw [List.forall_mem_append, List.forall_mem_singleton]
  exact ⟨fun part => not_isInfix_of_mem_leading theme colorTheme (List.mem_cons_of_mem _ known),
    command_not_isInfix begins (by decide) differ noBrace (by decide)
      (guarded.not_isInfix noSlash unescaped)⟩

theorem argumentOf?_author :
    Deck.argumentOf? "author".toList
        (terminated (preliminaries (settings metadata options) hasNotes) ++ s) =
      some (readPart (settings metadata options).author) := by
  rw [preliminaries_eq, List.append_cons]
  exact argumentOf?_written (by decide)
    (not_isInfix_title theme colorTheme hasNotes (by decide)) _ _ s

theorem argumentOf?_date :
    Deck.argumentOf? "date".toList
        (terminated (preliminaries (settings metadata options) hasNotes) ++ s) =
      some (readPart (settings metadata options).date) := by
  have guarded : Guarded isEscapeStart false (settings metadata options).author :=
    guarded_titleText_getD _ (by decide)
  have author : ¬ '\\' :: "date".toList <:+:
      command "author".toList (settings metadata options).author :=
    command_not_isInfix (c := 'd') (d := 'a') (by decide) (by decide) (by decide) (by decide)
      (by decide) (guarded.not_isInfix (by decide) (by decide))
  rw [preliminaries_eq, List.append_cons, List.append_cons]
  refine argumentOf?_written (by decide) ?_ _ _ s
  rw [List.forall_mem_append, List.forall_mem_singleton]
  exact ⟨not_isInfix_title theme colorTheme hasNotes (by decide), author⟩

end Read

/-- **The title page is read back as far as the first closing brace of each argument.** The
date is dropped when nothing is read of it, or the command for the current date. -/
theorem titlePage_read_ofMarkdown (source : Text) (options : Options)
    (theme : '\\' ∉ (settings (Presentation.read source).metadata options).theme)
    (colorTheme : '\\' ∉ (settings (Presentation.read source).metadata options).colorTheme) :
    let given := settings (Presentation.read source).metadata options
    let deck := Deck.read (ofMarkdown source options)
    deck.title = Html.fragment (readPart given.title) ∧
      deck.author = Html.fragment (readPart given.author) ∧
      deck.date =
        if readPart given.date = [] ∨ readPart given.date = "\\today".toList then none
        else some (Html.fragment (readPart given.date)) := by
  have title := argumentOf?_title theme colorTheme (Presentation.read source).hasNotes
  have author := argumentOf?_author theme colorTheme (Presentation.read source).hasNotes
  have date := argumentOf?_date theme colorTheme (Presentation.read source).hasNotes
  rw [ofMarkdown, render_eq, terminated_append]
  simp only [Deck.read, Deck.titleOf, Deck.authorOf, Deck.dateOf, title, author, date,
    Option.map_some, Option.getD_some, true_and]
  generalize readPart (settings (Presentation.read source).metadata options).date = read
  by_cases dropped : read = [] ∨ read = "\\today".toList
  · rw [if_pos dropped]
    rcases dropped with rfl | rfl <;> rfl
  · rw [if_neg dropped]
    rw [not_or] at dropped
    have kept : (!read.isEmpty && read != "\\today".toList) = true := by
      rw [Bool.and_eq_true, bne_iff_ne]
      exact ⟨by simpa using dropped.1, dropped.2⟩
    have filtered : (some read).filter
        (fun date => !date.isEmpty && date != "\\today".toList) = some read := if_pos kept
    rw [filtered]
    rfl

/-- A title whose only special character is written with no closing brace is read whole. -/
theorem titlePage_read_ofMarkdown_ampersand :
    ('\\' ∉ (settings (Presentation.read "# Q & A\n## B\n".toList).metadata {}).theme ∧
      '\\' ∉ (settings (Presentation.read "# Q & A\n## B\n".toList).metadata {}).colorTheme) ∧
    (Deck.read (ofMarkdown "# Q & A\n## B\n".toList {})).title = "Q &amp; A".toList ∧
      (Deck.read (ofMarkdown "# Q & A\n## B\n".toList {})).author = [] ∧
      (Deck.read (ofMarkdown "# Q & A\n## B\n".toList {})).date = none := by
  have theme :
      '\\' ∉ (settings (Presentation.read "# Q & A\n## B\n".toList).metadata {}).theme := by
    decide +kernel
  have colorTheme :
      '\\' ∉ (settings (Presentation.read "# Q & A\n## B\n".toList).metadata {}).colorTheme := by
    decide +kernel
  obtain ⟨title, author, date⟩ :=
    titlePage_read_ofMarkdown "# Q & A\n## B\n".toList {} theme colorTheme
  refine ⟨⟨theme, colorTheme⟩, ?_, ?_, ?_⟩
  · rw [title]
    decide +kernel
  · rw [author]
    decide +kernel
  · rw [date]
    decide +kernel

/-- An escaped closing brace ends the title too early. -/
theorem titlePage_read_ofMarkdown_closing :
    ¬ ∀ (source : Text) (options : Options),
      '\\' ∉ (settings (Presentation.read source).metadata options).theme →
      '\\' ∉ (settings (Presentation.read source).metadata options).colorTheme →
      (Deck.read (ofMarkdown source options)).title =
        Html.fragment (trim (settings (Presentation.read source).metadata options).title) := by
  intro whole
  have read := whole "# a\x7db\n".toList {} (by decide +kernel) (by decide +kernel)
  revert read
  decide +kernel

end SlideDeck.Document
