import SlideDeck.Proofs.Markdown.Fences
import SlideDeck.Proofs.Slide.Body
import SlideDeck.Document

/-!
# The parts of a document

A document is written part by part, each with a newline behind it. In front of its text
stand tidy parts and the commands of the two themes (`preliminary_of_mem`); then come the
frames.

The texts of a slide that was read from a source are single lines (`lined_of_mem_read`).
So the title of its frame is neat (`Lined.neat_frameArguments`), its body is a page
(`Lined.exists_page`) and its note is lines of a page (`Lined.exists_rows`).
-/

set_option autoImplicit false

namespace SlideDeck.Document

open SlideDeck SlideDeck.Text SlideDeck.Latex SlideDeck.Markdown SlideDeck.Slide

/-! ## In front of the text -/

/-- The parts in front of the text of a document. -/
def preliminaries (settings : Settings) (hasNotes : Bool) : List Text :=
  [commandWith "documentclass".toList ("aspectratio=".toList ++ settings.aspectRatio)
      "beamer".toList,
    command "usetheme".toList settings.theme,
    command "usecolortheme".toList settings.colorTheme] ++
  preamble ++
  (if hasNotes then [command "setbeameroption".toList "show notes".toList] else []) ++
  [[],
    command "title".toList settings.title,
    command "author".toList settings.author,
    command "date".toList settings.date,
    []]

theorem opening_eq (settings : Settings) (hasNotes : Bool) :
    opening settings hasNotes =
      preliminaries settings hasNotes ++ [beginEnvironment "document".toList, []] := by
  simp only [opening, preliminaries, List.append_assoc, List.cons_append, List.nil_append]

/-- A command does not occur in another with a different initial, unless it occurs in its
argument. -/
theorem command_not_isInfix {c d : Char} {name other s : Text} (initial : name.head? = some c)
    (otherInitial : other.head? = some d) (differ : c ≠ d) (noBrace : c ≠ '\x7d')
    (noCommand : '\\' ∉ other) (inner : ¬ ['\\', c] <:+: s) :
    ¬ '\\' :: name <:+: command other s := by
  obtain ⟨rest, rfl⟩ := List.head?_eq_some_iff.mp initial
  obtain ⟨tail, rfl⟩ := List.head?_eq_some_iff.mp otherInitial
  intro occurs
  have short : ['\\', c] <:+: command (d :: tail) s :=
    List.IsInfix.trans ⟨[], rest, rfl⟩ occurs
  rcases List.infix_cons_iff.mp short with begins | later
  · exact differ (List.cons_prefix_cons.mp (List.cons_prefix_cons.mp begins).2).1
  · have whole : d :: tail ++ group s = (d :: tail ++ ['\x7b']) ++ (s ++ '\x7d' :: []) := by
      simp [group]
    have behind : ['\\', c] <:+: s ++ '\x7d' :: [] := by
      have absent : '\\' ∉ d :: tail ++ ['\x7b'] := by
        rw [List.mem_append, not_or]
        exact ⟨noCommand, by decide⟩
      exact isInfix_of_isInfix_append absent (whole ▸ later)
    rcases isInfix_of_isInfix_append_cons (by simp [Ne.symm noBrace]) behind with here | nothing
    · exact inner here
    · cases List.infix_nil.mp nothing

/-- What may stand in front of the text of a document with the settings. -/
inductive Preliminary (settings : Settings) : Text → Prop where
  | tidy {part : Text} (tidy : Tidy part) : Preliminary settings part
  | theme : Preliminary settings (command "usetheme".toList settings.theme)
  | colorTheme : Preliminary settings (command "usecolortheme".toList settings.colorTheme)

/-- A text of the title page is tidy, whoever gave it. -/
theorem tidy_titleText_getD (value : Option Text) {fallback : Text} (tidy : Tidy fallback) :
    Tidy ((value.map titleText).getD fallback) := by
  cases value with
  | none => exact tidy
  | some text =>
      rw [Option.map_some, Option.getD_some, titleText]
      exact Inline.tidy_escape _

theorem normalizeAspectRatio_mem (value : Text) : normalizeAspectRatio value ∈ aspectRatios := by
  rw [normalizeAspectRatio]
  split
  · next known => exact List.contains_iff_mem.mp known
  · decide

theorem tidy_documentClass {ratio : Text} (member : ratio ∈ aspectRatios) :
    Tidy (commandWith "documentclass".toList ("aspectratio=".toList ++ ratio) "beamer".toList) :=
  (by decide +kernel : ∀ ratio ∈ aspectRatios,
    Tidy (commandWith "documentclass".toList ("aspectratio=".toList ++ ratio) "beamer".toList))
    ratio member

theorem tidy_of_mem_preamble {part : Text} (member : part ∈ preamble) : Tidy part :=
  (by decide +kernel : ∀ part ∈ preamble, Tidy part) part member

/-- Only the two themes stand in front of the text as they were given. -/
theorem preliminary_of_mem {metadata : Entries} {options : Options} {hasNotes : Bool} {part : Text}
    (member : part ∈ preliminaries (settings metadata options) hasNotes) :
    Preliminary (settings metadata options) part := by
  have blank : Tidy [] := by decide
  have titleName : Tidy "\\title".toList := by decide
  have authorName : Tidy "\\author".toList := by decide
  have dateName : Tidy "\\date".toList := by decide
  simp only [preliminaries, List.mem_append, List.mem_cons, List.not_mem_nil, or_false] at member
  rcases member with (((rfl | rfl | rfl) | member) | member) | rfl | rfl | rfl | rfl | rfl
  · exact .tidy (tidy_documentClass (normalizeAspectRatio_mem _))
  · exact .theme
  · exact .colorTheme
  · exact .tidy (tidy_of_mem_preamble member)
  · split at member
    · rw [List.mem_singleton.mp member]
      exact .tidy (by decide)
    · cases member
  · exact .tidy blank
  · exact .tidy (titleName.command (tidy_titleText_getD _ (by decide)))
  · exact .tidy (authorName.command (tidy_titleText_getD _ (by decide)))
  · exact .tidy (dateName.command (tidy_titleText_getD _ (by decide)))
  · exact .tidy blank

section Opening

variable {P : Text → Prop} {metadata : Entries} {options : Options}

/-- The parts in front of the text that are the same in all documents. -/
def commonParts : List Text :=
  preamble ++ [command "setbeameroption".toList "show notes".toList, [],
    beginEnvironment "document".toList]

/-- The commands whose argument is a setting. -/
def settingNames : List Text := [
  "usetheme".toList, "usecolortheme".toList, "title".toList, "author".toList, "date".toList]

theorem titleText_getD_of (written : ∀ text, P (titleText text)) (value : Option Text)
    {fallback : Text} (otherwise : P fallback) : P ((value.map titleText).getD fallback) := by
  cases value with
  | none => exact otherwise
  | some text =>
      rw [Option.map_some, Option.getD_some]
      exact written text

/-- What holds of the fixed parts, and of the commands with the settings, holds of all parts in
front of the text. -/
theorem forall_mem_opening (fixed : ∀ part ∈ commonParts, P part)
    (ratio : ∀ ratio ∈ aspectRatios,
      P (commandWith "documentclass".toList ("aspectratio=".toList ++ ratio) "beamer".toList))
    (argument : ∀ name ∈ settingNames, ∀ {s}, P s → P (command name s))
    (theme : P (settings metadata options).theme)
    (colorTheme : P (settings metadata options).colorTheme)
    (written : ∀ text, P (titleText text))
    (defaults : ∀ text ∈ ["Presentation".toList, [], "\\today".toList], P text) (hasNotes : Bool) :
    ∀ part ∈ opening (settings metadata options) hasNotes, P part := by
  have same : ∀ part ∈ preamble, P part := fun part member =>
    fixed part (List.mem_append_left _ member)
  have other : ∀ part ∈ [command "setbeameroption".toList "show notes".toList, [],
      beginEnvironment "document".toList], P part := fun part member =>
    fixed part (List.mem_append_right _ member)
  have noted : ∀ part ∈ if hasNotes then [command "setbeameroption".toList "show notes".toList]
      else [], P part := by
    cases hasNotes with
    | false => simp
    | true => exact List.forall_mem_singleton.mpr (other _ List.mem_cons_self)
  have title : P (settings metadata options).title :=
    titleText_getD_of written _ (defaults _ List.mem_cons_self)
  have author : P (settings metadata options).author :=
    titleText_getD_of written _ (defaults _ (by simp))
  have date : P (settings metadata options).date :=
    titleText_getD_of written _ (defaults _ (by simp))
  simp only [List.forall_mem_cons] at other
  obtain ⟨-, blank, begins, -⟩ := other
  simp only [opening, List.forall_mem_append, List.forall_mem_cons]
  refine ⟨⟨⟨⟨ratio _ (normalizeAspectRatio_mem _), argument _ (by decide) theme,
    argument _ (by decide) colorTheme, by simp⟩, same⟩, noted⟩, blank, ?_, ?_, ?_, blank, begins,
    blank, by simp⟩
  · exact argument _ (by decide) title
  · exact argument _ (by decide) author
  · exact argument _ (by decide) date

end Opening

/-! ## Slides -/

/-- The texts of a slide are single lines, and those of its code are `listed`. -/
structure Lined (listed : Text → Prop) (slide : Slide) : Prop where
  title : '\n' ∉ slide.title
  content : ∀ line ∈ slide.content, '\n' ∉ line
  notes : ∀ note ∈ slide.notes, '\n' ∉ note
  code : ∀ line ∈ fencedLines slide.content, listed line

theorem body_subset (ls : List Text) : (Sections.ofLines ls).body ⊆ ls := by
  have block : ∀ ls : List Text, (Sections.ofBlock ls).body ⊆ ls := by
    intro ls
    induction ls with
    | nil => exact List.nil_subset _
    | cons line ls ih =>
        rw [Sections.ofBlock]
        split
        · exact List.subset_cons_self line ls
        · exact List.subset_cons_of_subset line ih
  cases ls with
  | nil => exact List.nil_subset _
  | cons line ls =>
      rw [Sections.ofLines]
      split
      · exact List.subset_cons_of_subset line (block ls)
      · exact List.Subset.refl _

/-- The slides of a source are made of its lines. -/
theorem lined_of_mem_read {listed : Text → Prop} {source : Text} {slide : Slide}
    (isListed : ∀ line ∈ fencedOfSource source, listed line)
    (member : slide ∈ (Presentation.read source).slides) : Lined listed slide := by
  have sourced := sourced_of_mem_read member
  have oneLine : ∀ line ∈ (Sections.ofLines (lines source)).body, '\n' ∉ line := fun line inside =>
    not_mem_of_mem_lines (body_subset _ inside)
  have part : ∀ line ∈ (Sections.ofLines (lines source)).body, ∀ text, text ⊆ line → '\n' ∉ text :=
    fun line inside text part found => oneLine line inside (part found)
  refine ⟨?_, fun line inside => oneLine line (sourced.content inside), fun note inside => ?_,
    fun line inside => isListed line (sourced.code inside)⟩
  · rcases sourced.title with empty | ⟨line, inside, title⟩
    · simp [empty]
    · exact part line inside _ title
  · obtain ⟨line, found, text⟩ := sourced.notes note inside
    exact part line found note text

/-! ## Frames -/

/-- What stands behind the name on the line that begins the frame of a slide. -/
def frameArguments (slide : Slide) : Text :=
  fragileOption (Slide.body slide.content) ++ group (Inline.format slide.title)

/-- The body of the frame of a slide, if it has one. -/
def bodyParts (slide : Slide) : List Text :=
  if (Slide.body slide.content).isEmpty then [] else [Slide.body slide.content]

theorem frame_eq (slide : Slide) :
    frame slide = (beginEnvironment "frame".toList ++ frameArguments slide) ::
      (bodyParts slide ++ endEnvironment "frame".toList ::
        (noteLines (Slide.noteBody slide.notes) ++ [[]])) := by
  simp only [frame, frameArguments, bodyParts, List.append_assoc, List.cons_append, List.nil_append]

theorem fragileOption_eq_or (body : Text) :
    fragileOption body = "[fragile]".toList ∨ fragileOption body = [] := by
  rw [fragileOption]
  split
  · exact .inl rfl
  · exact .inr rfl

namespace Lined

variable {listed : Text → Prop} {slide : Slide}

theorem neat_frameArguments (lined : Lined listed slide) : Neat (frameArguments slide) := by
  have option : Neat (fragileOption (Slide.body slide.content)) := by
    rcases fragileOption_eq_or (Slide.body slide.content) with same | same <;> rw [same] <;> decide
  exact option.append (Inline.neat_format lined.title).group

/-- The body of the frame is a page. -/
theorem exists_page (lined : Lined listed slide) :
    ∃ ls, Page listed ls ∧ Slide.body slide.content = unlines ls :=
  exists_page_body lined.content lined.code

/-- The note behind the frame is lines of a page. -/
theorem exists_rows (lined : Lined listed slide) :
    ∃ rows, (∀ row ∈ rows, PageLine row) ∧ Slide.noteBody slide.notes = unlines rows :=
  exists_rows_noteBody lined.notes

end Lined

/-! ## The whole document -/

/-- The frame behind the last slide. -/
def lastFrame : List Text := [
  beginEnvironment "frame".toList ++ "[plain]".toList, "\\centering".toList,
  group "\\Huge Questions?".toList, endEnvironment "frame".toList, []]

/-- The parts between the two ends of the text of a document. -/
def textParts (slides : List Slide) : List Text :=
  [] :: (titleFrame ++ (slides.flatMap frame ++ lastFrame))

theorem render_eq (presentation : Presentation) (options : Options) :
    render presentation options = terminated
      (preliminaries (settings presentation.metadata options) presentation.hasNotes ++
        beginEnvironment "document".toList ::
          (textParts presentation.slides ++ [endEnvironment "document".toList])) := by
  have last : closing = lastFrame ++ [endEnvironment "document".toList] := rfl
  simp only [render, opening_eq, textParts, last, List.append_assoc, List.cons_append,
    List.nil_append]

end SlideDeck.Document
