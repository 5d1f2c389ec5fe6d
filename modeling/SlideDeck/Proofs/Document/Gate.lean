import Mathlib.Data.List.Basic
import SlideDeck.Proofs.Document.Parts

/-!
# Generated documents pass the gate

Each part of a document is closed by itself, or the frame around it is: tidy text in front
of the document (`closed_of_tidy`), the frame of a slide with its note (`Lined.closed_frame`),
the title page and the last frame. They are closed together, and so nothing in a generated
document stops a build (`passes_gate`).

Two things are left to the caller. The themes stand in the document as they were given, so
they may not hold a character with a meaning of its own; and code stands in it as it was
written, so it may not end an environment.
-/

set_option autoImplicit false

namespace SlideDeck.Document

open SlideDeck SlideDeck.Text SlideDeck.Latex SlideDeck.Markdown SlideDeck.Slide SlideDeck.Lint

/-! ## Parts -/

/-- Tidy text is closed, whatever its lines are. -/
theorem closed_of_tidy {part : Text} (tidy : Tidy part) : Closed (partLines part) := by
  have visible : ∀ c, still c = true → isBlank c = false := fun c follows =>
    isBlank_of_escapable c (escapable_of_still follows)
  obtain ⟨each, sum⟩ := tidy.guarded.splitAt visible
  have quiet : ∀ line ∈ partLines part, Quiet line := by
    intro line member
    obtain ⟨piece, inside, rfl⟩ := List.mem_map.mp member
    exact .of_guarded ((each piece inside).dropReturn visible)
  have same : ((partLines part).flatMap fun line => bracesOf (codeOf line)) = bracesOf part := by
    rw [partLines, List.flatMap_map, ← sum]
    refine List.flatMap_congr fun piece inside => ?_
    rw [((each piece inside).dropReturn visible).codeOf,
      (each piece inside).bracesOf_dropReturn visible]
  refine ⟨_, .quiet quiet, ?_⟩
  rw [same]
  exact tidy.depth

/-- Text in which no environment ends. -/
def Endless (s : Text) : Prop := ¬ "\\end\x7b".toList <:+: s

instance (s : Text) : Decidable (Endless s) :=
  decidable_of_iff (includes "\\end\x7b".toList s = false) (by simp [Endless, ← includes_iff])

/-- A page is closed, written as one part. -/
theorem closed_of_page {ls : List Text} (page : Page Endless ls) :
    Closed (partLines (unlines ls)) := by
  by_cases empty : ls = []
  · rw [empty]
    exact closed_of_tidy (by decide)
  · have kept : ∀ line, Endless line → Endless (dropReturn line) := fun line endless occurs =>
      endless (occurs.trans (dropReturn_isPrefix line).isInfix)
    rw [partLines_unlines empty page.oneLine]
    exact (page.map_dropReturn kept).closed fun _ endless => endless

/-! ## Frames -/

/-- Lines between the two ends of a frame are closed, if the frame has a title. -/
theorem closed_around {args : Text} {inner : List Text} (tidy : Tidy args)
    (titled : lacksTitle (beginEnvironment "frame".toList ++ args)
      ((inner ++ [endEnvironment "frame".toList]).headD []) = false)
    (closed : Closed inner) :
    Closed ((beginEnvironment "frame".toList ++ args) ::
      (inner ++ [endEnvironment "frame".toList])) :=
  .environment (by decide) (by decide) tidy titled closed

/-- The line that begins the frame of a slide holds its title. -/
theorem titled_frameArguments (slide : Slide) :
    (FrameHead.read (frameArguments slide)).titled = true := by
  rw [frameArguments]
  rcases fragileOption_eq_or (Slide.body slide.content) with same | same <;> rw [same] <;> rfl

namespace Lined

variable {slide : Slide}

/-- The frame of a slide begins with a single line. -/
theorem partLines_frame (lined : Lined Endless slide) :
    partLines (beginEnvironment "frame".toList ++ frameArguments slide) =
      [beginEnvironment "frame".toList ++ frameArguments slide] := by
  have start : '\n' ∉ beginEnvironment "frame".toList := by decide
  have last : beginEnvironment "frame".toList ++ frameArguments slide =
      beginEnvironment "frame".toList ++ fragileOption (Slide.body slide.content) ++
        '\x7b' :: Inline.format slide.title ++ ['\x7d'] := by
    simp [frameArguments, group]
  have oneLine : '\n' ∉ beginEnvironment "frame".toList ++ frameArguments slide := by
    rw [List.mem_append, not_or]
    exact ⟨start, lined.neat_frameArguments.oneLine⟩
  rw [partLines_of_not_mem oneLine, last, dropReturn_append_singleton _ (by decide)]

theorem lacksTitle_frame (lined : Lined Endless slide) (next : Text) :
    lacksTitle (beginEnvironment "frame".toList ++ frameArguments slide) next = false := by
  have isFrame : IsName "frame".toList := by decide
  have head : frameHead? (beginEnvironment "frame".toList ++ frameArguments slide) =
      some (.read (frameArguments slide)) := by
    have found : splitOnText? (beginEnvironment "frame".toList)
        (beginEnvironment "frame".toList ++ frameArguments slide) =
          some ([], frameArguments slide) :=
      splitOnText?_append ..
    rw [frameHead?, found]
    rfl
  rw [lacksTitle, (guarded_beginning isFrame lined.neat_frameArguments.tidy).codeOf, head]
  simp [titled_frameArguments]

theorem closed_body (lined : Lined Endless slide) :
    Closed ((bodyParts slide).flatMap partLines) := by
  obtain ⟨ls, page, same⟩ := lined.exists_page
  rw [bodyParts]
  split
  · exact .nil
  · rw [List.flatMap_singleton, same]
    exact closed_of_page page

theorem closed_note (lined : Lined Endless slide) :
    Closed ((noteLines (Slide.noteBody slide.notes)).flatMap partLines) := by
  obtain ⟨rows, isLine, same⟩ := lined.exists_rows
  have inner : Closed (partLines (Slide.noteBody slide.notes)) :=
    same ▸ closed_of_page (.of_lines isLine)
  have quietFirst : Quiet "\\note\x7b".toList := .of_guarded (by decide : Guarded still false _)
  have quietLast : Quiet "\x7d".toList := .of_guarded (by decide : Guarded still false _)
  rw [noteLines]
  split
  · exact .nil
  · have group := Closed.group quietFirst (by decide) quietLast (by decide) inner
    rw [List.flatMap_cons, List.flatMap_cons, List.flatMap_singleton]
    exact group

/-- **The frame of a slide is closed, and so is its note.** -/
theorem closed_frame (lined : Lined Endless slide) : Closed ((frame slide).flatMap partLines) := by
  have around :=
    closed_around lined.neat_frameArguments.tidy (lined.lacksTitle_frame _) lined.closed_body
  have blank : Closed (partLines []) := closed_of_tidy (by decide)
  have whole := around.append (lined.closed_note.append blank)
  have ending : partLines (endEnvironment "frame".toList) = [endEnvironment "frame".toList] := rfl
  rw [frame_eq, List.flatMap_cons, List.flatMap_append, List.flatMap_cons, List.flatMap_append,
    List.flatMap_singleton, lined.partLines_frame, ending]
  simpa only [List.append_assoc, List.cons_append, List.nil_append] using whole

end Lined

/-- The title page titles its frame. -/
theorem closed_titleFrame : Closed (titleFrame.flatMap partLines) := by
  have inner : Closed ["\\titlepage".toList] :=
    closed_of_tidy (by decide : Tidy "\\titlepage".toList)
  have blank : Closed [[]] := closed_of_tidy (by decide : Tidy [])
  exact (closed_around (by decide : Tidy []) (by decide) inner).append blank

/-- The options of the last frame say that it has no title. -/
theorem closed_lastFrame : Closed (lastFrame.flatMap partLines) := by
  have centering : Closed ["\\centering".toList] :=
    closed_of_tidy (by decide : Tidy "\\centering".toList)
  have question : Closed [group "\\Huge Questions?".toList] :=
    closed_of_tidy (by decide : Tidy (group "\\Huge Questions?".toList))
  have blank : Closed [[]] := closed_of_tidy (by decide : Tidy [])
  exact (closed_around (by decide : Tidy "[plain]".toList) (by decide)
    (centering.append question)).append blank

/-! ## Documents -/

/-- Text without the characters that have a meaning of their own. -/
def Plain (s : Text) : Prop := ∀ c ∈ "\\\x7b\x7d%_".toList, c ∉ s

instance (s : Text) : Decidable (Plain s) :=
  decidable_of_iff ("\\\x7b\x7d%_".toList.all (fun c => !s.contains c) = true) (by simp [Plain])

/-- A command with a plain argument is tidy. -/
theorem tidy_command_of_plain {name s : Text} (named : Tidy ('\\' :: name)) (plain : Plain s) :
    Tidy (command name s) := by
  have absent : ∀ c ∈ "\\\x7b\x7d%_".toList, ∀ d ∈ s, d ≠ c := fun c special d inside same =>
    plain c special (same ▸ inside)
  refine named.command (.of_loose (fun c inside => isLoose_iff.mpr ?_) ?_ ?_ 0)
  · exact ⟨absent _ (by decide) c inside, absent _ (by decide) c inside,
      absent _ (by decide) c inside⟩
  · exact plain _ (by decide)
  · exact plain _ (by decide)

section Document

variable {presentation : Presentation} {options : Options}

/-- With plain themes the parts in front of the text are closed. -/
theorem closed_preliminaries {metadata : Entries} (hasNotes : Bool)
    (theme : Plain (settings metadata options).theme)
    (colorTheme : Plain (settings metadata options).colorTheme) :
    Closed ((preliminaries (settings metadata options) hasNotes).flatMap partLines) := by
  refine .flatMap fun part member => closed_of_tidy ?_
  cases preliminary_of_mem member with
  | tidy tidy => exact tidy
  | theme => exact tidy_command_of_plain (by decide) theme
  | colorTheme => exact tidy_command_of_plain (by decide) colorTheme

theorem closed_textParts {slides : List Slide} (lined : ∀ slide ∈ slides, Lined Endless slide) :
    Closed ((textParts slides).flatMap partLines) := by
  have blank : Closed (partLines []) := closed_of_tidy (by decide)
  have frames : Closed ((slides.flatMap frame).flatMap partLines) := by
    rw [List.flatMap_assoc]
    exact .flatMap fun slide member => (lined slide member).closed_frame
  rw [textParts, List.flatMap_cons, List.flatMap_append, List.flatMap_append]
  exact blank.append (closed_titleFrame.append (frames.append closed_lastFrame))

/-- A document is closed from its first line to its last. -/
theorem closed_lines_render (theme : Plain (settings presentation.metadata options).theme)
    (colorTheme : Plain (settings presentation.metadata options).colorTheme)
    (lined : ∀ slide ∈ presentation.slides, Lined Endless slide) :
    Closed (lines (render presentation options)) := by
  have isName : IsName "document".toList := by decide
  have noFrame :
      ¬ beginEnvironment "frame".toList <:+: codeOf (beginEnvironment "document".toList ++ []) := by
    rw [← includes_iff]
    decide
  have text := Closed.environment isName (by decide) (by decide : Tidy [])
    (lacksTitle_of_absent noFrame _) (closed_textParts lined)
  have front :
      partLines (beginEnvironment "document".toList) = [beginEnvironment "document".toList] := rfl
  have back :
      partLines (endEnvironment "document".toList) = [endEnvironment "document".toList] := rfl
  rw [render_eq, lines_terminated, List.flatMap_append, List.flatMap_cons, List.flatMap_append,
    List.flatMap_singleton, front, back]
  exact (closed_preliminaries presentation.hasNotes theme colorTheme).append text

/-- Every document has what a document needs. -/
theorem marker_isInfix_render (presentation : Presentation) (options : Options) (marker : Marker) :
    marker.text <:+: render presentation options := by
  rw [render_eq]
  cases marker with
  | documentClass =>
      have first : commandWith "documentclass".toList
          ("aspectratio=".toList ++ (settings presentation.metadata options).aspectRatio)
          "beamer".toList ∈
            preliminaries (settings presentation.metadata options) presentation.hasNotes :=
        List.mem_append_left _ (List.mem_append_left _ (List.mem_append_left _ List.mem_cons_self))
      have begins : "\\documentclass".toList <:+: commandWith "documentclass".toList
          ("aspectratio=".toList ++ (settings presentation.metadata options).aspectRatio)
          "beamer".toList := (List.prefix_append _ _).isInfix
      exact begins.trans (isInfix_terminated (List.mem_append_left _ first))
  | beginDocument => exact isInfix_terminated (List.mem_append_right _ List.mem_cons_self)
  | endDocument =>
      exact isInfix_terminated (List.mem_append_right _ (List.mem_cons_of_mem _
        (List.mem_append_right _ (List.mem_singleton_self _))))

end Document

/-- **Every generated document passes the gate of a build.** Whatever a source says, if the
themes are plain and no code in it ends an environment, then nothing in its document stops a
build, and whatever is found in it concerns the braces of code. -/
theorem passes_gate (source : Text) (options : Options)
    (theme : Plain (settings (Presentation.read source).metadata options).theme)
    (colorTheme : Plain (settings (Presentation.read source).metadata options).colorTheme)
    (code : ∀ line ∈ fencedOfSource source, Endless line) :
    blockers (ofMarkdown source options) = [] ∧
      ∀ issue ∈ issues (ofMarkdown source options),
        issue.finding.rule = "brace-balance".toList := by
  have closed : Closed (lines (ofMarkdown source options)) :=
    closed_lines_render theme colorTheme fun slide member => lined_of_mem_read code member
  have markers := marker_isInfix_render (Presentation.read source) options
  exact ⟨closed.blockers_eq_nil markers,
    fun issue member => closed.rule_of_mem_issues markers member⟩

/-- A slide whose code leaves a brace open, with special characters around it. -/
def openBrace : Text := "## a_b \x7b\n```c\nf() \x7b\n```\nNotes: 5%\n".toList

/-- The braces of code do not count for a build. -/
theorem passes_gate_openBrace :
    Plain (settings (Presentation.read openBrace).metadata {}).theme ∧
      Plain (settings (Presentation.read openBrace).metadata {}).colorTheme ∧
      (∀ line ∈ fencedOfSource openBrace, Endless line) ∧
      blockers (ofMarkdown openBrace {}) = [] ∧
      ∀ issue ∈ issues (ofMarkdown openBrace {}), issue.finding.rule = "brace-balance".toList := by
  have theme : Plain (settings (Presentation.read openBrace).metadata {}).theme := by decide
  have colorTheme : Plain (settings (Presentation.read openBrace).metadata {}).colorTheme := by
    decide
  have code : ∀ line ∈ fencedOfSource openBrace, Endless line := by decide
  exact ⟨theme, colorTheme, code, passes_gate openBrace {} theme colorTheme code⟩

end SlideDeck.Document
