import SlideDeck.Proofs.Document.Parts
import SlideDeck.Proofs.Html.Deck

/-!
# Documents are read back

A deck that is read from a generated document has one slide for each slide of the
presentation, in the same order, and with its title, body and note
(`slides_read_ofMarkdown`). Neither the frame of the title page nor the last frame becomes
a slide.

The reader knows nothing of the writer. It finds the frames of slides because nothing else
in a document begins a frame with a title in braces, and it finds their ends because no
line of a page ends a frame (`frameless_of_mem_page`). So the frames are read one after the
other, each with what stands behind it (`map_framesOf_text`).
-/

set_option autoImplicit false

namespace SlideDeck.Document

open SlideDeck SlideDeck.Text SlideDeck.Latex SlideDeck.Markdown SlideDeck.Slide

/-! ## Where frames begin and end -/

/-- Text in which no frame ends. -/
def Frameless (s : Text) : Prop := ¬ endEnvironment "frame".toList <:+: s

instance (s : Text) : Decidable (Frameless s) :=
  decidable_of_iff (includes (endEnvironment "frame".toList) s = false) (by
    simp [Frameless, ← includes_iff])

theorem Frameless.of_not_isInfix {s : Text} (absent : ¬ "\\end".toList <:+: s) : Frameless s :=
  fun occurs => absent ((end_isInfix _).trans occurs)

/-- No line of a page ends a frame. -/
theorem frameless_of_mem_page {ls : List Text} (page : Page Frameless ls) :
    ∀ line ∈ ls, Frameless line := by
  induction page with
  | nil => simp
  | line isLine _ ih =>
      exact List.forall_mem_cons.mpr ⟨.of_not_isInfix isLine.calm.2, ih⟩
  | @environment name args inner rest member arguments _ _ ihInner ih =>
      have isName := isName_of_mem_pageEnvironments member
      have first : Frameless (beginEnvironment name ++ args) := .of_not_isInfix
        (end_not_isInfix_beginEnvironment isName arguments.neat.tidy.guarded.calm)
      have last : Frameless (endEnvironment name) :=
        (by decide : ∀ name ∈ pageEnvironments, Frameless (endEnvironment name)) name member
      simp only [List.forall_mem_cons, List.forall_mem_append]
      exact ⟨first, ihInner, last, ih⟩
  | @listing args code rest arguments each _ ih =>
      have first : Frameless (beginEnvironment Slide.listing ++ args) := .of_not_isInfix
        (end_not_isInfix_beginEnvironment (by decide) arguments.neat.tidy.guarded.calm)
      simp only [List.forall_mem_cons, List.forall_mem_append]
      exact ⟨first, fun line member => (each line member).1, by decide, ih⟩
  | placeholder _ ih => exact List.forall_mem_cons.mpr ⟨by decide, ih⟩

/-- The body of a frame does not end it. -/
theorem Lined.frameless_body {slide : Slide} (lined : Lined Frameless slide) :
    ∀ part ∈ bodyParts slide, Frameless part := by
  obtain ⟨ls, page, same⟩ := lined.exists_page
  intro part member occurs
  have isBody : part = unlines ls := by
    rw [bodyParts, same] at member
    split at member
    · cases member
    · exact List.mem_singleton.mp member
  rw [isBody] at occurs
  obtain ⟨line, inside, found⟩ := exists_line_of_isInfix (by decide) (by decide) occurs
  exact frameless_of_mem_page page line inside found

/-! ## What is no slide -/

/-- A text without the beginning of an environment begins no frame. -/
theorem frame_not_isInfix_of_calm {s : Text} (calm : Calm s) :
    ¬ beginEnvironment "frame".toList <:+: s :=
  fun occurs => calm.1 ((begin_isInfix _).trans occurs)

/-- A command whose argument has no backslash begins no frame. -/
theorem frame_not_isInfix_command {name s : Text} {c : Char} (initial : name.head? = some c)
    (other : 'b' ≠ c) (noName : '\\' ∉ name) (absent : '\\' ∉ s) :
    ¬ beginEnvironment "frame".toList <:+: command name s := by
  have spelled : beginEnvironment "frame".toList = '\\' :: "begin\x7bframe\x7d".toList := by decide
  have inner : ¬ ['\\', 'b'] <:+: s := fun occurs => absent (occurs.subset List.mem_cons_self)
  rw [spelled]
  exact command_not_isInfix (by decide) initial other (by decide) noName inner

/-- In front of the text no frame begins, if the themes have no backslash. -/
theorem framesOf_preliminaries {metadata : Entries} {options : Options} (hasNotes : Bool)
    (theme : '\\' ∉ (settings metadata options).theme)
    (colorTheme : '\\' ∉ (settings metadata options).colorTheme) (s : Text) :
    Deck.framesOf (terminated (preliminaries (settings metadata options) hasNotes) ++ s) =
      Deck.framesOf s := by
  refine Deck.framesOf_terminated (fun part member => ?_) s
  cases preliminary_of_mem member with
  | tidy tidy => exact frame_not_isInfix_of_calm tidy.guarded.calm
  | theme => exact frame_not_isInfix_command (c := 'u') rfl (by decide) (by decide) theme
  | colorTheme => exact frame_not_isInfix_command (c := 'u') rfl (by decide) (by decide) colorTheme

/-- The title page is no slide. -/
theorem framesOf_titleFrame (s : Text) :
    Deck.framesOf (terminated titleFrame ++ s) = Deck.framesOf s := by
  have absent : ∀ part ∈ ["\\titlepage".toList, endEnvironment "frame".toList, []],
      ¬ beginEnvironment "frame".toList <:+: part := by
    simp only [← includes_iff]
    decide
  exact (Deck.framesOf_untitled (.inl rfl) _).trans (Deck.framesOf_terminated absent s)

/-- Neither is the last frame. -/
theorem framesOf_lastFrame :
    Deck.framesOf (terminated (lastFrame ++ [endEnvironment "document".toList])) = [] := by
  have absent : ∀ part ∈ ["\\centering".toList, group "\\Huge Questions?".toList,
      endEnvironment "frame".toList, [], endEnvironment "document".toList],
      ¬ beginEnvironment "frame".toList <:+: part := by
    simp only [← includes_iff]
    decide
  have behind := Deck.framesOf_terminated absent []
  rw [List.append_nil] at behind
  exact (Deck.framesOf_untitled (.inr rfl) _).trans behind

/-! ## Slides -/

/-- The slide of a deck that the frame of a slide is read as. -/
def deckSlide (slide : Slide) : DeckSlide where
  title := Html.fragment (Inline.format slide.title)
  content := Html.fragment (terminated (bodyParts slide))
  notes :=
    if (Slide.noteBody slide.notes).isEmpty then none
    else some (Deck.noteHtml (trim (Slide.noteBody slide.notes)))

namespace Lined

variable {slide : Slide}

/-- In a note no frame begins. -/
theorem frame_not_isInfix_note (lined : Lined Frameless slide) :
    ∀ part ∈ noteLines (Slide.noteBody slide.notes),
      ¬ beginEnvironment "frame".toList <:+: part := by
  obtain ⟨rows, isLine, same⟩ := lined.exists_rows
  have text : ¬ beginEnvironment "frame".toList <:+: unlines rows := by
    intro occurs
    obtain ⟨row, inside, found⟩ := exists_line_of_isInfix (by decide) (by decide) occurs
    exact frame_not_isInfix_of_calm (isLine row inside).calm found
  rw [noteLines, same]
  split
  · simp
  · simp only [List.forall_mem_cons]
    exact ⟨frame_not_isInfix_of_calm (by decide), text,
      frame_not_isInfix_of_calm (by decide), by simp⟩

/-- The frame of a slide is read with its title and its body; behind it reading goes on. -/
theorem framesOf_frame (lined : Lined Frameless slide) (s : Text) :
    Deck.framesOf (terminated (frame slide) ++ s) =
      (⟨Inline.format slide.title, terminated (bodyParts slide)⟩,
        '\n' :: (terminated (noteLines (Slide.noteBody slide.notes)) ++ '\n' :: s)) ::
          Deck.framesOf s := by
  have title : '\n' ∉ Inline.format slide.title := (Inline.neat_format lined.title).oneLine
  have found := Deck.framesOf_titled (fragileOption_eq_or (Slide.body slide.content)) title
    lined.frameless_body
    ('\n' :: (terminated (noteLines (Slide.noteBody slide.notes)) ++ '\n' :: s))
  have noFrame : ¬ beginEnvironment "frame".toList <:+: [] := frame_not_isInfix_of_calm (by decide)
  have behind :
      Deck.framesOf ('\n' :: (terminated (noteLines (Slide.noteBody slide.notes)) ++ '\n' :: s)) =
      Deck.framesOf s := by
    calc Deck.framesOf ('\n' :: (terminated (noteLines (Slide.noteBody slide.notes)) ++ '\n' :: s))
        = Deck.framesOf (terminated (noteLines (Slide.noteBody slide.notes)) ++ '\n' :: s) :=
          Deck.framesOf_append_cons noFrame _
      _ = Deck.framesOf ('\n' :: s) := Deck.framesOf_terminated lined.frame_not_isInfix_note _
      _ = Deck.framesOf s := Deck.framesOf_append_cons noFrame s
  rw [behind] at found
  rw [← found, frame_eq]
  simp only [terminated_cons, terminated_append, frameArguments, List.append_assoc,
    List.cons_append, List.nil_append]
  rfl

/-- The note behind a frame is read if there is one; otherwise an environment begins there. -/
theorem note?_noteLines (lined : Lined Frameless slide) (s : Text) :
    Deck.note? ('\n' :: (terminated (noteLines (Slide.noteBody slide.notes)) ++
        '\n' :: ("\\begin".toList ++ s))) =
      if (Slide.noteBody slide.notes).isEmpty then none
      else some (trim (Slide.noteBody slide.notes)) := by
  obtain ⟨rows, isLine, same⟩ := lined.exists_rows
  rw [noteLines, same]
  split
  · exact Deck.note?_eq_none s
  · next text =>
      have nonempty : rows ≠ [] := by
        rintro rfl
        exact text rfl
      have note := Deck.note?_written isLine nonempty ('\n' :: '\n' :: ("\\begin".toList ++ s))
      rw [← note]
      simp only [terminated_cons, List.append_assoc, List.cons_append]
      rfl

end Lined

/-- Behind each frame another environment begins. -/
theorem exists_begin (slides : List Slide) :
    ∃ s, terminated (slides.flatMap frame ++ (lastFrame ++ [endEnvironment "document".toList])) =
      "\\begin".toList ++ s := by
  cases slides with
  | nil => exact ⟨_, rfl⟩
  | cons slide slides =>
      rw [List.flatMap_cons, frame_eq]
      exact ⟨_, rfl⟩

/-- **The frames of slides are read one after the other.** -/
theorem map_framesOf_text {slides : List Slide} (lined : ∀ slide ∈ slides, Lined Frameless slide) :
    ((Deck.framesOf
      (terminated (slides.flatMap frame ++ (lastFrame ++ [endEnvironment "document".toList])))).map
        fun (frame, behind) => Deck.slideOf frame behind) = slides.map deckSlide := by
  induction slides with
  | nil => exact congrArg _ framesOf_lastFrame
  | cons slide slides ih =>
      rw [List.forall_mem_cons] at lined
      obtain ⟨s, begins⟩ := exists_begin slides
      have whole : terminated ((slide :: slides).flatMap frame ++
          (lastFrame ++ [endEnvironment "document".toList])) = terminated (frame slide) ++
            terminated (slides.flatMap frame ++
              (lastFrame ++ [endEnvironment "document".toList])) := by
        rw [List.flatMap_cons, List.append_assoc, terminated_append]
      rw [whole, lined.1.framesOf_frame, List.map_cons, List.map_cons, ih lined.2, begins]
      refine congrArg (· :: slides.map deckSlide) ?_
      simp only [Deck.slideOf, lined.1.note?_noteLines, deckSlide]
      split <;> rfl

/-- The frames of a document are those of its slides. -/
theorem framesOf_ofMarkdown {source : Text} {options : Options}
    (theme : '\\' ∉ (settings (Presentation.read source).metadata options).theme)
    (colorTheme : '\\' ∉ (settings (Presentation.read source).metadata options).colorTheme) :
    Deck.framesOf (ofMarkdown source options) = Deck.framesOf (terminated
      ((Presentation.read source).slides.flatMap frame ++
        (lastFrame ++ [endEnvironment "document".toList]))) := by
  have noFrame : ¬ beginEnvironment "frame".toList <:+: beginEnvironment "document".toList := by
    rw [← includes_iff]
    decide
  have noFrameBehind : ¬ beginEnvironment "frame".toList <:+: [] :=
    frame_not_isInfix_of_calm (by decide)
  rw [ofMarkdown, render_eq, terminated_append, framesOf_preliminaries _ theme colorTheme,
    terminated_cons, Deck.framesOf_append_cons noFrame, textParts, List.cons_append,
    terminated_cons, Deck.framesOf_append_cons noFrameBehind, List.append_assoc, List.append_assoc,
    terminated_append, framesOf_titleFrame]

/-- **A generated document is read back slide by slide.** Whatever a source says, if the
themes have no backslash and no code in it ends a frame, the deck that is read from its
document has the slides of the source. -/
theorem slides_read_ofMarkdown (source : Text) (options : Options)
    (theme : '\\' ∉ (settings (Presentation.read source).metadata options).theme)
    (colorTheme : '\\' ∉ (settings (Presentation.read source).metadata options).colorTheme)
    (code : ∀ line ∈ fencedOfSource source, Frameless line) :
    (Deck.read (ofMarkdown source options)).slides =
      (Presentation.read source).slides.map deckSlide := by
  have lined : ∀ slide ∈ (Presentation.read source).slides, Lined Frameless slide :=
    fun slide member => lined_of_mem_read code member
  rw [Deck.read, framesOf_ofMarkdown theme colorTheme]
  exact map_framesOf_text lined

/-- A slide whose title ends a frame and whose note begins one, and a slide behind it. -/
def frameInTitle : Text :=
  "## \\end\x7bframe\x7d\nNote: \x7d\\begin\x7bframe\x7d\n## b\n- c\n".toList

/-- What a text says of frames makes no difference to the slides. -/
theorem slides_read_frameInTitle :
    '\\' ∉ (settings (Presentation.read frameInTitle).metadata {}).theme ∧
      '\\' ∉ (settings (Presentation.read frameInTitle).metadata {}).colorTheme ∧
      (∀ line ∈ fencedOfSource frameInTitle, Frameless line) ∧
      (Deck.read (ofMarkdown frameInTitle {})).slides =
        (Presentation.read frameInTitle).slides.map deckSlide := by
  have theme : '\\' ∉ (settings (Presentation.read frameInTitle).metadata {}).theme := by decide
  have colorTheme : '\\' ∉ (settings (Presentation.read frameInTitle).metadata {}).colorTheme := by
    decide
  have code : ∀ line ∈ fencedOfSource frameInTitle, Frameless line := by decide
  exact ⟨theme, colorTheme, code, slides_read_ofMarkdown frameInTitle {} theme colorTheme code⟩

end SlideDeck.Document
