import SlideDeck.Markdown.Presentation
import SlideDeck.Proofs.Text.Trim

/-!
# Reading loses no text

What is written in a source behind its first slide is what stands on its slides, each text
once and in the same order (`flatMap_texts_read`).

The texts of a source are said line by line, without slides (`sourceTexts`): a fence and a
line of code count as they are, a heading with its title, a line that turns to the notes
with the text behind the marker, a break and the title of the presentation not at all. The
texts of a slide are its title, its content and its notes, blank ones left out
(`Slide.texts`).

The reader is followed through the texts that it has put on slides so far
(`Reading.texts`). A line adds its texts at their end (`Reading.Open.step`): lines go to the
notes of a slide only behind those of its content, and the slides that are dropped have no
texts. Before the first slide nothing is added (`Reading.Unopened.step`).
-/

set_option autoImplicit false

namespace SlideDeck.Markdown

open SlideDeck SlideDeck.Text

/-! ## The texts of a slide -/

/-- The lines that have text. -/
def visibleLines (ls : List Text) : List Text := ls.filter fun line => !isBlankText line

/-- A text, if there is one. -/
def nonempty (s : Text) : List Text := if s.isEmpty then [] else [s]

/-- The texts of a slide, from its title to the end of its notes. -/
def Slide.texts (slide : Slide) : List Text :=
  nonempty slide.title ++ visibleLines slide.content ++ visibleLines slide.notes

/-! ## The texts of a source -/

/-- The lines behind the metadata block: if the first line is a delimiter, those behind the
next one. -/
def bodyLines : List Text → List Text
  | [] => []
  | line :: rest =>
    if isBreak line then (rest.dropWhile fun other => !isBreak other).tail else line :: rest

/-- Whether a slide begins at the line, if it is no code. -/
def opensSlide (line : Text) : Bool :=
  isBreak line || (skip? "## ".toList (trimStart line)).isSome

/-- The texts of a line that is neither a fence nor code. -/
def proseTexts (line : Text) : List Text :=
  match skip? "## ".toList (trimStart line) with
  | some title => nonempty (trim title)
  | none =>
    match notesText? (trimStart line) with
    | some text => nonempty (trim text)
    | none =>
      if isBreak line || (skip? "# ".toList (trimStart line)).isSome then []
      else visibleLines [line]

/-- The texts of one line; `inside` tells whether it stands behind an open fence. -/
def lineTexts (inside : Bool) (line : Text) : List Text :=
  if isFence line || inside then visibleLines [line] else proseTexts line

/-- The texts of lines one after the other. -/
def textsFrom (inside : Bool) : List Text → List Text
  | [] => []
  | line :: rest => lineTexts inside line ++ textsFrom (insideAfter inside line) rest

/-- The lines from the first at which a slide begins. -/
def fromFirstSlide (inside : Bool) : List Text → List Text
  | [] => []
  | line :: rest =>
    if opensSlide line && !inside then line :: rest
    else fromFirstSlide (insideAfter inside line) rest

/-- The texts of a source from its first slide on. -/
def sourceTexts (source : Text) : List Text :=
  textsFrom false (fromFirstSlide false (bodyLines (lines source)))

/-! ## Blank texts -/

theorem visibleLines_eq_nil {ls : List Text} (blank : ls.all isBlankText = true) :
    visibleLines ls = [] := by
  rw [visibleLines, List.filter_eq_nil_iff]
  intro line member
  simp [List.all_eq_true.mp blank line member]

/-- A trimmed text that is blank is empty. -/
theorem isBlankText_trim (s : Text) : isBlankText (trim s) = (trim s).isEmpty := by
  cases leading : trimStart s with
  | nil =>
      rw [trim, leading]
      rfl
  | cons c rest =>
      have visible : isBlank c = false := by
        have first := List.head?_dropWhile_not isBlank s
        rw [trimStart] at leading
        simpa [leading] using first
      rw [trim, leading, trimEnd_cons visible]
      simp [isBlankText, visible]

theorem visibleLines_trim (s : Text) : visibleLines [trim s] = nonempty (trim s) := by
  rw [nonempty, ← isBlankText_trim, visibleLines]
  cases blank : isBlankText (trim s) <;> simp [blank]

/-- A slide with nothing on it has no texts. -/
theorem Slide.texts_of_isBlank {slide : Slide} (blank : slide.isBlank = true) :
    slide.texts = [] := by
  simp only [Slide.isBlank, Bool.and_eq_true, Bool.not_eq_true'] at blank
  obtain ⟨⟨noTitle, noNotes⟩, noContent⟩ := blank
  have notes : slide.notes.all isBlankText = true := by
    simpa [Slide.hasNotes] using noNotes
  rw [Slide.texts, visibleLines_eq_nil noContent, visibleLines_eq_nil notes, nonempty, noTitle]
  rfl

/-! ## The first character of a line -/

/-- A line begins, behind its blanks, as it does when it is trimmed. -/
theorem isPrefix_trimStart {literal line : Text} (begins : literal <+: trim line) :
    literal <+: trimStart line :=
  begins.trans (trimEnd_isPrefix _)

theorem hyphen_of_isBreak {line : Text} (breaks : isBreak line = true) :
    ['-'] <+: trimStart line := by
  have whole : trim line = "---".toList := by simpa [isBreak] using breaks
  refine isPrefix_trimStart ?_
  rw [whole]
  decide

theorem backtick_of_isFence {line : Text} (fence : isFence line = true) :
    ['\x60'] <+: trimStart line := by
  obtain ⟨tag, found⟩ := Option.isSome_iff_exists.mp fence
  have whole : trim line = fenceMark ++ tag := skip?_eq_some_iff.mp found
  refine isPrefix_trimStart ?_
  rw [whole]
  exact ⟨['\x60', '\x60'] ++ tag, rfl⟩

/-- A line does not begin in two ways. -/
theorem skip?_of_isPrefix {c d : Char} {literal s : Text} (begins : [c] <+: s) (differ : d ≠ c) :
    skip? (d :: literal) s = none := by
  cases found : skip? (d :: literal) s with
  | none => rfl
  | some rest =>
      obtain ⟨behind, rfl⟩ := begins
      have whole := skip?_eq_some_iff.mp found
      exact absurd (List.cons.inj whole).1.symm differ

/-- A line that begins otherwise does not turn to the notes. -/
theorem notesText?_of_isPrefix {c : Char} {s : Text} (begins : [c] <+: s) (differ : 'N' ≠ c) :
    notesText? s = none := by
  have long : skip? "Notes:".toList s = none := skip?_of_isPrefix begins differ
  have short : skip? "Note:".toList s = none := skip?_of_isPrefix begins differ
  rw [notesText?, long, short]
  rfl

theorem isBreak_of_isPrefix {c : Char} {line : Text} (begins : [c] <+: trimStart line)
    (differ : '-' ≠ c) : isBreak line = false := by
  rw [Bool.eq_false_iff]
  intro breaks
  obtain ⟨rest, same⟩ := begins
  have other := hyphen_of_isBreak breaks
  rw [← same] at other
  exact differ (List.cons_prefix_cons.mp other).1

/-- No slide begins at a fence. -/
theorem opensSlide_of_isFence {line : Text} (fence : isFence line = true) :
    opensSlide line = false := by
  have first := backtick_of_isFence fence
  have noHeading : skip? "## ".toList (trimStart line) = none :=
    skip?_of_isPrefix first (by decide : '#' ≠ '\x60')
  rw [opensSlide, isBreak_of_isPrefix first (by decide), noHeading]
  rfl

/-! ## The role of a line and its texts -/

/-- What a line outside of code does, the texts that it adds, and whether a slide begins
at it. -/
inductive Plays (line : Text) : Role → List Text → Bool → Prop where
  | slideBreak : Plays line .slideBreak [] true
  | notes (text : Text) : Plays line (.notes (trim text)) (nonempty (trim text)) false
  | slideTitle (title : Text) :
      Plays line (.slideTitle (trim title)) (nonempty (trim title)) true
  | documentTitle (title : Text) : Plays line (.documentTitle title) [] false
  | plain : Plays line .plain (visibleLines [line]) false

/-- The reader takes a line for what its texts say. -/
theorem plays (line : Text) : Plays line (Role.of line) (proseTexts line) (opensSlide line) := by
  rw [Role.of, proseTexts, opensSlide]
  cases breaks : isBreak line with
  | true =>
      have first := hyphen_of_isBreak breaks
      have noHeading : skip? "## ".toList (trimStart line) = none :=
        skip?_of_isPrefix first (by decide : '#' ≠ '-')
      have noNotes : notesText? (trimStart line) = none := notesText?_of_isPrefix first (by decide)
      rw [noHeading, noNotes]
      exact .slideBreak
  | false =>
      cases heading : skip? "## ".toList (trimStart line) with
      | some title =>
          have first : ['#'] <+: trimStart line := by
            rw [skip?_eq_some_iff.mp heading]
            exact ⟨"# ".toList ++ title, rfl⟩
          have noNotes : notesText? (trimStart line) = none :=
            notesText?_of_isPrefix first (by decide)
          rw [noNotes]
          exact .slideTitle title
      | none =>
          cases notes : notesText? (trimStart line) with
          | some text => exact .notes text
          | none =>
              cases document : skip? "# ".toList (trimStart line) with
              | some title => exact .documentTitle (trim title)
              | none => exact .plain

/-! ## Reading on an open slide -/

namespace Reading

/-- The texts on the slides so far. -/
def texts (r : Reading) : List Text :=
  r.slides.flatMap Slide.texts ++ (r.current.map Slide.texts).getD []

/-- A slide is being read, and its notes are empty as long as lines go to its content. -/
def Open (r : Reading) : Prop :=
  ∃ slide, r.current = some slide ∧ (r.part = .content → slide.notes = [])

/-- A step to a reading on an open slide, and the texts that it has added. -/
structure Adds (before after : Reading) (added : List Text) : Prop where
  isOpen : after.Open
  texts : after.texts = before.texts ++ added

variable {r : Reading}

/-- Only a slide without texts is dropped. -/
theorem flatMap_texts_close (r : Reading) : r.close.slides.flatMap Slide.texts = r.texts := by
  rw [close, Reading.texts]
  cases current : r.current with
  | none => simp
  | some slide =>
      cases blank : slide.isBlank with
      | true => simp [blank, Slide.texts_of_isBlank blank]
      | false => simp [blank]

/-- A slide that has no notes yet can be begun at any time. -/
theorem adds_start (r : Reading) {slide : Slide} (noNotes : slide.notes = []) :
    Adds r (r.start slide) slide.texts where
  isOpen := ⟨slide, rfl, fun _ => noNotes⟩
  texts := by
    rw [← flatMap_texts_close r]
    rfl

theorem adds_start_titled (r : Reading) (title : Text) :
    Adds r (r.start { title }) (nonempty title) := by
  have begun : Adds r (r.start { title }) _ := adds_start r rfl
  rw [Slide.texts] at begun
  simpa [visibleLines] using begun

/-- A line goes to the end of what stands on the slide. -/
theorem Open.push (isOpen : r.Open) (line : Text) :
    Adds r (r.push line) (visibleLines [line]) := by
  obtain ⟨slide, current, noNotes⟩ := isOpen
  cases part : r.part with
  | content =>
      have pushed : r.push line =
          { r with current := some { slide with content := slide.content ++ [line] } } := by
        simp only [Reading.push, current, part]
      rw [pushed]
      constructor
      · exact ⟨_, rfl, noNotes⟩
      · simp [Reading.texts, current, Slide.texts, noNotes part, visibleLines]
  | notes =>
      have pushed : r.push line =
          { r with current := some { slide with notes := slide.notes ++ [line] } } := by
        simp only [Reading.push, current, part]
      rw [pushed]
      constructor
      · exact ⟨_, rfl, fun content => absurd (part.symm.trans content) (by decide)⟩
      · simp [Reading.texts, current, Slide.texts, visibleLines]

/-- The text behind the marker of notes is the first line of the notes. -/
theorem Open.startNotes (isOpen : r.Open) (text : Text) :
    Adds r (r.startNotes (trim text)) (nonempty (trim text)) := by
  obtain ⟨slide, current, -⟩ := isOpen
  have turned : Open { r with part := .notes } := ⟨slide, current, fun content => by cases content⟩
  have noneMissing : r.current.isNone = false := by rw [current]; rfl
  rw [Reading.startNotes, noneMissing]
  cases empty : (trim text).isEmpty with
  | true =>
      constructor
      · exact turned
      · simp [nonempty, empty, Reading.texts]
  | false =>
      have pushed := turned.push (trim text)
      rw [visibleLines_trim] at pushed
      exact ⟨pushed.isOpen, pushed.texts⟩

theorem Open.setTitle (isOpen : r.Open) (title : Text) : Adds r (r.setTitle title) [] := by
  rw [Reading.setTitle]
  split
  · exact ⟨isOpen, (List.append_nil _).symm⟩
  · exact ⟨isOpen, (List.append_nil _).symm⟩

/-- A line outside of code adds its texts. -/
theorem Open.play (isOpen : r.Open) {line : Text} {role : Role} {added : List Text} {opens : Bool}
    (played : Plays line role added opens) : Adds r (r.play line role) added := by
  cases played with
  | slideBreak => exact adds_start r rfl
  | notes text => exact isOpen.startNotes text
  | slideTitle title => exact adds_start_titled r (trim title)
  | documentTitle title => exact isOpen.setTitle title
  | plain => exact isOpen.push line

/-- A line adds its texts. -/
theorem Open.step (isOpen : r.Open) (line : Text) :
    Adds r (r.step line) (lineTexts r.insideCode line) := by
  have read : Adds r
      (if isFence line || r.insideCode then r.push line else r.play line (Role.of line))
      (lineTexts r.insideCode line) := by
    rw [lineTexts]
    split
    · exact isOpen.push line
    · exact isOpen.play (plays line)
  exact ⟨read.isOpen, read.texts⟩

/-- Lines add their texts one after the other. -/
theorem Open.run (isOpen : r.Open) (ls : List Text) :
    (r.run ls).texts = r.texts ++ textsFrom r.insideCode ls := by
  induction ls generalizing r with
  | nil => exact (List.append_nil _).symm
  | cons line ls ih =>
      have added := isOpen.step line
      calc ((r.step line).run ls).texts
          = (r.step line).texts ++ textsFrom (r.step line).insideCode ls := ih added.isOpen
        _ = r.texts ++ lineTexts r.insideCode line ++
              textsFrom (insideAfter r.insideCode line) ls := by rw [added.texts]; rfl
        _ = r.texts ++ textsFrom r.insideCode (line :: ls) := List.append_assoc ..

/-! ## Before the first slide -/

/-- No slide has begun. -/
structure Unopened (r : Reading) : Prop where
  slides : r.slides = []
  current : r.current = none

theorem Unopened.texts (unopened : r.Unopened) : r.texts = [] := by
  simp [Reading.texts, unopened.slides, unopened.current]

theorem Unopened.push (unopened : r.Unopened) (line : Text) : (r.push line).Unopened := by
  rw [Reading.push, unopened.current]
  exact unopened

/-- A line at which a slide begins opens one. -/
theorem adds_play_of_opens {line : Text} {role : Role} {added : List Text}
    (played : Plays line role added true) : Adds r (r.play line role) added := by
  cases played with
  | slideBreak => exact adds_start r rfl
  | slideTitle title => exact adds_start_titled r (trim title)

theorem adds_step_of_opensSlide {line : Text} (outside : r.insideCode = false)
    (opens : opensSlide line = true) : Adds r (r.step line) (lineTexts r.insideCode line) := by
  have noFence : isFence line = false := by
    rw [Bool.eq_false_iff]
    intro fence
    rw [opensSlide_of_isFence fence] at opens
    cases opens
  have step : r.step line =
      { r.play line (Role.of line) with insideCode := insideAfter false line } := by
    simp [Reading.step, noFence, outside]
  have played := plays line
  rw [opens] at played
  have read := adds_play_of_opens (r := r) played
  rw [step, lineTexts, noFence, outside]
  exact ⟨read.isOpen, read.texts⟩

/-- Any other line before the first slide is dropped. -/
theorem Unopened.play (unopened : r.Unopened) {line : Text} {role : Role} {added : List Text}
    (played : Plays line role added false) : (r.play line role).Unopened := by
  cases played with
  | notes text =>
      rw [Reading.play, Reading.startNotes, unopened.current]
      exact unopened
  | documentTitle title =>
      rw [Reading.play, Reading.setTitle]
      split
      · exact unopened
      · exact ⟨unopened.slides, unopened.current⟩
  | plain => exact unopened.push line

theorem Unopened.step (unopened : r.Unopened) {line : Text}
    (opensNone : (opensSlide line && !r.insideCode) = false) : (r.step line).Unopened := by
  have read : Unopened
      (if isFence line || r.insideCode then r.push line else r.play line (Role.of line)) := by
    split
    case isTrue => exact unopened.push line
    case isFalse outside =>
      have noSlide : opensSlide line = false := by simp_all
      have played := plays line
      rw [noSlide] at played
      exact unopened.play played
  exact ⟨read.slides, read.current⟩

/-- The texts of lines count from the first on at which a slide begins. -/
theorem Unopened.run (unopened : r.Unopened) (ls : List Text) :
    (r.run ls).texts = textsFrom false (fromFirstSlide r.insideCode ls) := by
  induction ls generalizing r with
  | nil => exact unopened.texts
  | cons line ls ih =>
      rw [fromFirstSlide]
      cases opens : opensSlide line && !r.insideCode with
      | true =>
          obtain ⟨isSlide, outside⟩ : opensSlide line = true ∧ r.insideCode = false := by
            simpa using opens
          have added := adds_step_of_opensSlide outside isSlide
          calc ((r.step line).run ls).texts
              = (r.step line).texts ++ textsFrom (r.step line).insideCode ls := added.isOpen.run ls
            _ = textsFrom r.insideCode (line :: ls) := by
                rw [added.texts, unopened.texts, List.nil_append]
                rfl
            _ = textsFrom false (line :: ls) := by rw [outside]
      | false =>
          rw [if_neg Bool.false_ne_true]
          exact ih (unopened.step opens)

end Reading

/-! ## Reading a source -/

theorem body_ofBlock (ls : List Text) :
    (Sections.ofBlock ls).body = (ls.dropWhile fun other => !isBreak other).tail := by
  induction ls with
  | nil => rfl
  | cons line ls ih => cases breaks : isBreak line <;> simp [Sections.ofBlock, breaks, ih]

/-- The reader cuts off the metadata block. -/
theorem body_ofLines (ls : List Text) : (Sections.ofLines ls).body = bodyLines ls := by
  cases ls with
  | nil => rfl
  | cons line rest =>
      rw [Sections.ofLines, bodyLines]
      split
      · exact body_ofBlock rest
      · rfl

/-- Behind the first slide, the slides hold the texts of the source: none is lost, none
stands there twice, and their order is kept. -/
theorem flatMap_texts_read (source : Text) :
    (Presentation.read source).slides.flatMap Slide.texts = sourceTexts source := by
  have before : Reading.Unopened
      { metadata := readMetadata (Sections.ofLines (lines source)).metadata } := ⟨rfl, rfl⟩
  calc (Presentation.read source).slides.flatMap Slide.texts
      = (Reading.run { metadata := readMetadata (Sections.ofLines (lines source)).metadata }
          (Sections.ofLines (lines source)).body).texts := Reading.flatMap_texts_close _
    _ = textsFrom false (fromFirstSlide false (Sections.ofLines (lines source)).body) :=
        before.run _
    _ = sourceTexts source := by rw [body_ofLines]; rfl

example :
    sourceTexts "lost\n## A\nx\n\n---\n# T\nNote: n\n\x60\x60\x60\n## y\n\x60\x60\x60".toList =
      ["A".toList, "x".toList, "n".toList, fenceMark, "## y".toList, fenceMark] := by
  decide +kernel

end SlideDeck.Markdown
