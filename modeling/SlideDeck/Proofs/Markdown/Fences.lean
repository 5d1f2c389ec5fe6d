import SlideDeck.Proofs.Text.Lines
import SlideDeck.Proofs.Text.Search
import SlideDeck.Markdown.Presentation

/-!
# Where the text of slides comes from

Everything on a slide comes from lines of the source: a line of its content is one of them,
its title and each line of its notes are parts of one (`Sourced`). Code stays code: the
lines that stand between fences in the content of a slide stand between fences in the
source (`sourced_of_mem_read`), although the content is read apart from the source and
from its first line on.

The reason is that a slide begins outside of code, and that the part of the slide to which
lines go does not change inside. So the fences that are open in the content of the current
slide are those that are open in the source, as long as lines go there; and none is open in
it while they go to the notes (`Traced`).
-/

set_option autoImplicit false

namespace SlideDeck.Markdown

open SlideDeck SlideDeck.Text

/-! ## Fenced lines -/

/-- The lines between fences, where `inside` tells whether the first is inside. -/
def fencedFrom : Bool → List Text → List Text
  | _, [] => []
  | inside, line :: rest =>
    if isFence line then fencedFrom (!inside) rest
    else if inside then line :: fencedFrom inside rest
    else fencedFrom inside rest

/-- The lines of a text that stand between fences. -/
def fencedLines (ls : List Text) : List Text := fencedFrom false ls

/-- Whether the line behind the lines is inside a block of code. -/
def insideBehind (inside : Bool) (ls : List Text) : Bool := ls.foldl insideAfter inside

/-- The lines between fences behind the metadata block of a source. -/
def fencedOfSource (source : Text) : List Text := fencedLines (Sections.ofLines (lines source)).body

theorem insideBehind_concat (inside : Bool) (ls : List Text) (line : Text) :
    insideBehind inside (ls ++ [line]) = insideAfter (insideBehind inside ls) line := by
  rw [insideBehind, List.foldl_append]
  rfl

theorem fencedFrom_concat (inside : Bool) (ls : List Text) (line : Text) :
    fencedFrom inside (ls ++ [line]) =
      fencedFrom inside ls ++ if insideBehind inside ls && !isFence line then [line] else [] := by
  induction ls generalizing inside with
  | nil => cases fence : isFence line <;> cases inside <;> simp [fencedFrom, insideBehind, fence]
  | cons first ls ih =>
      have behind :
          insideBehind inside (first :: ls) = insideBehind (insideAfter inside first) ls :=
        rfl
      rw [List.cons_append, fencedFrom, fencedFrom, behind, insideAfter]
      cases isFence first <;> cases inside <;> simp [ih]

theorem mem_of_mem_fencedFrom {inside : Bool} {ls : List Text} {line : Text}
    (member : line ∈ fencedFrom inside ls) : line ∈ ls := by
  induction ls generalizing inside with
  | nil => cases member
  | cons first ls ih =>
      rw [fencedFrom] at member
      split at member
      · exact List.mem_cons_of_mem _ (ih member)
      · split at member
        · exact List.mem_cons.mpr ((List.mem_cons.mp member).imp_right ih)
        · exact List.mem_cons_of_mem _ (ih member)

/-- Without fences there is nothing between fences. -/
theorem fencedLines_eq_nil {ls : List Text} (noFence : ∀ line ∈ ls, isFence line = false) :
    fencedLines ls = [] := by
  induction ls with
  | nil => rfl
  | cons line ls ih =>
      rw [List.forall_mem_cons] at noFence
      rw [fencedLines, fencedFrom, noFence.1]
      exact ih noFence.2

/-! ## Slides and their sources -/

/-- The texts of a slide come from the lines, and its code from the code in them. -/
structure Sourced (ls : List Text) (slide : Slide) : Prop where
  title : slide.title = [] ∨ ∃ line ∈ ls, slide.title ⊆ line
  content : slide.content ⊆ ls
  notes : ∀ note ∈ slide.notes, ∃ line ∈ ls, note ⊆ line
  code : fencedLines slide.content ⊆ fencedLines ls

/-- More lines do no harm. -/
theorem Sourced.concat {ls : List Text} {slide : Slide} (sourced : Sourced ls slide) (line : Text) :
    Sourced (ls ++ [line]) slide where
  title := sourced.title.imp_right fun ⟨source, member, part⟩ =>
    ⟨source, List.mem_append_left _ member, part⟩
  content := List.subset_append_of_subset_left _ sourced.content
  notes note member := by
    obtain ⟨source, found, part⟩ := sourced.notes note member
    exact ⟨source, List.mem_append_left _ found, part⟩
  code := by
    rw [fencedLines, fencedLines, fencedFrom_concat]
    exact List.subset_append_of_subset_left _ sourced.code

/-- The slides read so far come from the lines read so far, and their fences agree. -/
structure Traced (ls : List Text) (reading : Reading) : Prop where
  slides : ∀ slide ∈ reading.slides, Sourced ls slide
  current : ∀ slide, reading.current = some slide → Sourced ls slide
  /-- While lines go to the content, the same fence is open there. -/
  content : ∀ slide, reading.current = some slide → reading.part = .content →
    insideBehind false slide.content = insideBehind false ls
  /-- While they go to the notes, the content has no open fence. -/
  notes : ∀ slide, reading.current = some slide → reading.part = .notes →
    insideBehind false slide.content = false

/-! ## The texts of a line -/

/-- The text that the role of a line carries. -/
def Role.text : Role → Text
  | .notes text => text
  | .slideTitle title => title
  | .documentTitle title => title
  | .slideBreak | .plain => []

theorem subset_of_skip? {literal s rest : Text} (found : skip? literal s = some rest) :
    rest ⊆ s := by
  rw [skip?_eq_some_iff.mp found]
  exact List.subset_append_right _ _

theorem trim_subset {s t : Text} (part : s ⊆ t) : trim s ⊆ t := fun _ member =>
  part (mem_of_mem_trim member)

theorem Role.text_subset (line : Text) : (Role.of line).text ⊆ line := by
  have leading : trimStart line ⊆ line := (trimStart_isSuffix line).subset
  rw [Role.of]
  split
  · exact List.nil_subset _
  · split
    · next text found =>
        have part : text ⊆ trimStart line := by
          rcases Option.or_eq_some_iff.mp found with found | ⟨-, found⟩
          · exact subset_of_skip? found
          · exact subset_of_skip? found
        exact trim_subset (List.Subset.trans part leading)
    · split
      · next title found => exact trim_subset (List.Subset.trans (subset_of_skip? found) leading)
      · split
        · next title found => exact trim_subset (List.Subset.trans (subset_of_skip? found) leading)
        · exact List.nil_subset _

/-! ## One line -/

section Step

variable {ls : List Text} {reading : Reading} {line : Text} {slide : Slide}

/-- A line that goes to the content is code there exactly when it is code in the source. -/
theorem Sourced.pushContent (sourced : Sourced ls slide)
    (agrees : insideBehind false slide.content = insideBehind false ls) :
    Sourced (ls ++ [line]) { slide with content := slide.content ++ [line] } where
  title := (sourced.concat line).title
  content := List.append_subset.mpr
    ⟨(sourced.concat line).content, List.subset_append_right ls [line]⟩
  notes := (sourced.concat line).notes
  code := by
    rw [fencedLines, fencedLines, fencedFrom_concat, fencedFrom_concat, agrees]
    exact List.append_subset.mpr
      ⟨List.subset_append_of_subset_left _ sourced.code, List.subset_append_right _ _⟩

theorem Sourced.pushNote (sourced : Sourced ls slide) {note : Text} (part : note ⊆ line) :
    Sourced (ls ++ [line]) { slide with notes := slide.notes ++ [note] } where
  title := (sourced.concat line).title
  content := (sourced.concat line).content
  notes other member := by
    rcases List.mem_append.mp member with member | member
    · exact (sourced.concat line).notes other member
    · rw [List.mem_singleton.mp member]
      exact ⟨line, List.mem_append_right _ (List.mem_singleton_self line), part⟩
  code := (sourced.concat line).code

namespace Traced

theorem initial (metadata : Entries) : Traced [] { metadata } where
  slides := by simp
  current := by simp
  content := by simp
  notes := by simp

theorem mem_slides_close (member : slide ∈ reading.close.slides) :
    slide ∈ reading.slides ∨ reading.current = some slide := by
  rw [Reading.close] at member
  cases current : reading.current with
  | none =>
      rw [current] at member
      exact .inl member
  | some last =>
      simp only [current] at member
      split at member
      · exact .inl member
      · rcases List.mem_append.mp member with member | member
        · exact .inl member
        · exact .inr (congrArg some (List.mem_singleton.mp member).symm)

/-- The slides that are complete when the current one is. -/
theorem close (traced : Traced ls reading) : ∀ slide ∈ reading.close.slides, Sourced ls slide := by
  intro slide member
  rcases mem_slides_close member with member | same
  · exact traced.slides slide member
  · exact traced.current slide same

/-- A line is added to the current slide. -/
theorem push (traced : Traced ls reading) (line : Text) :
    Traced (ls ++ [line]) (reading.push line) := by
  have slides : ∀ slide ∈ reading.slides, Sourced (ls ++ [line]) slide :=
    fun slide member => (traced.slides slide member).concat line
  cases current : reading.current with
  | none =>
      have same : reading.push line = reading := by simp [Reading.push, current]
      rw [same]
      exact ⟨slides, by simp [current], by simp [current], by simp [current]⟩
  | some slide =>
      have sourced := traced.current slide current
      cases part : reading.part with
      | content =>
          have agrees := traced.content slide current part
          have pushed : reading.push line =
              { reading with current := some { slide with content :=
                slide.content ++ [line] } } := by
            simp [Reading.push, current, part]
          rw [pushed]
          refine ⟨slides, fun _ same => ?_, fun _ same _ => ?_, fun _ _ notes => ?_⟩
          · cases same
            exact sourced.pushContent agrees
          · cases same
            rw [insideBehind_concat, insideBehind_concat, agrees]
          · exact absurd (part.symm.trans notes) (by decide)
      | notes =>
          have pushed : reading.push line =
              { reading with current := some { slide with notes := slide.notes ++ [line] } } := by
            simp [Reading.push, current, part]
          rw [pushed]
          refine ⟨slides, fun _ same => ?_, fun _ _ content => ?_, fun _ same _ => ?_⟩
          · cases same
            exact sourced.pushNote (List.Subset.refl line)
          · exact absurd (part.symm.trans content) (by decide)
          · cases same
            exact traced.notes slide current part

/-- A slide begins. -/
theorem start (traced : Traced ls reading) (outside : insideBehind false (ls ++ [line]) = false)
    {title : Text} (part : title ⊆ line) : Traced (ls ++ [line]) (reading.start { title }) where
  slides slide member := (traced.close slide member).concat line
  current slide same := by
    cases same
    refine ⟨.inr ⟨line, List.mem_append_right _ (List.mem_singleton_self line), part⟩, ?_, ?_, ?_⟩
    · exact List.nil_subset _
    · simp
    · exact List.nil_subset _
  content slide same _ := by
    cases same
    rw [outside]
    rfl
  notes slide _ part := by cases part

/-- Lines turn to the notes of the current slide. No fence is open in its content, wherever
lines went before. -/
theorem startNotes (traced : Traced ls reading) (before : insideBehind false ls = false)
    {text : Text} (part : text ⊆ line) : Traced (ls ++ [line]) (reading.startNotes text) := by
  have slides : ∀ slide ∈ reading.slides, Sourced (ls ++ [line]) slide :=
    fun slide member => (traced.slides slide member).concat line
  cases current : reading.current with
  | none =>
      have same : reading.startNotes text = reading := by simp [Reading.startNotes, current]
      rw [same]
      exact ⟨slides, by simp [current], by simp [current], by simp [current]⟩
  | some slide =>
      have sourced := traced.current slide current
      have closed : insideBehind false slide.content = false := by
        cases lines : reading.part with
        | content => rw [traced.content slide current lines, before]
        | notes => exact traced.notes slide current lines
      have turned : ∃ notes, Sourced (ls ++ [line]) { slide with notes } ∧
          reading.startNotes text =
            { reading with part := .notes, current := some { slide with notes } } := by
        by_cases empty : text.isEmpty
        · exact ⟨slide.notes, sourced.concat line, by simp [Reading.startNotes, current, empty]⟩
        · exact ⟨slide.notes ++ [text], sourced.pushNote part,
            by simp [Reading.startNotes, Reading.push, current, empty]⟩
      obtain ⟨notes, sourcedNotes, same⟩ := turned
      rw [same]
      refine ⟨slides, fun _ same => ?_, fun _ _ content => ?_, fun _ same _ => ?_⟩
      · cases same
        exact sourcedNotes
      · cases content
      · cases same
        exact closed

/-- A line that is no fence and outside of code plays its role. -/
theorem play (traced : Traced ls reading) (before : insideBehind false ls = false)
    (noFence : isFence line = false) :
    Traced (ls ++ [line]) (reading.play line (Role.of line)) := by
  have outside : insideBehind false (ls ++ [line]) = false := by
    simp [insideBehind_concat, insideAfter, noFence, before]
  have part := Role.text_subset line
  cases role : Role.of line with
  | slideBreak => exact traced.start outside (List.nil_subset line)
  | notes text =>
      rw [role] at part
      exact traced.startNotes before part
  | slideTitle title =>
      rw [role] at part
      exact traced.start outside part
  | documentTitle title =>
      have kept : Traced (ls ++ [line]) reading :=
        ⟨fun slide member => (traced.slides slide member).concat line,
          fun slide same => (traced.current slide same).concat line,
          fun slide same lines => by rw [traced.content slide same lines, before, outside],
          traced.notes⟩
      rw [Reading.play, Reading.setTitle]
      split
      · exact kept
      · exact ⟨kept.slides, kept.current, kept.content, kept.notes⟩
  | plain => exact traced.push line

/-- **One line keeps the fences in step.** -/
theorem step (traced : Traced ls reading) (inside : reading.insideCode = insideBehind false ls)
    (line : Text) :
    Traced (ls ++ [line]) (reading.step line) ∧
      (reading.step line).insideCode = insideBehind false (ls ++ [line]) := by
  have next : insideAfter reading.insideCode line = insideBehind false (ls ++ [line]) := by
    rw [insideBehind_concat, inside]
  rw [Reading.step]
  split
  · have pushed := traced.push line
    exact ⟨⟨pushed.slides, pushed.current, pushed.content, pushed.notes⟩, next⟩
  · next outside =>
      simp only [Bool.or_eq_true, not_or, Bool.not_eq_true] at outside
      have played := traced.play (inside.symm.trans outside.2) outside.1
      exact ⟨⟨played.slides, played.current, played.content, played.notes⟩, next⟩

/-- **The fences agree through a whole source.** -/
theorem run (traced : Traced ls reading) (inside : reading.insideCode = insideBehind false ls)
    (rest : List Text) : Traced (ls ++ rest) (reading.run rest) := by
  induction rest generalizing ls reading with
  | nil => simpa [Reading.run] using traced
  | cons line rest ih =>
      obtain ⟨stepped, next⟩ := traced.step inside line
      have later := ih stepped next
      rwa [List.append_assoc, List.singleton_append] at later

end Traced

end Step

/-- The slides of a presentation come from the lines behind its metadata block, and what is
code on them is code in the source. -/
theorem sourced_of_mem_read {source : Text} {slide : Slide}
    (member : slide ∈ (Presentation.read source).slides) :
    Sourced (Sections.ofLines (lines source)).body slide := by
  have initial := Traced.initial (readMetadata (Sections.ofLines (lines source)).metadata)
  exact (initial.run rfl (Sections.ofLines (lines source)).body).close slide member

end SlideDeck.Markdown
