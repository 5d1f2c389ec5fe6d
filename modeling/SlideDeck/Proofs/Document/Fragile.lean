import SlideDeck.Proofs.Slide.Listing
import SlideDeck.Proofs.Document.Parts

/-!
# Fragile frames

The frame of a slide that holds a listing needs the option `fragile`. Whether it gets the option is
read off the body that has been written for it, by a search for the command that begins a listing. A
body has that command just if its content has fenced code that becomes a listing
(`Slide.begins_listing_iff_exists_fenced`), so the frame is fragile for that reason and no other,
whatever text the slide has besides (`isFragile_iff`).
-/

set_option autoImplicit false

namespace SlideDeck.Document

open SlideDeck.Text SlideDeck.Latex SlideDeck.Markdown

/-- In the document of the presentation, the frame of the slide at the index has the option
`fragile`. -/
def IsFragile (presentation : Presentation) (options : Options)
    (i : Fin presentation.slides.length) : Prop :=
  terminated (opening (settings presentation.metadata options) presentation.hasNotes ++
    titleFrame ++ (presentation.slides.take i).flatMap frame) ++
      "\\begin\x7bframe\x7d[fragile]".toList <+:
    render presentation options

/-- In front of the frame of a slide stand the opening and the frames of the slides before. -/
theorem exists_from_frame (presentation : Presentation) (options : Options)
    (i : Fin presentation.slides.length) :
    ∃ rest, render presentation options =
      terminated (opening (settings presentation.metadata options) presentation.hasNotes ++
          titleFrame ++ (presentation.slides.take i).flatMap frame) ++
        (beginEnvironment "frame".toList ++ (frameArguments presentation.slides[i] ++ rest)) := by
  have cut : presentation.slides =
      presentation.slides.take i ++ presentation.slides[i] :: presentation.slides.drop (i + 1) := by
    rw [Fin.getElem_fin, List.getElem_cons_drop, List.take_append_drop]
  have frames : presentation.slides.flatMap frame = (presentation.slides.take i).flatMap frame ++
      (frame presentation.slides[i] ++ (presentation.slides.drop (i + 1)).flatMap frame) := by
    conv_lhs => rw [cut, List.flatMap_append, List.flatMap_cons]
  rw [render, frames, frame_eq]
  simp only [terminated_append, terminated_cons, List.append_assoc, List.cons_append]
  exact ⟨_, rfl⟩

/-- The arguments of a frame begin with the option just if its body begins a listing. -/
theorem fragile_isPrefix_iff (slide : Slide) (rest : Text) :
    "[fragile]".toList <+: frameArguments slide ++ rest ↔
      beginEnvironment Slide.listing <:+: Slide.body slide.content := by
  rw [frameArguments, fragileOption, ← includes_iff]
  split
  · next holds =>
      rw [List.append_assoc]
      exact iff_of_true (List.prefix_append _ _) holds
  · next noListing =>
      refine iff_of_false (fun begins => ?_) noListing
      have opens : '[' = '\x7b' := (List.cons_prefix_cons.mp begins).1
      exact absurd opens (by decide)

/-- **A frame is fragile exactly when it must be.** The frame of a slide has the option just if the
content of the slide has fenced code with a line that is not blank, under a tag other than that of
diagrams. -/
theorem isFragile_iff (presentation : Presentation) (options : Options)
    (i : Fin presentation.slides.length) :
    IsFragile presentation options i ↔
      ∃ tag code, Slide.Fenced presentation.slides[i].content tag code ∧ tag ≠ Slide.diagramTag ∧
        ∃ line ∈ code, isBlankText line = false := by
  obtain ⟨rest, whole⟩ := exists_from_frame presentation options i
  have option : "\\begin\x7bframe\x7d[fragile]".toList =
      beginEnvironment "frame".toList ++ "[fragile]".toList := rfl
  rw [IsFragile, whole, option, List.prefix_append_right_inj, List.prefix_append_right_inj,
    fragile_isPrefix_iff, Slide.begins_listing_iff_exists_fenced]

end SlideDeck.Document
