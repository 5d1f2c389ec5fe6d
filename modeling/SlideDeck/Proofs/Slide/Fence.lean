import SlideDeck.Proofs.Markdown.Trace
import SlideDeck.Proofs.Slide.Block

/-!
# The fences of a slide

Fences are followed twice: over the whole source where it is cut into slides, and once more
from the first line of each slide where its content is written. Both come to the same
(`fences_agree`): each line of a content is code for the writer exactly if it was for the
reader, and a fence opens code for one of them where it does for the other.

So a slide on which code stays open is the last one. It is the same with the notes, if the
lines of the source are counted that went there. The text behind a marker is a line of the
notes, too, but no fence for the reader, even if it looks like one
(`fences_agree_noteText`).
-/

set_option autoImplicit false

namespace SlideDeck.Slide

open SlideDeck SlideDeck.Text SlideDeck.Markdown

/-! ## The writer -/

/-- The states that the writer of blocks leads through when `opened` is open before the
lines. -/
def writtenPassages : Opened → List Text → List Passage
  | _, [] => []
  | opened, line :: rest =>
    ⟨line, opened.isCode, (opened.step line).2.isCode⟩ :: writtenPassages (opened.step line).2 rest

/-- Whether a block is code. -/
def Block.isCode : Block → Bool
  | .code .. => true
  | _ => false

/-- Whether a block is code without an end. -/
def Block.isUnclosed : Block → Bool
  | .code _ _ closed => !closed
  | _ => false

theorem Opened.step_of_not_isCode {opened : Opened} (outside : opened.isCode = false)
    (line : Text) : opened.step line = opened.meet (LineKind.of line) := by
  cases opened with
  | code tag lines => cases outside
  | _ => rfl

/-- For the writer, too, a fence opens or closes code, and no other line does. -/
theorem Opened.isCode_step (opened : Opened) (line : Text) :
    (opened.step line).2.isCode = insideAfter opened.isCode line := by
  cases inside : opened.isCode with
  | false =>
      rw [opened.step_of_not_isCode inside, Opened.isCode_meet inside, LineKind.isFence_of]
      cases fence : isFence line <;> simp [insideAfter, fence]
  | true =>
      cases opened with
      | code tag lines =>
          rw [Opened.step, insideAfter]
          cases isFence line <;> rfl
      | _ => cases inside

theorem writtenPassages_eq (opened : Opened) (ls : List Text) :
    writtenPassages opened ls = passages opened.isCode ls := by
  induction ls generalizing opened with
  | nil => rfl
  | cons line ls ih => rw [writtenPassages, passages, ih, opened.isCode_step]

/-! ## Code without an end -/

theorem Block.isUnclosed_of_not_isCode {block : Block} (noCode : block.isCode = false) :
    block.isUnclosed = false := by
  cases block with
  | code tag lines closed => cases noCode
  | _ => rfl

theorem Opened.isCode_of_mem_blocks {opened : Opened} (outside : opened.isCode = false) :
    ∀ block ∈ opened.blocks, block.isCode = false := by
  cases opened with
  | code tag lines => cases outside
  | nothing => simp [Opened.blocks]
  | list kind items => simp [Opened.blocks, Block.isCode]
  | table rows => simp [Opened.blocks, Block.isCode]

/-- A line outside of code completes the block that was open, and others that are no code. -/
theorem Opened.mem_blocks_of_mem_meet {opened : Opened} {kind : LineKind} {block : Block}
    (member : block ∈ (opened.meet kind).1) : block ∈ opened.blocks ∨ block.isCode = false := by
  cases kind with
  | fence tag | blank => exact .inl member
  | minorHeading text | majorHeading text | quote text | paragraph text =>
      rcases List.mem_append.mp member with member | last
      · exact .inl member
      · rw [List.mem_singleton.mp last]
        exact .inr rfl
  | separator | row cells =>
      cases opened with
      | table rows => cases member
      | _ => exact .inl member
  | item kind text =>
      cases opened with
      | list openKind items =>
          rw [Opened.meet] at member
          split at member
          · cases member
          · exact .inl member
      | _ => exact .inl member

/-- Outside of code no line completes code. -/
theorem Opened.isCode_of_mem_meet {opened : Opened} (outside : opened.isCode = false)
    {kind : LineKind} {block : Block} (member : block ∈ (opened.meet kind).1) :
    block.isCode = false :=
  (Opened.mem_blocks_of_mem_meet member).elim (Opened.isCode_of_mem_blocks outside block) id

/-- No line completes code without its end. -/
theorem Opened.isUnclosed_of_mem_step (opened : Opened) {line : Text} {block : Block}
    (member : block ∈ (opened.step line).1) : block.isUnclosed = false := by
  cases inside : opened.isCode with
  | false =>
      rw [opened.step_of_not_isCode inside] at member
      exact Block.isUnclosed_of_not_isCode (Opened.isCode_of_mem_meet inside member)
  | true =>
      cases opened with
      | code tag lines =>
          rw [Opened.step] at member
          split at member
          · rw [List.mem_singleton.mp member]
            rfl
          · cases member
      | _ => cases inside

/-- Code has its end if none is open behind the lines. -/
theorem isUnclosed_of_mem_blocksFrom {opened : Opened} {ls : List Text} {block : Block}
    (outside : insideBehind opened.isCode ls = false) (member : block ∈ blocksFrom opened ls) :
    block.isUnclosed = false := by
  induction ls generalizing opened with
  | nil => exact Block.isUnclosed_of_not_isCode (Opened.isCode_of_mem_blocks outside block member)
  | cons line ls ih =>
      have rest : blocksFrom opened (line :: ls) =
          (opened.step line).1 ++ blocksFrom (opened.step line).2 ls := rfl
      rw [rest, List.mem_append] at member
      rcases member with done | later
      · exact opened.isUnclosed_of_mem_step done
      · have behind : insideBehind (opened.step line).2.isCode ls = false := by
          rw [opened.isCode_step]
          exact outside
        exact ih behind later

/-! ## Reader and writer -/

/-- The writer of a slide leads through the states in which its lines were read. -/
structure WrittenAsRead (trace : SlideTrace) (slide : Slide) : Prop where
  content : writtenPassages .nothing slide.content = trace.content
  notes : slide.notes = trace.notes.map NoteLine.text

/-- No code is left open: the fences of the content come in pairs, and so do those among the
lines of the source in the notes. -/
structure Settled (trace : SlideTrace) (slide : Slide) : Prop where
  content : Even (slide.content.countP isFence)
  notes : Even (trace.noteLines.countP isFence)
  ended : ∀ block ∈ blocksOf slide.content, block.isUnclosed = false

/-- **Reader and writer agree on what is code.** For every slide, the content as the writer
follows it is the content as it was read, line by line: each line is code for both or for none,
and a fence begins or ends code for both. Only on the last slide code can stay open. -/
theorem fences_agree (source : Text) :
    List.Forall₂ WrittenAsRead (Presentation.traces source) (Presentation.read source).slides ∧
      List.Forall₂ Settled (Presentation.traces source).dropLast
        (Presentation.read source).slides.dropLast := by
  obtain ⟨all, complete⟩ := traces_follow source
  constructor
  · refine all.imp fun trace slide => ?_
    rintro ⟨part, inside, follows⟩
    exact ⟨(writtenPassages_eq .nothing slide.content).trans follows.content.symm,
      follows.notes.symm⟩
  · refine complete.imp fun trace slide follows => ?_
    have content : insideBehind false slide.content = false := by simpa using follows.openContent
    have outside : insideBehind Opened.nothing.isCode slide.content = false := content
    have notes : insideBehind false trace.noteLines = false := by simpa using follows.openNotes
    exact ⟨insideBehind_iff.mp content, insideBehind_iff.mp notes,
      fun block member => isUnclosed_of_mem_blocksFrom outside member⟩

/-- The text behind a marker can look like a fence. -/
theorem fences_agree_noteText :
    ¬ ∀ source, ∀ slide ∈ (Presentation.read source).slides.dropLast,
      Even (slide.notes.countP isFence) := by
  intro even
  have count := even "## A\nNote: \x60\x60\x60\n## B\nx\n".toList
  revert count
  decide +kernel

end SlideDeck.Slide
