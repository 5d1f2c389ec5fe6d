import Mathlib.Algebra.Group.Nat.Even
import Mathlib.Data.List.Forall2
import SlideDeck.Proofs.Markdown.Fences

/-!
# How the slides of a source are read

A presentation does not say how its lines were read. The *trace* of a source does
(`Presentation.traces`): it follows the reader from line to line and notes for each line of the
content of a slide whether the reader was inside code before it and behind it, and for each
line of the notes whether it is a line of the source or the text behind a marker.

Reading the content of a slide on its own, from its first line on and outside of code, leads
through the same states (`traces_follow`). For that the reader has to be outside of code where
a slide begins and where its notes begin, and so it leaves each slide but the last one outside
of code, too.
-/

set_option autoImplicit false

namespace SlideDeck.Markdown

open SlideDeck SlideDeck.Text

/-! ## Traces -/

/-- A line with whether code is open before it and behind it. -/
structure Passage where
  line : Text
  before : Bool
  behind : Bool
  deriving DecidableEq, Repr

/-- A line of the notes: a line of the source as it is, or the text behind a marker. -/
structure NoteLine where
  text : Text
  whole : Bool
  deriving DecidableEq, Repr

/-- How the lines of a slide were read. -/
structure SlideTrace where
  content : List Passage := []
  notes : List NoteLine := []
  deriving DecidableEq, Repr

/-- The lines of the source in the notes. -/
def SlideTrace.noteLines (trace : SlideTrace) : List Text :=
  (trace.notes.filter NoteLine.whole).map NoteLine.text

/-- How the complete slides were read, and the current one so far. -/
structure Trace where
  slides : List SlideTrace := []
  current : SlideTrace := {}
  deriving DecidableEq, Repr

namespace Trace

/-- A line goes to the current slide. -/
def push (trace : Trace) (reading : Reading) (line : Text) : Trace :=
  if reading.current.isNone then trace
  else
    let current := trace.current
    match reading.part with
    | .content =>
      let passage := ⟨line, reading.insideCode, (reading.step line).insideCode⟩
      { trace with current := { current with content := current.content ++ [passage] } }
    | .notes => { trace with current := { current with notes := current.notes ++ [⟨line, true⟩] } }

/-- The text behind a marker goes to the notes. -/
def startNotes (trace : Trace) (reading : Reading) (text : Text) : Trace :=
  if reading.current.isNone || text.isEmpty then trace
  else
    let current := trace.current
    { trace with current := { current with notes := current.notes ++ [⟨text, false⟩] } }

/-- The slides that are complete when the current one is. -/
def close (trace : Trace) (reading : Reading) : List SlideTrace :=
  match reading.current with
  | some slide => if slide.isBlank then trace.slides else trace.slides ++ [trace.current]
  | none => trace.slides

/-- A line outside of code does what its role says. -/
def play (trace : Trace) (reading : Reading) (line : Text) : Role → Trace
  | .slideBreak | .slideTitle _ => { slides := trace.close reading }
  | .notes text => trace.startNotes reading text
  | .documentTitle _ => trace
  | .plain => trace.push reading line

/-- The reader reads a line. -/
def step (trace : Trace) (reading : Reading) (line : Text) : Trace :=
  if isFence line || reading.insideCode then trace.push reading line
  else trace.play reading line (Role.of line)

/-- The reader reads lines up to the end of the source. -/
def run (trace : Trace) (reading : Reading) : List Text → List SlideTrace
  | [] => trace.close reading
  | line :: rest => run (trace.step reading line) (reading.step line) rest

end Trace

/-- How the slides of a source are read. -/
def Presentation.traces (source : Text) : List SlideTrace :=
  let sections := Sections.ofLines (lines source)
  Trace.run {} { metadata := readMetadata sections.metadata } sections.body

@[simp] theorem Reading.insideCode_step (reading : Reading) (line : Text) :
    (reading.step line).insideCode = insideAfter reading.insideCode line := rfl

/-! ## Lines read on their own -/

/-- The states that lines lead through when code is open before them or not. -/
def passages (inside : Bool) : List Text → List Passage
  | [] => []
  | line :: rest =>
    ⟨line, inside, insideAfter inside line⟩ :: passages (insideAfter inside line) rest

theorem passages_concat (inside : Bool) (ls : List Text) (line : Text) :
    passages inside (ls ++ [line]) = passages inside ls ++
      [⟨line, insideBehind inside ls, insideBehind inside (ls ++ [line])⟩] := by
  induction ls generalizing inside with
  | nil => rfl
  | cons first ls ih => exact congrArg (_ :: ·) (ih _)

/-- The number of fences tells whether code is open behind the lines. -/
theorem insideBehind_iff {inside : Bool} {ls : List Text} :
    insideBehind inside ls = inside ↔ Even (ls.countP isFence) := by
  induction ls generalizing inside with
  | nil => simp [insideBehind]
  | cons line ls ih =>
      have behind : insideBehind inside (line :: ls) = insideBehind (insideAfter inside line) ls :=
        rfl
      cases fence : isFence line with
      | false => simp [behind, insideAfter, fence, ih]
      | true =>
          have next : insideAfter inside line = !inside := by simp [insideAfter, fence]
          have rest : insideBehind (!inside) ls = !inside ↔ Even (ls.countP isFence) := ih
          rw [behind, next, List.countP_cons_of_pos fence, Nat.even_add_one, ← rest]
          cases insideBehind (!inside) ls <;> cases inside <;> decide

/-! ## The current slide -/

/-- A slide is read as its lines are on their own. While lines go to a part of it, code is open
there just if it is for the reader, and in the other part none is open. -/
structure Follows (trace : SlideTrace) (slide : Slide) (part : Part) (inside : Bool) : Prop where
  content : trace.content = passages false slide.content
  notes : trace.notes.map NoteLine.text = slide.notes
  openContent : insideBehind false slide.content = (decide (part = .content) && inside)
  openNotes : insideBehind false trace.noteLines = (decide (part = .notes) && inside)

namespace Follows

variable {trace : SlideTrace} {slide : Slide} {part : Part} {inside : Bool}

theorem empty (title : Text) (part : Part) : Follows {} { title } part false where
  content := rfl
  notes := rfl
  openContent := by simp [insideBehind]
  openNotes := by simp [insideBehind, SlideTrace.noteLines]

/-- Outside of code, lines can go to either part. -/
theorem turn (follows : Follows trace slide part false) (other : Part) :
    Follows trace slide other false where
  content := follows.content
  notes := follows.notes
  openContent := by simpa using follows.openContent
  openNotes := by simpa using follows.openNotes

theorem pushContent (follows : Follows trace slide .content inside) (line : Text) :
    Follows { trace with content := trace.content ++ [⟨line, inside, insideAfter inside line⟩] }
      { slide with content := slide.content ++ [line] } .content (insideAfter inside line) where
  content := by
    have before : insideBehind false slide.content = inside := by simpa using follows.openContent
    rw [passages_concat, insideBehind_concat, before, follows.content]
  notes := follows.notes
  openContent := by simp [insideBehind_concat, follows.openContent]
  openNotes := by
    have kept : insideBehind false trace.noteLines = false := by simpa using follows.openNotes
    exact kept.trans (by simp)

theorem pushNotes (follows : Follows trace slide .notes inside) (line : Text) :
    Follows { trace with notes := trace.notes ++ [⟨line, true⟩] }
      { slide with notes := slide.notes ++ [line] } .notes (insideAfter inside line) where
  content := follows.content
  notes := by simp [follows.notes]
  openContent := by simpa using follows.openContent
  openNotes := by
    have same : SlideTrace.noteLines { trace with notes := trace.notes ++ [⟨line, true⟩] } =
        trace.noteLines ++ [line] := by
      simp [SlideTrace.noteLines, List.filter_append]
    simp [same, insideBehind_concat, follows.openNotes]

/-- The text behind a marker is no fence for the reader, whatever it is. -/
theorem pushText (follows : Follows trace slide .notes inside) (text : Text) :
    Follows { trace with notes := trace.notes ++ [⟨text, false⟩] }
      { slide with notes := slide.notes ++ [text] } .notes inside where
  content := follows.content
  notes := by simp [follows.notes]
  openContent := follows.openContent
  openNotes := by
    have same : SlideTrace.noteLines { trace with notes := trace.notes ++ [⟨text, false⟩] } =
        trace.noteLines := by
      simp [SlideTrace.noteLines, List.filter_append]
    rw [same, follows.openNotes]

end Follows

/-! ## One line -/

/-- The complete slides are read as their lines are on their own and leave the reader outside
of code. The current one follows the reader. -/
structure InStep (trace : Trace) (reading : Reading) : Prop where
  slides : List.Forall₂ (fun t slide => Follows t slide .content false) trace.slides reading.slides
  current : ∀ slide, reading.current = some slide →
    Follows trace.current slide reading.part reading.insideCode

namespace InStep

variable {trace : Trace} {reading : Reading}

theorem initial (metadata : Entries) : InStep {} { metadata } where
  slides := .nil
  current slide same := by cases same

theorem push (inStep : InStep trace reading) (line : Text) :
    InStep (trace.push reading line)
      { reading.push line with insideCode := insideAfter reading.insideCode line } := by
  cases current : reading.current with
  | none =>
      refine ⟨?_, fun slide same => ?_⟩
      · simpa [Trace.push, Reading.push, current] using inStep.slides
      · simp [Reading.push, current] at same
  | some slide =>
      have follows := inStep.current slide current
      cases part : reading.part with
      | content =>
          rw [part] at follows
          refine ⟨?_, fun other same => ?_⟩
          · simpa [Trace.push, Reading.push, current, part] using inStep.slides
          · simp only [Reading.push, current, part, Option.some.injEq] at same
            subst same
            simpa [Trace.push, Reading.push, current, part] using follows.pushContent line
      | notes =>
          rw [part] at follows
          refine ⟨?_, fun other same => ?_⟩
          · simpa [Trace.push, Reading.push, current, part] using inStep.slides
          · simp only [Reading.push, current, part, Option.some.injEq] at same
            subst same
            simpa [Trace.push, Reading.push, current, part] using follows.pushNotes line

/-- Where the current slide is complete, it is read like the others, but for code that may be
open on it. -/
theorem close_cases (inStep : InStep trace reading) :
    (trace.close reading = trace.slides ∧ reading.close.slides = reading.slides) ∨
      ∃ slide, Follows trace.current slide reading.part reading.insideCode ∧
        trace.close reading = trace.slides ++ [trace.current] ∧
        reading.close.slides = reading.slides ++ [slide] := by
  cases current : reading.current with
  | none => exact .inl (by simp [Trace.close, Reading.close, current])
  | some slide =>
      cases blank : slide.isBlank with
      | true => exact .inl (by simp [Trace.close, Reading.close, current, blank])
      | false =>
          refine .inr ⟨slide, inStep.current slide current, ?_⟩
          simp [Trace.close, Reading.close, current, blank]

/-- Outside of code, a slide begins. -/
theorem start (inStep : InStep trace reading) (outside : reading.insideCode = false)
    (title : Text) :
    InStep { slides := trace.close reading }
      { reading.start { title } with insideCode := false } where
  slides := by
    rcases inStep.close_cases with ⟨kept, same⟩ | ⟨slide, follows, added, same⟩
    · have slides := inStep.slides
      rwa [← kept, ← same] at slides
    · rw [outside] at follows
      have slides : List.Forall₂ (fun t slide => Follows t slide .content false)
          (trace.slides ++ [trace.current]) (reading.slides ++ [slide]) :=
        List.rel_append inStep.slides (.cons (follows.turn .content) .nil)
      rwa [← added, ← same] at slides
  current slide same := by
    cases same
    exact .empty title _

/-- Outside of code, lines turn to the notes. -/
theorem startNotes (inStep : InStep trace reading) (outside : reading.insideCode = false)
    (text : Text) :
    InStep (trace.startNotes reading text)
      { reading.startNotes text with insideCode := false } := by
  cases current : reading.current with
  | none =>
      refine ⟨?_, fun slide same => ?_⟩
      · simpa [Trace.startNotes, Reading.startNotes, current] using inStep.slides
      · simp [Reading.startNotes, current] at same
  | some slide =>
      have follows := inStep.current slide current
      rw [outside] at follows
      have turned := follows.turn .notes
      cases empty : text.isEmpty with
      | true =>
          refine ⟨?_, fun other same => ?_⟩
          · simpa [Trace.startNotes, Reading.startNotes, current, empty] using inStep.slides
          · simp only [Reading.startNotes, current, empty, Option.isNone_some, if_true,
              Bool.false_eq_true, if_false, Option.some.injEq] at same
            subst same
            simpa [Trace.startNotes, Reading.startNotes, current, empty] using turned
      | false =>
          refine ⟨?_, fun other same => ?_⟩
          · simpa [Trace.startNotes, Reading.startNotes, Reading.push, current, empty] using
              inStep.slides
          · simp only [Reading.startNotes, Reading.push, current, empty, Option.isNone_some,
              Bool.false_eq_true, if_false, Option.some.injEq] at same
            subst same
            simpa [Trace.startNotes, Reading.startNotes, Reading.push, current, empty] using
              turned.pushText text

/-- A line outside of code that is no fence leaves the reader outside. -/
theorem play (inStep : InStep trace reading) (outside : reading.insideCode = false) {line : Text}
    (noFence : isFence line = false) :
    InStep (trace.play reading line (Role.of line))
      { reading.play line (Role.of line) with insideCode := false } := by
  have after : insideAfter reading.insideCode line = false := by
    simp [insideAfter, noFence, outside]
  cases Role.of line with
  | slideBreak => exact inStep.start outside []
  | slideTitle title => exact inStep.start outside title
  | notes text => exact inStep.startNotes outside text
  | documentTitle title =>
      have current := inStep.current
      rw [outside] at current
      rw [Reading.play, Reading.setTitle]
      split
      · exact ⟨inStep.slides, current⟩
      · exact ⟨inStep.slides, current⟩
  | plain =>
      have pushed := inStep.push line
      rwa [after] at pushed

/-- **One line.** The trace stays in step with the reader. -/
theorem step (inStep : InStep trace reading) (line : Text) :
    InStep (trace.step reading line) (reading.step line) := by
  rw [Trace.step, Reading.step]
  cases raw : isFence line || reading.insideCode with
  | true => exact inStep.push line
  | false =>
      rw [Bool.or_eq_false_iff] at raw
      have played := inStep.play raw.2 raw.1
      have after : insideAfter reading.insideCode line = false := by
        simp [insideAfter, raw]
      rw [after]
      exact played

/-- **All lines.** Every slide is read as its lines are on their own, and all but the last leave
the reader outside of code. -/
theorem run (inStep : InStep trace reading) (ls : List Text) :
    List.Forall₂ (fun t slide => ∃ part inside, Follows t slide part inside)
        (trace.run reading ls) (reading.run ls).finish.slides ∧
      List.Forall₂ (fun t slide => Follows t slide .content false)
        (trace.run reading ls).dropLast (reading.run ls).finish.slides.dropLast := by
  induction ls generalizing trace reading with
  | cons line ls ih => exact ih (inStep.step line)
  | nil =>
      have complete : List.Forall₂ (fun t slide => ∃ part inside, Follows t slide part inside)
          trace.slides reading.slides :=
        inStep.slides.imp fun _ _ follows => ⟨_, _, follows⟩
      have unfinished : (Reading.run reading []).finish.slides = reading.close.slides := rfl
      rw [unfinished, Trace.run]
      rcases inStep.close_cases with ⟨kept, same⟩ | ⟨slide, follows, added, same⟩
      · rw [kept, same]
        refine ⟨complete, ?_⟩
        rw [List.dropLast_eq_take, List.dropLast_eq_take, inStep.slides.length_eq]
        exact List.forall₂_take _ inStep.slides
      · rw [added, same, List.dropLast_concat, List.dropLast_concat]
        exact ⟨List.rel_append complete (.cons ⟨_, _, follows⟩ .nil), inStep.slides⟩

end InStep

/-- The slides of a source are read as their lines are on their own, and all but the last leave
the reader outside of code. -/
theorem traces_follow (source : Text) :
    List.Forall₂ (fun t slide => ∃ part inside, Follows t slide part inside)
        (Presentation.traces source) (Presentation.read source).slides ∧
      List.Forall₂ (fun t slide => Follows t slide .content false)
        (Presentation.traces source).dropLast (Presentation.read source).slides.dropLast :=
  (InStep.initial _).run _

end SlideDeck.Markdown
