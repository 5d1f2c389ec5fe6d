import SlideDeck.Proofs.Keyed
import SlideDeck.Proofs.Markdown.Title
import SlideDeck.Proofs.Text.Lines

/-!
# Sources one behind the other

A heading of a slide begins anew: nothing of the slide in front of it is left, neither its lines nor
the notes to which lines went. So a source that begins with such a heading is read behind another
one as it is read alone (`read_append`), if the first one leaves the reader outside of its metadata
block and outside of code. Only its title may get lost, because the presentation has one already.

The reader does not look at the slides that are complete. Putting a presentation in front of what it
has read (`Reading.behind`) therefore goes together with each of its steps (`step_behind`), and with
a whole run (`run_behind`).
-/

set_option autoImplicit false

namespace SlideDeck

open SlideDeck.Text

namespace Text

theorem lines_append {s : Text} (ended : s = [] ∨ s.getLast? = some '\n') (t : Text) :
    lines (s ++ t) = lines s ++ lines t := by
  rcases ended with rfl | ended
  · rfl
  · obtain ⟨front, rfl⟩ := List.getLast?_eq_some_iff.mp ended
    have whole : front ++ ['\n'] ++ t = front ++ '\n' :: t := by simp
    rw [whole, lines, lines, splitAt_append_cons, splitAt_append_cons,
      linesOfPieces_append _ (splitAt_ne_nil '\n' t),
      linesOfPieces_append _ (splitAt_ne_nil '\n' [])]
    simp [lines, splitAt, linesOfPieces]

end Text

namespace Markdown

/-! ## What stands at the two ends -/

/-- The first line of the source begins a slide with a title. -/
def beginsSlide (source : Text) : Bool :=
  (lines source).head?.any fun line => startsWith "## ".toList (trimStart line)

/-- The reader behind the last line of a source. -/
def lastReading (source : Text) : Reading :=
  let sections := Sections.ofLines (lines source)
  Reading.run { metadata := readMetadata sections.metadata } sections.body

/-- Behind the last line of the source, the reader is outside of the metadata block and outside
of code. -/
def endsOutside (source : Text) : Bool :=
  !(Sections.ofLines (lines source)).unclosed && !(lastReading source).insideCode

/-- A line that begins a slide with a title does nothing else. -/
theorem role_of_beginsSlide {line : Text} (begins : "## ".toList <+: trimStart line) :
    isFence line = false ∧ isBreak line = false ∧
      ∃ title, Role.of line = .slideTitle title := by
  obtain ⟨text, whole⟩ := begins
  have first : ['#'] <+: trimStart line := by
    rw [← whole]
    exact ⟨"# ".toList ++ text, rfl⟩
  have noBreak : isBreak line = false := isBreak_of_isPrefix first (by decide)
  have noFence : isFence line = false := by
    rw [Bool.eq_false_iff]
    intro fence
    obtain ⟨rest, same⟩ := first
    have other := backtick_of_isFence fence
    rw [← same] at other
    exact absurd (List.cons_prefix_cons.mp other).1 (by decide)
  have noNotes : notesText? (trimStart line) = none := notesText?_of_isPrefix first (by decide)
  have slide : skip? "## ".toList (trimStart line) = some text := skip?_eq_some_iff.mpr whole.symm
  refine ⟨noFence, noBreak, trim text, ?_⟩
  simp only [Role.of, noBreak, noNotes, slide]
  rfl

/-- Lines behind a closed metadata block belong to the body. -/
theorem ofBlock_append {block : List Text} (closed : (Sections.ofBlock block).unclosed = false)
    (ls : List Text) :
    Sections.ofBlock (block ++ ls) =
      { Sections.ofBlock block with body := (Sections.ofBlock block).body ++ ls } := by
  induction block with
  | nil => cases closed
  | cons line block ih =>
      rw [List.cons_append, Sections.ofBlock, Sections.ofBlock]
      rw [Sections.ofBlock] at closed
      split
      · rfl
      · next goesOn =>
          rw [if_neg goesOn] at closed
          rw [ih closed]

theorem ofLines_append {front : List Text} (closed : (Sections.ofLines front).unclosed = false)
    {line : Text} (noBreak : isBreak line = false) (ls : List Text) :
    Sections.ofLines (front ++ line :: ls) =
      { Sections.ofLines front with body := (Sections.ofLines front).body ++ line :: ls } := by
  cases front with
  | nil => simp [Sections.ofLines, noBreak]
  | cons first front =>
      rw [List.cons_append, Sections.ofLines, Sections.ofLines]
      rw [Sections.ofLines] at closed
      split
      · next breaks =>
          rw [if_pos breaks] at closed
          exact ofBlock_append closed _
      · rfl

/-! ## Reading behind a presentation -/

/-- The metadata of a presentation with the title of another one behind it. -/
def titledBy (metadata later : Entries) : Entries :=
  if metadata.hasKey titleKey then metadata else metadata ++ later

/-- It makes no difference whether a title is given to the whole or to what stands behind. -/
theorem withTitle_titledBy (metadata later : Entries) (title : Text) :
    withTitle (titledBy metadata later) (some title) =
      titledBy metadata (withTitle later (some title)) := by
  cases found : metadata.get? titleKey with
  | some value => simp [withTitle, titledBy, Keyed.hasKey, found]
  | none =>
      have whole : (metadata ++ later).get? titleKey = later.get? titleKey := by
        rw [Keyed.get?_append, found, Option.none_or]
      cases behind : later.get? titleKey with
      | some value => simp [withTitle, titledBy, Keyed.hasKey, found, whole, behind]
      | none =>
          have absent := whole.trans behind
          simp [withTitle, titledBy, Keyed.hasKey, found, absent, behind,
            Keyed.put_of_get?_eq_none absent, Keyed.put_of_get?_eq_none behind]

namespace Reading

/-- A reading with a presentation in front of it. -/
def behind (earlier : Presentation) (r : Reading) : Reading :=
  { r with
    metadata := titledBy earlier.metadata r.metadata
    slides := earlier.slides ++ r.slides }

variable (earlier : Presentation) (r : Reading)

theorem close_behind : (r.behind earlier).close = r.close.behind earlier := by
  cases current : r.current with
  | none => simp [close, behind, current]
  | some slide => cases blank : slide.isBlank <;> simp [close, behind, current, blank]

theorem start_behind (slide : Slide) :
    (r.behind earlier).start slide = (r.start slide).behind earlier := by
  rw [start, start, close_behind]
  rfl

theorem push_behind (line : Text) :
    (r.behind earlier).push line = (r.push line).behind earlier := by
  cases current : r.current with
  | none => simp [push, behind, current]
  | some slide => simp [push, behind, current]

theorem startNotes_behind (text : Text) :
    (r.behind earlier).startNotes text = (r.startNotes text).behind earlier := by
  have turned := push_behind earlier { r with part := .notes } text
  rw [startNotes, startNotes]
  cases outside : r.current.isNone with
  | true => simp [behind, outside]
  | false =>
      cases empty : text.isEmpty with
      | true => simp [behind, outside]
      | false => simpa [behind, outside] using turned

theorem setTitle_behind (title : Text) :
    (r.behind earlier).setTitle title = (r.setTitle title).behind earlier := by
  have same := withTitle_titledBy earlier.metadata r.metadata title
  rw [setTitle_eq, setTitle_eq]
  simp only [behind, same]

/-- Each role goes together with a presentation in front. -/
theorem play_behind (line : Text) (role : Role) :
    (r.behind earlier).play line role = (r.play line role).behind earlier := by
  cases role with
  | slideBreak => exact start_behind earlier r _
  | notes text => exact startNotes_behind earlier r text
  | slideTitle title => exact start_behind earlier r _
  | documentTitle title => exact setTitle_behind earlier r title
  | plain => exact push_behind earlier r line

/-- **One line** is read behind a presentation as it is read alone. -/
theorem step_behind (line : Text) :
    (r.behind earlier).step line = (r.step line).behind earlier := by
  have inside : (r.behind earlier).insideCode = r.insideCode := rfl
  rw [step, step, inside]
  split
  · rw [push_behind]
    rfl
  · rw [play_behind]
    rfl

/-- So is a whole text. -/
theorem run_behind (ls : List Text) :
    (r.behind earlier).run ls = (r.run ls).behind earlier := by
  induction ls generalizing r with
  | nil => rfl
  | cons line ls ih =>
      have stepped := ih (r.step line)
      rwa [← step_behind] at stepped

theorem finish_behind : (r.behind earlier).finish =
    { metadata := titledBy earlier.metadata r.finish.metadata
      slides := earlier.slides ++ r.finish.slides } := by
  rw [finish, close_behind]
  rfl

/-- Where a slide begins, nothing but the presentation so far is left of the reading. -/
theorem start_eq (slide : Slide) (outside : r.insideCode = false) :
    r.start slide = (start {} slide).behind r.finish := by
  have metadata : titledBy r.metadata [] = r.metadata := by
    rw [titledBy, List.append_nil, ite_self]
  simp only [start, close, behind, finish, metadata, List.append_nil, outside]

theorem step_of_beginsSlide {line : Text} (outside : r.insideCode = false)
    (begins : "## ".toList <+: trimStart line) :
    r.step line = (step {} line).behind r.finish := by
  obtain ⟨noFence, -, title, role⟩ := role_of_beginsSlide begins
  have alone : ∀ r : Reading, r.insideCode = false →
      r.step line = { r.start { title } with insideCode := insideAfter false line } := by
    intro r outside
    simp only [step, noFence, outside, role, play, Bool.or_self, Bool.false_eq_true, if_false]
  rw [alone r outside, alone {} rfl, start_eq r _ outside]
  rfl

end Reading

/-! ## Sources -/

theorem withTitle_nil (title : Option Text) :
    withTitle [] title = (title.map (titleKey, ·)).toList := by
  cases title <;> rfl

/-- Without a metadata block a presentation has no metadata but its title. -/
theorem metadata_read_of_metadata_eq_nil {source : Text}
    (empty : (Sections.ofLines (lines source)).metadata = []) :
    (Presentation.read source).metadata =
      (((Presentation.read source).metadata.get? titleKey).map (titleKey, ·)).toList := by
  have title :
      (Presentation.read source).metadata.get? titleKey = (titleHeadings source).head? := by
    rw [get?_title_read, keptTitle?, titleValues, empty]
    rfl
  rw [title, metadata_read, empty]
  exact withTitle_nil _

/-- **A source that begins with a slide** is read behind another one as it is read alone. -/
theorem read_append {a b : Text} (ended : a = [] ∨ a.getLast? = some '\n')
    (outside : endsOutside a = true) (begins : beginsSlide b = true) :
    (Presentation.read (a ++ b)).slides =
        (Presentation.read a).slides ++ (Presentation.read b).slides ∧
      (Presentation.read (a ++ b)).metadata =
        if (Presentation.read a).metadata.hasKey titleKey then (Presentation.read a).metadata
        else (Presentation.read a).metadata ++
          (((Presentation.read b).metadata.get? titleKey).map (titleKey, ·)).toList := by
  obtain ⟨line, rest, cut, begins⟩ : ∃ line rest, lines b = line :: rest ∧
      "## ".toList <+: trimStart line := by
    rw [beginsSlide] at begins
    cases cut : lines b with
    | nil => simp [cut] at begins
    | cons line rest => exact ⟨line, rest, rfl, startsWith_iff.mp (by simpa [cut] using begins)⟩
  obtain ⟨-, noBreak, -⟩ := role_of_beginsSlide begins
  rw [endsOutside, Bool.and_eq_true, Bool.not_eq_true', Bool.not_eq_true'] at outside
  have sectionsOf : Sections.ofLines (lines b) = ⟨[], false, line :: rest⟩ := by
    rw [cut, Sections.ofLines, noBreak]
    rfl
  have second : Presentation.read b = (Reading.run {} (line :: rest)).finish := by
    rw [Presentation.read, sectionsOf]
    rfl
  have onward : (lastReading a).run (line :: rest) =
      (Reading.run {} (line :: rest)).behind (lastReading a).finish := by
    have stepped := Reading.step_of_beginsSlide (lastReading a) outside.2 begins
    calc (lastReading a).run (line :: rest)
        = ((lastReading a).step line).run rest := rfl
      _ = ((Reading.step {} line).run rest).behind (lastReading a).finish := by
          rw [stepped, Reading.run_behind]
  have whole : Presentation.read (a ++ b) = ((lastReading a).run (line :: rest)).finish := by
    rw [Presentation.read, lines_append ended, cut, ofLines_append outside.1 noBreak,
      Presentation.ofSections, Reading.run, List.foldl_append]
    rfl
  have noBlock : (Sections.ofLines (lines b)).metadata = [] := by rw [sectionsOf]
  have named := metadata_read_of_metadata_eq_nil noBlock
  rw [← named, whole, onward, Reading.finish_behind, ← second]
  exact ⟨rfl, rfl⟩

/-- A second title is lost where a presentation goes on. -/
theorem read_append_secondTitle :
    let a := unlines ["# One".toList, "## A".toList, "Note: n".toList, []]
    let b := unlines ["## B".toList, "# Two".toList, "x".toList]
    ((a = [] ∨ a.getLast? = some '\n') ∧ endsOutside a = true ∧ beginsSlide b = true) ∧
      (Presentation.read (a ++ b)).slides =
        (Presentation.read a).slides ++ (Presentation.read b).slides ∧
      (Presentation.read (a ++ b)).metadata = [(titleKey, "One".toList)] := by
  intro a b
  have ended : a = [] ∨ a.getLast? = some '\n' := .inr (by decide +kernel)
  have outside : endsOutside a = true := by decide +kernel
  have begins : beginsSlide b = true := by decide +kernel
  obtain ⟨slides, metadata⟩ := read_append ended outside begins
  refine ⟨⟨ended, outside, begins⟩, slides, ?_⟩
  rw [metadata]
  decide +kernel

end Markdown

end SlideDeck
