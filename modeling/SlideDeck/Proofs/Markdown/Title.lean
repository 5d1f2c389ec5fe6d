import SlideDeck.Proofs.Markdown.Transcript

/-!
# Where the title of a presentation comes from

A source gives its title in the metadata block or as a heading of the first level. In the block the
last value under the key counts that is not empty (`get?_readMetadata`). Behind it, the first
heading outside of code counts, and only if the block has no title (`metadata_run`): no other line
changes the metadata (`metadata_play`). Both together say what the title of a presentation is
(`get?_title_read`).
-/

set_option autoImplicit false

namespace SlideDeck

open SlideDeck.Text

namespace Markdown

/-! ## What a source says -/

/-- The value that a line of the metadata block gives to a key, without its quotes. -/
def valueFor? (key line : Text) : Option Text :=
  match setting? (trim line) with
  | some (name, value) => if name = key then some value else none
  | none => none

/-- The key of the title. -/
def titleKey : Text := "title".toList

/-- The text of a heading of the first level. -/
def heading? (line : Text) : Option Text := (skip? "# ".toList (trimStart line)).map trim

/-- The headings of the first level outside of code, where `inside` tells whether the first line is
inside. -/
def headingsFrom (inside : Bool) : List Text → List Text
  | [] => []
  | line :: rest =>
    (if isFence line || inside then [] else (heading? line).toList) ++
      headingsFrom (insideAfter inside line) rest

/-- The values that the metadata block of a source gives to the title. -/
def titleValues (source : Text) : List Text :=
  (Sections.ofLines (lines source)).metadata.filterMap (valueFor? titleKey)

/-- The headings of the first level behind the metadata block of a source and outside of code. -/
def titleHeadings (source : Text) : List Text :=
  headingsFrom false (Sections.ofLines (lines source)).body

/-- The title of the presentation: the last value that is not empty, or else the first heading. -/
def keptTitle? (source : Text) : Option Text :=
  ((titleValues source).filter fun value => !value.isEmpty).getLast?.or (titleHeadings source).head?

/-! ## The metadata block -/

theorem get?_addEntry (key : Text) (metadata : Entries) (line : Text) :
    (addEntry metadata line).get? key =
      ((valueFor? key line).filter fun value => !value.isEmpty).or (metadata.get? key) := by
  rw [addEntry, valueFor?]
  cases setting? (trim line) with
  | none => rfl
  | some setting =>
      obtain ⟨name, value⟩ := setting
      by_cases same : key = name
      · subst same
        cases value <;> simp [Keyed.get?_put, Option.filter]
      · cases value <;> simp [Keyed.get?_put, same, Ne.symm same]

/-- The last value that is not empty counts. -/
theorem get?_foldl_addEntry (key : Text) (metadata : Entries) (block : List Text) :
    (block.foldl addEntry metadata).get? key =
      ((block.filterMap (valueFor? key)).filter fun value => !value.isEmpty).getLast?.or
        (metadata.get? key) := by
  induction block generalizing metadata with
  | nil => rfl
  | cons line block ih =>
      rw [List.foldl_cons, ih, get?_addEntry, ← Option.or_assoc]
      congr 1
      cases found : valueFor? key line with
      | none => rw [List.filterMap_cons_none found, Option.filter_none, Option.or_none]
      | some value =>
          rw [List.filterMap_cons_some found, ← List.singleton_append, List.filter_append,
            List.getLast?_append]
          cases value <;> rfl

theorem get?_readMetadata (key : Text) (block : List Text) :
    (readMetadata block).get? key =
      ((block.filterMap (valueFor? key)).filter fun value => !value.isEmpty).getLast? := by
  rw [readMetadata, get?_foldl_addEntry]
  exact Option.or_none

/-! ## Headings -/

/-- The metadata with this title, unless they have one. -/
def withTitle (metadata : Entries) : Option Text → Entries
  | none => metadata
  | some title =>
    if metadata.hasKey titleKey then metadata else metadata.put titleKey title

/-- A second title changes nothing. -/
theorem withTitle_withTitle (metadata : Entries) (first second : Option Text) :
    withTitle (withTitle metadata first) second = withTitle metadata (first.or second) := by
  cases first with
  | none => rfl
  | some title =>
      cases second with
      | none => rfl
      | some other =>
          cases found : metadata.get? titleKey <;>
            simp [withTitle, Keyed.hasKey, found, Keyed.get?_put]

theorem get?_withTitle (metadata : Entries) (title : Option Text) :
    (withTitle metadata title).get? titleKey = (metadata.get? titleKey).or title := by
  cases title with
  | none => exact Option.or_none.symm
  | some title =>
      cases found : metadata.get? titleKey <;>
        simp [withTitle, Keyed.hasKey, found, Keyed.get?_put]

/-- Such a heading is no other line. -/
theorem Role.of_heading {line title : Text} (heading : heading? line = some title) :
    Role.of line = .documentTitle title := by
  obtain ⟨text, found, rfl⟩ := Option.map_eq_some_iff.mp heading
  have whole : trimStart line = "# ".toList ++ text := skip?_eq_some_iff.mp found
  have first : ['#'] <+: trimStart line := by
    rw [whole]
    exact ⟨' ' :: text, rfl⟩
  have noNotes : notesText? (trimStart line) = none := notesText?_of_isPrefix first (by decide)
  have noSlide : skip? "## ".toList (trimStart line) = none := by
    rw [whole]
    rfl
  simp only [Role.of, isBreak_of_isPrefix first (by decide), noNotes, noSlide, found]
  rfl

theorem heading?_of_role {line title : Text} (role : Role.of line = .documentTitle title) :
    heading? line = some title := by
  rw [Role.of] at role
  split at role
  · cases role
  · split at role
    · cases role
    · split at role
      · cases role
      · split at role
        · next text found =>
            cases role
            rw [heading?, found]
            rfl
        · cases role

namespace Reading

variable (r : Reading)

@[simp] theorem metadata_close : r.close.metadata = r.metadata := rfl

@[simp] theorem metadata_start (slide : Slide) : (r.start slide).metadata = r.metadata := rfl

@[simp] theorem metadata_push (line : Text) : (r.push line).metadata = r.metadata := by
  rw [push]
  split <;> rfl

@[simp] theorem metadata_startNotes (text : Text) : (r.startNotes text).metadata = r.metadata := by
  rw [startNotes]
  split
  · rfl
  · split <;> simp

theorem setTitle_eq (title : Text) :
    r.setTitle title = { r with metadata := withTitle r.metadata (some title) } := by
  have cases : r.setTitle title =
      if r.metadata.hasKey titleKey then r
      else { r with metadata := r.metadata.put titleKey title } := rfl
  rw [cases, withTitle]
  split <;> rfl

/-- Only a heading of the first level changes the metadata. -/
theorem metadata_play (line : Text) :
    (r.play line (Role.of line)).metadata = withTitle r.metadata (heading? line) := by
  cases heading : heading? line with
  | some title =>
      rw [Role.of_heading heading]
      exact congrArg Reading.metadata (r.setTitle_eq title)
  | none =>
      cases role : Role.of line with
      | documentTitle title => simp [heading?_of_role role] at heading
      | slideBreak | slideTitle title | notes text | plain => simp [play, withTitle]

theorem metadata_step (line : Text) :
    (r.step line).metadata =
      withTitle r.metadata (if isFence line || r.insideCode then none else heading? line) := by
  rw [step]
  split
  · exact r.metadata_push line
  · exact r.metadata_play line

/-- The first heading of the first level gives the title. -/
theorem metadata_run (ls : List Text) :
    (r.run ls).metadata = withTitle r.metadata (headingsFrom r.insideCode ls).head? := by
  induction ls generalizing r with
  | nil => rfl
  | cons line ls ih =>
      have later : (r.run (line :: ls)).metadata = ((r.step line).run ls).metadata := rfl
      rw [later, ih, metadata_step, withTitle_withTitle, headingsFrom, List.head?_append]
      congr 2
      split <;> simp

end Reading

theorem metadata_read (source : Text) :
    (Presentation.read source).metadata =
      withTitle (readMetadata (Sections.ofLines (lines source)).metadata)
        (titleHeadings source).head? :=
  Reading.metadata_run _ _

/-- **The title of a presentation** is what the source says that it is. -/
theorem get?_title_read (source : Text) :
    (Presentation.read source).metadata.get? titleKey = keptTitle? source := by
  rw [metadata_read, get?_withTitle, get?_readMetadata, keptTitle?, titleValues]

end Markdown

end SlideDeck
