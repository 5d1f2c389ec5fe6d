import SlideDeck.Proofs.Html.Code
import SlideDeck.Proofs.Slide.Block

/-!
# Code from the source to the page

The lines between two fences are written as a listing (`body_fenced`), and the listing is
shown as it is. So fenced code reaches the page whole, from its first line that is not
blank to its last (`shownCode?_fenced`).

The exporter is not exact everywhere. It takes the first closing bracket behind the head of
a listing for the end of its options, but the name of a language that is a dialect holds
one; then the rest of the name is shown as code (`shownCode?_fenced_dialect`). It removes
the option of a frame from code, too, reads entities of angle brackets that the author wrote
as the brackets, and drops a carriage return at the end of a line. The lines have to be
intact for these reasons.
-/

set_option autoImplicit false

namespace SlideDeck.Document

open SlideDeck SlideDeck.Text SlideDeck.Latex SlideDeck.Markdown SlideDeck.Slide SlideDeck.Html

/-! ## Reading fenced lines -/

/-- The tag of a block of code. -/
def codeTag (tag : Text) : Text := if (trim tag).isEmpty then untagged else trim tag

theorem kindOf_fence (tag : Text) : LineKind.of (fenceMark ++ tag) = .fence (trim tag) := by
  have visible : isBlank '\x60' = false := by decide
  have trimmed : trim (fenceMark ++ tag) = fenceMark ++ trimEnd tag := by
    have spelled : fenceMark ++ tag = '\x60' :: '\x60' :: '\x60' :: tag := rfl
    rw [trim, spelled, trimStart_cons visible, trimEnd_cons visible, trimEnd_cons visible,
      trimEnd_cons visible]
    rfl
  have found : fenceTag? (fenceMark ++ tag) = some (trimEnd tag) := by
    rw [fenceTag?, trimmed]
    exact skip?_eq_some_iff.mpr rfl
  rw [LineKind.of, found]
  simp only [trim_trimEnd]

/-- The lines up to the next fence belong to the code. -/
theorem blocksFrom_code {tag : Text} {before ls : List Text}
    (inside : ∀ line ∈ ls, isFence line = false) :
    blocksFrom (.code tag before) (ls ++ [fenceMark]) = [.code tag (before ++ ls) true] := by
  induction ls generalizing before with
  | nil =>
      have fence : isFence fenceMark = true := by decide
      rw [List.nil_append, List.append_nil, blocksFrom, Opened.step, fence]
      rfl
  | cons line ls ih =>
      rw [List.forall_mem_cons] at inside
      rw [List.cons_append, blocksFrom, Opened.step, inside.1, if_neg Bool.false_ne_true]
      exact (ih inside.2).trans (by rw [List.append_assoc]; rfl)

theorem blocksOf_fenced (tag : Text) {ls : List Text} (inside : ∀ line ∈ ls, isFence line = false) :
    blocksOf ((fenceMark ++ tag) :: (ls ++ [fenceMark])) = [.code (codeTag tag) ls true] := by
  have opened : Opened.step .nothing (fenceMark ++ tag) = ([], .code (codeTag tag) []) := by
    rw [Opened.step, kindOf_fence]
    · rfl
    · simp
  rw [blocksOf, blocksFrom, opened]
  exact blocksFrom_code inside

/-! ## Writing a listing -/

/-- The options of a listing that names its language. -/
def languageOptions (tag : Text) : Option Text :=
  (language? tag).map fun name => "language=".toList ++ name

theorem languageOption_eq (tag : Text) :
    languageOption tag = writtenOptions (languageOptions tag) := by
  have spelled : "[language=".toList = '[' :: "language=".toList := by decide
  rw [languageOption, languageOptions, spelled]
  generalize language? tag = found
  cases found with
  | none => rfl
  | some name => rfl

theorem codeLines_eq_listing {tag : Text} (ordinary : tag ≠ diagramTag) {code : List Text}
    (nonempty : code ≠ []) :
    unlines (codeLines tag code) = unlines (listingLines listing (languageOptions tag) code) := by
  rw [codeLines, if_neg ordinary, unlines_listingLines nonempty, languageOption_eq,
    unlines_cons_cons, unlines_cons_cons, List.append_assoc]
  rfl

/-- A listing has nothing to trim. -/
theorem trim_listing {options : Option Text} {code : List Text} (nonempty : code ≠ []) :
    trim (unlines (listingLines listing options code)) =
      unlines (listingLines listing options code) := by
  have shape : unlines (listingLines listing options code) =
      '\\' :: (("begin".toList ++ group listing ++ (writtenOptions options ++ '\n' ::
        (unlines code ++ '\n' :: '\\' :: ("end".toList ++ '\x7b' :: listing)))) ++ ['\x7d']) := by
    rw [unlines_listingLines nonempty, beginEnvironment, endEnvironment, command, command]
    generalize "begin".toList = first, "end".toList = last
    simp only [group, List.cons_append, List.append_assoc, List.nil_append]
  rw [shape]
  exact trim_between (by decide) (by decide) _

/-- Fenced code is written as a listing. -/
theorem body_fenced {tag : Text} {ls : List Text} (ordinary : trim tag ≠ diagramTag)
    (inside : ∀ line ∈ ls, isFence line = false)
    (visible : ∃ line ∈ ls, isBlankText line = false) :
    body ((fenceMark ++ tag) :: (ls ++ [fenceMark])) =
      unlines (listingLines listing (languageOptions (codeTag tag)) (dropBlankEnds ls)) := by
  have nonempty := dropBlankEnds_ne_nil_iff.mpr visible
  have ordinaryTag : codeTag tag ≠ diagramTag := by
    rw [codeTag]
    split
    · decide
    · exact ordinary
  have parts :
      (Block.code (codeTag tag) ls true).parts = codeLines (codeTag tag) (dropBlankEnds ls) := by
    simp [Block.parts, nonempty]
  rw [body, blocksOf_fenced tag inside, List.flatMap_singleton, parts,
    codeLines_eq_listing ordinaryTag nonempty, trim_listing nonempty]

/-- The name of a language without brackets makes options that the exporter leaves alone. -/
theorem inert_languageOptions {tag : Text} (language : ∀ name ∈ language? tag, ']' ∉ name) :
    ∀ content ∈ languageOptions tag, Inert content := by
  intro content written
  obtain ⟨name, known, rfl⟩ := Option.map_eq_some_iff.mp written
  obtain ⟨entry, searched, rfl⟩ := Option.map_eq_some_iff.mp known
  have plain : ∀ entry ∈ languages, ']' ∉ entry.2 →
      ("language=".toList ++ entry.2).all (· ∉ "<>\\[]\n".toList) ∧
        "language=".toList ++ entry.2 ≠ "fragile".toList := by decide
  obtain ⟨noSpecial, notFragile⟩ :=
    plain entry (List.mem_of_find?_eq_some searched) (language entry.2 known)
  exact ⟨List.all_iff_forall_prop.mp noSpecial, notFragile⟩

/-! ## The code that is shown -/

/-- The code that a page shows if it is one element of code, whatever the attributes of that
are. -/
def shownCode? (html : Text) : Option Text :=
  (skip? "<pre><code".toList html).bind fun rest =>
    (splitOnce '>' rest).bind fun (_, rest) =>
      (splitOnce '<' rest).bind fun (text, behind) =>
        if behind = "/code></pre>".toList then some (decodeEntities text) else none

theorem shownCode?_element {attributes : Text} (noGreater : '>' ∉ attributes) (code : Text) :
    shownCode? (element "pre".toList
        (openTag ("code".toList ++ attributes) ++ code.flatMap escapeMarkup ++
          closeTag "code".toList)) = some code := by
  have noLess : '<' ∉ code.flatMap escapeMarkup := by
    intro member
    obtain ⟨c, -, here⟩ := List.mem_flatMap.mp member
    exact (angles_not_mem_escapeMarkup c).1 here
  have shape : element "pre".toList
      (openTag ("code".toList ++ attributes) ++ code.flatMap escapeMarkup ++
        closeTag "code".toList) =
        "<pre><code".toList ++
          (attributes ++ '>' :: (code.flatMap escapeMarkup ++ '<' :: "/code></pre>".toList)) := by
    have head : "<pre><code".toList = openTag "pre".toList ++ '<' :: "code".toList := by decide
    have tail : '<' :: "/code></pre>".toList = closeTag "code".toList ++ closeTag "pre".toList := by
      decide
    rw [head, tail, element]
    simp only [openTag, List.append_assoc, List.cons_append, List.nil_append]
  have skipped : ∀ rest, skip? "<pre><code".toList ("<pre><code".toList ++ rest) = some rest :=
    fun rest => skip?_eq_some_iff.mpr rfl
  rw [shape, shownCode?, skipped, Option.bind_some, splitOnce_append noGreater]
  simp only [Option.bind_some, splitOnce_append noLess, decodeEntities_escapeMarkup, ↓reduceIte]

/-- **Fenced code is shown as it is.** The lines between two fences, from the first that is
not blank to the last, are the text of one element on the page. This holds for each language
that is no dialect and for all lines that are intact. -/
theorem shownCode?_fenced {tag : Text} {ls : List Text} (ordinary : trim tag ≠ diagramTag)
    (language : ∀ name ∈ language? (trim tag), ']' ∉ name)
    (inside : ∀ line ∈ ls, isFence line = false)
    (visible : ∃ line ∈ ls, isBlankText line = false)
    (intact : ∀ line ∈ dropBlankEnds ls, Intact line) :
    shownCode? (fragment (body ((fenceMark ++ tag) :: (ls ++ [fenceMark])))) =
      some (unlines (dropBlankEnds ls)) := by
  have languageTag : ∀ name ∈ language? (codeTag tag), ']' ∉ name := by
    rw [codeTag]
    split
    · have absent : language? untagged = none := by decide
      rw [absent]
      simp
    · exact language
  have known : listing ∈ codeEnvironments := by decide
  rw [body_fenced ordinary inside visible,
    fragment_listingLines known (dropBlankEnds_ne_nil_iff.mpr visible)
    (inert_languageOptions languageTag)
      intact]
  exact shownCode?_element (greater_not_mem_languageClass _) _

/-- Code with blank lines around it and special characters in it. -/
theorem shownCode?_fenced_python :
    shownCode? (fragment (body
      [fenceMark ++ " Python".toList, [], "if a < b & c[0]:".toList, [], "  print(c)".toList,
        " ".toList, fenceMark])) =
      some "if a < b & c[0]:\n\n  print(c)".toList :=
  @shownCode?_fenced " Python".toList
    [[], "if a < b & c[0]:".toList, [], "  print(c)".toList, " ".toList]
    (by decide) (by decide) (by decide) (by decide) (by decide)

/-- The name of a dialect is shown in front of the code. -/
theorem shownCode?_fenced_dialect :
    ¬ ∀ tag ls, '\x60' ∉ tag → trim tag ≠ diagramTag →
      (∀ line ∈ ls, '\\' ∉ line ∧ '\n' ∉ line ∧ isFence line = false) →
      (∃ line ∈ ls, isBlankText line = false) →
      shownCode? (fragment (body ((fenceMark ++ tag) :: (ls ++ [fenceMark])))) =
        some (unlines (dropBlankEnds ls)) := by
  intro all
  have shown :=
    all "csharp".toList ["int x;".toList] (by decide) (by decide) (by decide) (by decide)
  revert shown
  decide +kernel

end SlideDeck.Document
