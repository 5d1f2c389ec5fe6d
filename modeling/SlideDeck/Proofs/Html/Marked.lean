import SlideDeck.Proofs.Text.Search
import SlideDeck.Html.Fragment

/-!
# Text in which all angle brackets belong to tags

A piece of HTML is *marked* (`Marked`) when it is made of tags that the exporter writes
and of characters that are no angle brackets. In such a text every `<` begins and every
`>` ends a tag (`Marked.tag_of_less`, `Marked.tag_of_greater`).

The conversions of the exporter cut texts and put others in their place. A cut is
harmless where it does not go through a tag: at a *neutral* character, which no tag
holds (`Marked.split`), or where the part before it has no `<` (`Marked.behind`) or the
part behind it no `>` (`Marked.front`). A matcher that looks for a neutral character
first and answers with marked texts keeps a text marked (`Marked.substitute`): a search
in a marked text passes tags and matches as a whole (`Marked.pass_induction`).
-/

set_option autoImplicit false

namespace SlideDeck.Html

open SlideDeck SlideDeck.Text

/-! ## Tags -/

/-- The elements with an opening and a closing tag. -/
def elementNames : List Text := [
  "ul".toList, "ol".toList, "li".toList, "blockquote".toList, "strong".toList, "em".toList,
  "code".toList, "pre".toList, "table".toList, "tr".toList, "th".toList, "td".toList,
  "p".toList]

/-- The characters of a language in the attribute of code. -/
def isLanguageMark (c : Char) : Bool := c.isLower || c == '+' || c == '#'

/-- The tags that the exporter writes. -/
inductive IsTag : Text → Prop where
  | opening {name : Text} (member : name ∈ elementNames) : IsTag (openTag name)
  | closing {name : Text} (member : name ∈ elementNames) : IsTag (closeTag name)
  | lineBreak : IsTag (openTag "br".toList)
  | language {name : Text} (nonempty : name ≠ []) (marks : ∀ c ∈ name, isLanguageMark c = true) :
      IsTag (openTag ("code class=\"language-".toList ++ name ++ "\"".toList))

/-- The characters between the angle brackets of a tag. -/
def isTagChar (c : Char) : Bool :=
  isLanguageMark c || c == '/' || c == ' ' || c == '=' || c == '-' || c == '\x22'

/-- The characters that occur in no tag. -/
def isNeutral (c : Char) : Bool := c != '<' && c != '>' && !isTagChar c

/-- A tag is an opening angle bracket, characters of tags, and a closing one. -/
theorem IsTag.shape {tag : Text} (isTag : IsTag tag) :
    ∃ inner, tag = '<' :: inner ++ ['>'] ∧ ∀ c ∈ inner, isTagChar c = true := by
  cases isTag with
  | @opening name member =>
      have all : ∀ name ∈ elementNames, name.all isTagChar = true := by decide
      exact ⟨name, rfl, List.all_eq_true.mp (all name member)⟩
  | @closing name member =>
      have all : ∀ name ∈ elementNames, ('/' :: name).all isTagChar = true := by decide
      exact ⟨'/' :: name, rfl, List.all_eq_true.mp (all name member)⟩
  | lineBreak => exact ⟨"br".toList, rfl, List.all_eq_true.mp (by decide)⟩
  | @language name _ marks =>
      have start : ("code class=\"language-".toList).all isTagChar = true := by decide
      refine ⟨"code class=\"language-".toList ++ name ++ "\"".toList, rfl, fun c member => ?_⟩
      rcases List.mem_append.mp member with member | member
      · rcases List.mem_append.mp member with member | member
        · exact List.all_eq_true.mp start c member
        · simp [isTagChar, marks c member]
      · rw [List.mem_singleton.mp member]
        rfl

theorem IsTag.not_neutral {tag : Text} (isTag : IsTag tag) {c : Char} (member : c ∈ tag) :
    isNeutral c = false := by
  obtain ⟨inner, rfl, chars⟩ := isTag.shape
  simp only [List.cons_append, List.mem_cons, List.mem_append, List.not_mem_nil, or_false] at member
  rcases member with rfl | member | rfl
  · rfl
  · simp [isNeutral, chars c member]
  · rfl

/-- The only `<` of a tag is its first character. -/
theorem IsTag.less_first {tag before after : Text} (isTag : IsTag tag)
    (whole : tag = before ++ '<' :: after) : before = [] := by
  obtain ⟨inner, rfl, chars⟩ := isTag.shape
  cases before with
  | nil => rfl
  | cons c before =>
      obtain ⟨-, same⟩ := List.cons.inj whole
      have member : '<' ∈ inner ++ ['>'] := by
        rw [show inner ++ ['>'] = before ++ '<' :: after from same]
        simp
      simp only [List.mem_append, List.mem_singleton] at member
      rcases member with member | member
      · exact absurd (chars _ member) (by decide)
      · exact absurd member (by decide)

/-- The only `>` of a tag is its last character. -/
theorem IsTag.greater_last {tag before after : Text} (isTag : IsTag tag)
    (whole : tag = before ++ '>' :: after) : after = [] := by
  obtain ⟨inner, rfl, chars⟩ := isTag.shape
  rcases List.eq_nil_or_concat after with rfl | ⟨after, last, rfl⟩
  · rfl
  · obtain ⟨same, -⟩ := List.append_inj'
      (show '<' :: inner ++ ['>'] = before ++ '>' :: after ++ [last] by simp [whole]) rfl
    have member : '>' ∈ '<' :: inner := by simp [same]
    rcases List.mem_cons.mp member with member | member
    · exact absurd member (by decide)
    · exact absurd (chars _ member) (by decide)

theorem isNeutral_iff {c : Char} :
    isNeutral c = true ↔ c ≠ '<' ∧ c ≠ '>' ∧ isTagChar c = false := by
  simp [isNeutral, and_assoc]

/-! ## Marked text -/

/-- Text of tags and of characters that are no angle brackets. -/
inductive Marked : Text → Prop where
  | nil : Marked []
  | char {c : Char} {s : Text} (notLess : c ≠ '<') (notGreater : c ≠ '>') (rest : Marked s) :
      Marked (c :: s)
  | tag {t s : Text} (isTag : IsTag t) (rest : Marked s) : Marked (t ++ s)

namespace Marked

theorem append {s t : Text} (first : Marked s) (second : Marked t) : Marked (s ++ t) := by
  induction first with
  | nil => exact second
  | char notLess notGreater _ ih => exact .char notLess notGreater ih
  | tag isTag _ ih => exact List.append_assoc .. ▸ .tag isTag ih

theorem of_tag {t : Text} (isTag : IsTag t) : Marked t :=
  List.append_nil t ▸ .tag isTag .nil

/-- Text without angle brackets is marked. -/
theorem of_plain {s : Text} (noLess : '<' ∉ s) (noGreater : '>' ∉ s) : Marked s := by
  induction s with
  | nil => exact .nil
  | cons c cs ih =>
      rw [List.mem_cons, not_or] at noLess noGreater
      exact .char (Ne.symm noLess.1) (Ne.symm noGreater.1) (ih noLess.2 noGreater.2)

theorem flatten {pieces : List Text} (each : ∀ piece ∈ pieces, Marked piece) :
    Marked pieces.flatten := by
  induction pieces with
  | nil => exact .nil
  | cons piece pieces ih =>
      rw [List.forall_mem_cons] at each
      exact each.1.append (ih each.2)

/-- What stands behind a part without `<`. -/
theorem behind {used rest : Text} (marked : Marked (used ++ rest)) (noLess : '<' ∉ used) :
    Marked rest := by
  induction used with
  | nil => exact marked
  | cons c used ih =>
      rw [List.mem_cons, not_or] at noLess
      generalize whole : c :: used ++ rest = s at marked
      cases marked with
      | nil => cases whole
      | char _ _ marked =>
          cases whole
          exact ih marked noLess.2
      | tag isTag _ =>
          obtain ⟨inner, rfl, -⟩ := isTag.shape
          exact absurd (List.cons.inj whole).1.symm noLess.1

/-- What stands before a part without `>`. -/
theorem front {rest used : Text} (marked : Marked (rest ++ used)) (noGreater : '>' ∉ used) :
    Marked rest := by
  generalize whole : rest ++ used = s at marked
  induction marked generalizing rest with
  | nil =>
      obtain ⟨rfl, -⟩ := List.append_eq_nil_iff.mp whole
      exact .nil
  | char notLess notGreater _ ih =>
      cases rest with
      | nil => exact .nil
      | cons d rest =>
          cases whole
          exact .char notLess notGreater (ih rfl)
  | @tag t s isTag _ ih =>
      rcases List.append_eq_append_iff.mp whole with ⟨between, rfl, rfl⟩ | ⟨between, rfl, rfl⟩
      · -- What is cut off of a tag holds its last character.
        rcases List.eq_nil_or_concat between with rfl | ⟨between, last, rfl⟩
        · simpa using of_tag isTag
        · obtain ⟨inner, ends, -⟩ := isTag.shape
          obtain ⟨-, same⟩ := List.append_inj'
            (show rest ++ between ++ [last] = '<' :: inner ++ ['>'] by simpa using ends) rfl
          cases same
          simp at noGreater
      · exact .tag isTag (ih rfl)

/-- A neutral character is a place to cut. -/
theorem split {before after : Text} {c : Char} (marked : Marked (before ++ c :: after))
    (neutral : isNeutral c = true) : Marked before ∧ Marked after := by
  generalize whole : before ++ c :: after = s at marked
  induction marked generalizing before with
  | nil => simp at whole
  | char notLess notGreater rest ih =>
      cases before with
      | nil =>
          cases whole
          exact ⟨.nil, rest⟩
      | cons d before =>
          cases whole
          obtain ⟨first, second⟩ := ih rfl
          exact ⟨.char notLess notGreater first, second⟩
  | @tag t s isTag _ ih =>
      rcases List.append_eq_append_iff.mp whole with ⟨between, rfl, same⟩ | ⟨between, rfl, rfl⟩
      · cases between with
        | nil =>
            obtain ⟨-, second⟩ := ih (show [] ++ c :: after = _ from same)
            exact ⟨by simpa using of_tag isTag, second⟩
        | cons d between =>
            cases same
            exact absurd (isTag.not_neutral (c := c) (by simp)) (by simp [neutral])
      · obtain ⟨first, second⟩ := ih rfl
        exact ⟨.tag isTag first, second⟩

theorem cons_neutral {c : Char} {s : Text} (neutral : isNeutral c = true) (marked : Marked s) :
    Marked (c :: s) := by
  obtain ⟨notLess, notGreater, -⟩ := isNeutral_iff.mp neutral
  exact .char notLess notGreater marked

theorem of_cons_neutral {c : Char} {s : Text} (neutral : isNeutral c = true)
    (marked : Marked (c :: s)) : Marked s :=
  (split (show Marked ([] ++ c :: s) from marked) neutral).2

/-! ## Angle brackets of marked text -/

/-- **Every `<` begins a tag.** -/
theorem tag_of_less {before after : Text} (marked : Marked (before ++ '<' :: after)) :
    ∃ tag, IsTag tag ∧ tag <+: '<' :: after := by
  generalize whole : before ++ '<' :: after = s at marked
  induction marked generalizing before with
  | nil => simp at whole
  | char notLess _ _ ih =>
      cases before with
      | nil =>
          cases whole
          exact absurd rfl notLess
      | cons d before =>
          cases whole
          exact ih rfl
  | @tag t s isTag _ ih =>
      rcases List.append_eq_append_iff.mp whole with ⟨between, split, same⟩ | ⟨between, rfl, rfl⟩
      · cases between with
        | nil => exact ih (show [] ++ '<' :: after = _ from same)
        | cons d between =>
            obtain rfl := (List.cons.inj same).1
            obtain rfl := isTag.less_first split
            exact ⟨t, isTag, ⟨s, whole.symm⟩⟩
      · exact ih rfl

/-- **Every `>` ends a tag.** -/
theorem tag_of_greater {before after : Text} (marked : Marked (before ++ '>' :: after)) :
    ∃ tag, IsTag tag ∧ tag <:+ before ++ ['>'] := by
  generalize whole : before ++ '>' :: after = s at marked
  induction marked generalizing before with
  | nil => simp at whole
  | char _ notGreater _ ih =>
      cases before with
      | nil =>
          cases whole
          exact absurd rfl notGreater
      | cons d before =>
          cases whole
          obtain ⟨tag, isTag, ends⟩ := ih rfl
          exact ⟨tag, isTag, ends.trans (List.suffix_cons ..)⟩
  | @tag t s isTag _ ih =>
      rcases List.append_eq_append_iff.mp whole with ⟨between, split, same⟩ | ⟨between, rfl, rfl⟩
      · cases between with
        | nil =>
            obtain ⟨tag, isTag, ends⟩ := ih (show [] ++ '>' :: after = _ from same)
            exact ⟨tag, isTag, ends.trans (List.suffix_append ..)⟩
        | cons d between =>
            obtain rfl := (List.cons.inj same).1
            obtain rfl := isTag.greater_last split
            exact ⟨t, isTag, split ▸ List.suffix_rfl⟩
      · obtain ⟨tag, isTag, ends⟩ := ih rfl
        exact ⟨tag, isTag, ends.trans (List.append_assoc .. ▸ List.suffix_append ..)⟩

end Marked

/-! ## Harmless cuts -/

/-- Whether a text begins with a neutral character and has no `<` behind it. -/
def isHarmless : Text → Bool
  | [] => false
  | c :: cs => isNeutral c && !cs.contains '<'

theorem exists_of_isHarmless {literal : Text} (harmless : isHarmless literal = true) :
    ∃ c cs, literal = c :: cs ∧ isNeutral c = true ∧ '<' ∉ cs := by
  cases literal with
  | nil => cases harmless
  | cons c cs =>
      simp only [isHarmless, Bool.and_eq_true, Bool.not_eq_true', List.contains_eq_mem,
        decide_eq_false_iff_not] at harmless
      exact ⟨c, cs, rfl, harmless⟩

/-- What is left of a text behind a harmless cut: an end of it that is marked if the text
is. -/
structure Behind (s rest : Text) : Prop where
  isSuffix : rest <:+ s
  marked : Marked s → Marked rest

namespace Behind

theorem refl (s : Text) : Behind s s := ⟨List.suffix_rfl, id⟩

theorem trans {s t u : Text} (first : Behind s t) (second : Behind t u) : Behind s u :=
  ⟨second.isSuffix.trans first.isSuffix, second.marked ∘ first.marked⟩

theorem append {used rest : Text} (noLess : '<' ∉ used) : Behind (used ++ rest) rest :=
  ⟨List.suffix_append .., fun marked => marked.behind noLess⟩

theorem dropWhile {drops : Char → Bool} (keepsLess : drops '<' = false) (s : Text) :
    Behind s (s.dropWhile drops) := by
  have noLess : '<' ∉ s.takeWhile drops := fun member => by
    simpa [keepsLess] using List.mem_takeWhile_imp member
  have cut : Behind (s.takeWhile drops ++ s.dropWhile drops) (s.dropWhile drops) := append noLess
  rwa [List.takeWhile_append_dropWhile] at cut

theorem cons {c : Char} {s : Text} (neutral : isNeutral c = true) : Behind (c :: s) s :=
  ⟨List.suffix_cons .., fun marked => marked.of_cons_neutral neutral⟩

/-- Behind a harmless text, wherever it stands. -/
theorem middle {front literal rest : Text} (harmless : isHarmless literal = true) :
    Behind (front ++ (literal ++ rest)) rest := by
  obtain ⟨c, used, rfl, neutral, noLess⟩ := exists_of_isHarmless harmless
  exact ⟨(List.suffix_append (c :: used) rest).trans (List.suffix_append ..),
    fun marked => (marked.split neutral).2.behind noLess⟩

end Behind

/-! ## Substituting in marked text -/

/-- A matcher that keeps texts marked: its matches begin with a neutral character and end
with a harmless cut, and what it puts there is marked. -/
def Keeps (matcher : Matcher Text) : Prop :=
  ∀ ⦃s replacement rest : Text⦄, matcher s = some (replacement, rest) →
    ∃ c cs, s = c :: cs ∧ isNeutral c = true ∧ Behind cs rest ∧
      (Marked cs → Marked replacement)

/-- A scanner whose finds begin with a neutral character and end with a harmless cut. -/
def KeepsRest (span : Text → Option Text) : Prop :=
  ∀ ⦃s rest : Text⦄, span s = some rest →
    ∃ c cs, s = c :: cs ∧ isNeutral c = true ∧ Behind cs rest

theorem KeepsRest.remove {span : Text → Option Text} (keeps : KeepsRest span) :
    Keeps fun s => (span s).map fun rest => ([], rest) := by
  intro s replacement rest matched
  obtain ⟨behind, found, same⟩ := Option.map_eq_some_iff.mp matched
  cases same
  obtain ⟨c, cs, rfl, neutral, cut⟩ := keeps found
  exact ⟨c, cs, rfl, neutral, cut, fun _ => .nil⟩

theorem keepsRest_skip {literal : Text} (harmless : isHarmless literal = true) :
    KeepsRest (skip? literal) := by
  intro s rest skipped
  obtain ⟨c, cs, rfl, neutral, noLess⟩ := exists_of_isHarmless harmless
  cases skip?_eq_some_iff.mp skipped
  exact ⟨c, cs ++ rest, rfl, neutral, .append noLess⟩

theorem keeps_literally {literal replacement : Text} (harmless : isHarmless literal = true)
    (marked : Marked replacement) : Keeps (literally literal replacement) := by
  intro s found rest matched
  obtain ⟨behind, skipped, same⟩ := Option.map_eq_some_iff.mp matched
  cases same
  obtain ⟨d, cs, rfl, neutral, cut⟩ := keepsRest_skip harmless skipped
  exact ⟨d, cs, rfl, neutral, cut, fun _ => marked⟩

theorem Keeps.of_cons {matcher : Matcher Text} (keeps : Keeps matcher) {c : Char}
    {s replacement rest : Text} (matched : matcher (c :: s) = some (replacement, rest)) :
    isNeutral c = true ∧ Behind s rest ∧ (Marked s → Marked replacement) := by
  obtain ⟨d, ds, same, kept⟩ := keeps matched
  cases same
  exact kept

theorem Keeps.isSuffix {matcher : Matcher Text} (keeps : Keeps matcher) {c : Char}
    {s replacement rest : Text} (matched : matcher (c :: s) = some (replacement, rest)) :
    rest <:+ s :=
  (keeps.of_cons matched).2.1.isSuffix

theorem Keeps.quiet {matcher : Matcher Text} (keeps : Keeps matcher) {c : Char}
    (notNeutral : isNeutral c = false) (cs : Text) : matcher (c :: cs) = none := by
  cases found : matcher (c :: cs) with
  | none => rfl
  | some answer =>
      have neutral := (keeps.of_cons found).1
      rw [notNeutral] at neutral
      cases neutral

theorem KeepsRest.quiet {span : Text → Option Text} (keeps : KeepsRest span) {c : Char}
    (notNeutral : isNeutral c = false) (cs : Text) : span (c :: cs) = none :=
  Option.map_eq_none_iff.mp (keeps.remove.quiet notNeutral cs)

/-- The induction along the matches in a marked text: tags and matches are passed as a whole, so it
goes by the length. -/
@[elab_as_elim]
theorem Marked.pass_induction {matcher : Matcher Text} (keeps : Keeps matcher)
    {motive : ∀ s, Marked s → Prop} (nil : motive [] .nil)
    (quiet : ∀ c s (notLess : c ≠ '<') (notGreater : c ≠ '>') (rest : Marked s),
      matcher (c :: s) = none → motive s rest → motive (c :: s) (.char notLess notGreater rest))
    (found : ∀ c s replacement rest (marked : Marked (c :: s)) (later : Marked rest),
      matcher (c :: s) = some (replacement, rest) → rest <:+ s → Marked replacement →
      motive rest later → motive (c :: s) marked)
    (tag : ∀ t s (isTag : IsTag t) (rest : Marked s), motive s rest →
      motive (t ++ s) (.tag isTag rest))
    {s : Text} (marked : Marked s) : motive s marked := by
  induction size : s.length using Nat.strong_induction_on generalizing s with
  | _ n ih =>
      subst size
      cases marked with
      | nil => exact nil
      | @char c s notLess notGreater rest =>
          cases matched : matcher (c :: s) with
          | none => exact quiet c s notLess notGreater rest matched (ih s.length (by simp) rest rfl)
          | some answer =>
              obtain ⟨replacement, behind⟩ := answer
              obtain ⟨-, cut, replaced⟩ := keeps.of_cons matched
              have later := cut.marked rest
              refine found c s replacement behind _ later matched cut.isSuffix (replaced rest) ?_
              exact ih behind.length (Nat.lt_succ_of_le cut.isSuffix.length_le) later rfl
      | @tag t s isTag rest =>
          obtain ⟨inner, rfl, -⟩ := isTag.shape
          exact tag _ s isTag rest (ih s.length (by simp; omega) rest rfl)

/-- **Substituting with a matcher that keeps texts marked keeps a text marked.** -/
theorem Marked.substitute {matcher : Matcher Text} (keeps : Keeps matcher) {s : Text}
    (marked : Marked s) : Marked (Text.substitute matcher s) := by
  induction marked using Marked.pass_induction keeps with
  | nil => exact .nil
  | quiet c s notLess notGreater rest unmatched ih =>
      rw [substitute_cons_of_none unmatched]
      exact .char notLess notGreater ih
  | found c s replacement rest _ _ found isRest new ih =>
      rw [substitute_cons_of_some found isRest]
      exact new.append ih
  | tag t s isTag rest ih =>
      rw [substitute_append_of_quiet fun c member => keeps.quiet (isTag.not_neutral member)]
      exact .tag isTag ih

theorem Marked.replace {literal replacement s : Text} (marked : Marked s)
    (harmless : isHarmless literal = true) (new : Marked replacement) :
    Marked (Text.replace literal replacement s) :=
  marked.substitute (keeps_literally harmless new)

/-- The pieces between the matches of a scanner are marked. -/
theorem Marked.splitFrom {separator : Text → Option Text} (keeps : KeepsRest separator) {s : Text}
    (marked : Marked s) : ∀ piece ∈ Text.splitFrom separator 0 s, Marked piece := by
  -- Splitting finds what removing would find.
  induction marked using Marked.pass_induction keeps.remove with
  | nil =>
      intro piece member
      rw [List.mem_singleton.mp member]
      exact .nil
  | quiet c s notLess notGreater rest unmatched ih =>
      obtain ⟨piece, pieces, behind, whole⟩ :=
        splitFrom_cons_of_none (Option.map_eq_none_iff.mp unmatched)
      rw [behind, List.forall_mem_cons] at ih
      rw [whole, List.forall_mem_cons]
      exact ⟨.char notLess notGreater ih.1, ih.2⟩
  | found c s replacement rest _ _ found isRest _ ih =>
      obtain ⟨behind, separated, same⟩ := Option.map_eq_some_iff.mp found
      cases same
      rw [splitFrom_cons_of_some separated isRest, List.forall_mem_cons]
      exact ⟨.nil, ih⟩
  | tag t s isTag rest ih =>
      obtain ⟨piece, pieces, behind, whole⟩ := splitFrom_append_of_quiet (t := s)
        fun c member => keeps.quiet (isTag.not_neutral member)
      rw [behind, List.forall_mem_cons] at ih
      rw [whole, List.forall_mem_cons]
      exact ⟨.tag isTag ih.1, ih.2⟩

theorem Marked.splitOnText {literal s : Text} (marked : Marked s)
    (harmless : isHarmless literal = true) : ∀ piece ∈ Text.splitOnText literal s, Marked piece :=
  marked.splitFrom (keepsRest_skip harmless)

end SlideDeck.Html
