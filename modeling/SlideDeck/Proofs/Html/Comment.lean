import SlideDeck.Proofs.Html.Emphasis
import SlideDeck.Proofs.Html.Recommented
import SlideDeck.Proofs.Latex.Escaping

/-!
# Comments on the page

A comment of a frame is not shown, and what it says makes no difference to what is shown. The
exporter takes a percent sign for a comment unless a backslash stands directly before it, so this is
said of comments whose percent sign is behind something else (`BeginsComment`), also once
`[fragile]` has been taken out (`fragment_eq_of_sameLines`).

Behind two backslashes a percent sign is no escaped one either: LaTeX and the checks of this library
count the backslashes. The exporter looks at the last of them only, and shows the comment
(`fragment_ne_of_comment_behind_break`).
-/

set_option autoImplicit false

namespace SlideDeck.Html

open SlideDeck SlideDeck.Text

/-! ## Texts without listings -/

/-- No listing begins in the text. -/
def Listless (s : Text) : Prop :=
  ∀ name ∈ codeEnvironments, ¬ Latex.beginEnvironment name <:+: s

instance (s : Text) : Decidable (Listless s) :=
  decidable_of_iff
    (∀ name ∈ codeEnvironments, includes (Latex.beginEnvironment name) s = false)
    (forall₂_congr fun name _ => by rw [← includes_iff, Bool.not_eq_true])

/-- Nothing is taken out of a text in which no listing begins. -/
theorem Listless.takeListingsFrom_eq {s : Text} (listless : Listless s) (index : Nat) :
    takeListingsFrom index 0 s = (s, []) := by
  induction s with
  | nil => rfl
  | cons c s ih =>
      have quiet : listing? (c :: s) = none := by
        rw [listing?, Option.bind_eq_none_iff]
        intro rest skipped
        obtain ⟨literal, member, whole⟩ := skipAny?_eq_some skipped
        obtain ⟨name, known, rfl⟩ := List.mem_map.mp member
        exact absurd (whole ▸ (List.prefix_append _ rest).isInfix) (listless name known)
      have later : Listless s := fun name known occurs =>
        listless name known (occurs.trans (List.suffix_cons c s).isInfix)
      rw [takeListingsFrom_cons_of_none quiet, ih later]

/-- A matcher by which no listing comes to begin: what it puts in begins with a character that
occurs in no beginning of a listing, and no listing begins in it. -/
structure Unlisting (matcher : Matcher Text) : Prop where
  apart : ∀ {s replacement rest : Text}, matcher s = some (replacement, rest) →
    ∃ c tail, replacement = c :: tail ∧
      ∀ name ∈ codeEnvironments, c ∉ Latex.beginEnvironment name
  within : ∀ {s replacement rest : Text}, matcher s = some (replacement, rest) →
    ∀ name ∈ codeEnvironments, ∀ t, Latex.beginEnvironment name <:+: replacement ++ t →
      Latex.beginEnvironment name <:+: t

namespace Unlisting

variable {matcher : Matcher Text}

/-- What begins the result and belongs to the beginning of a listing begins the text: it ends before
the first replacement. -/
theorem isPrefix (unlisting : Unlisting matcher) (keeps : Keeps matcher) {name part s : Text}
    (known : name ∈ codeEnvironments) (chars : part ⊆ Latex.beginEnvironment name)
    (begins : part <+: substitute matcher s) : part <+: s := by
  induction part generalizing s with
  | nil => exact List.nil_prefix
  | cons e part ih =>
      rw [List.cons_subset] at chars
      cases s with
      | nil => exact begins
      | cons c s =>
          cases found : matcher (c :: s) with
          | none =>
              rw [substitute_cons_of_none found, List.cons_prefix_cons] at begins
              exact List.cons_prefix_cons.mpr ⟨begins.1, ih chars.2 begins.2⟩
          | some answer =>
              obtain ⟨d, tail, same, absent⟩ := unlisting.apart found
              rw [substitute_cons_of_some found (keeps.isSuffix found), same, List.cons_append,
                List.cons_prefix_cons] at begins
              exact absurd (begins.1 ▸ chars.1) (absent name known)

theorem listless (unlisting : Unlisting matcher) (keeps : Keeps matcher) {s : Text}
    (listless : Listless s) : Listless (substitute matcher s) := by
  intro name known occurs
  refine listless name known ?_
  clear listless
  induction s using pass_induction matcher with
  | nil => exact occurs
  | quiet c s unmatched ih =>
      have before := unlisting.isPrefix keeps (s := c :: s) known (List.Subset.refl _)
      rw [substitute_cons_of_none unmatched] at occurs before
      rcases List.infix_cons_iff.mp occurs with begins | later
      · exact (before begins).isInfix
      · exact (ih later).trans (List.suffix_cons c s).isInfix
  | found c s replacement rest found ih =>
      have cut := keeps.isSuffix found
      rw [substitute_cons_of_some found cut] at occurs
      have later := unlisting.within found name known _ occurs
      exact (ih cut later).trans (cut.trans (List.suffix_cons c s)).isInfix

end Unlisting

theorem unlisting_literally (literal : Text) {c : Char} {tail : Text} (first : c ∈ "<&~^".toList)
    (noSlash : '\\' ∉ tail) : Unlisting (literally literal (c :: tail)) where
  apart found := by
    obtain ⟨rest, -, same⟩ := Option.map_eq_some_iff.mp found
    cases same
    have absent :
        ∀ c ∈ "<&~^".toList, ∀ name ∈ codeEnvironments, c ∉ Latex.beginEnvironment name := by
      decide
    exact ⟨c, tail, rfl, absent c first⟩
  within found name _ t occurs := by
    obtain ⟨rest, -, same⟩ := Option.map_eq_some_iff.mp found
    cases same
    have other : ∀ c ∈ "<&~^".toList, '\\' ≠ c := by decide
    exact isInfix_of_isInfix_append (List.not_mem_cons_of_ne_of_not_mem (other c first) noSlash)
      occurs

theorem unlisting_itemCommand : Unlisting itemCommand where
  apart found := by
    obtain ⟨rest, -, answer⟩ := Option.bind_eq_some_iff.mp found
    split at answer
    · cases answer
      exact ⟨'<', "li>".toList, rfl, by decide⟩
    · cases answer
  within found name _ t occurs := by
    obtain ⟨rest, -, answer⟩ := Option.bind_eq_some_iff.mp found
    split at answer
    · cases answer
      exact isInfix_of_isInfix_append (by decide) occurs
    · cases answer

/-- The argument of a command of emphasis holds no braces, so no listing begins in it, and none goes
on behind it: there a tag closes. -/
theorem unlisting_spanCommand (names : List Text) {tag : Text} (member : tag ∈ elementNames) :
    Unlisting (spanCommand names tag) where
  apart found := by
    obtain ⟨name, -, argument, body, -, -, rfl⟩ := spanCommand_eq_some found
    exact ⟨'<', tag ++ ['>'] ++ body ++ closeTag tag, rfl, by decide⟩
  within found name known t occurs := by
    obtain ⟨command, -, argument, body, -, inner, rfl⟩ := spanCommand_eq_some found
    have noSlash : ∀ tag ∈ elementNames, '\\' ∉ openTag tag ∧ '\\' ∉ '/' :: tag ++ ['>'] := by
      decide
    have noLess : ∀ name ∈ codeEnvironments, '<' ∉ Latex.beginEnvironment name := by decide
    have brace : ∀ name ∈ codeEnvironments, '\x7b' ∈ Latex.beginEnvironment name := by decide
    obtain ⟨opens, closes⟩ := noSlash tag member
    have whole :
        element tag body ++ t = openTag tag ++ (body ++ '<' :: ('/' :: tag ++ ['>'] ++ t)) := by
      simp [element, closeTag]
    rw [whole] at occurs
    rcases isInfix_of_isInfix_append_cons (noLess name known)
      (isInfix_of_isInfix_append opens occurs) with inside | later
    · exact absurd (isBrace_of_innermost? inner _ (inside.subset (brace name known))) (by decide)
    · exact isInfix_of_isInfix_append closes later

theorem IsMarkup.unlisting {matcher : Matcher Text} (markup : IsMarkup matcher) :
    Unlisting matcher := by
  cases markup with
  | literal _ _ _ first noSlash => exact unlisting_literally _ first noSlash
  | item => exact unlisting_itemCommand
  | @span names _ _ _ member => exact unlisting_spanCommand names member

/-- Between the lines come closing tags. -/
theorem mem_closeItemsFrom {opened : List Bool} {ls : List Text} {line : Text}
    (member : line ∈ closeItemsFrom opened ls) : line = closeTag "li".toList ∨ line ∈ ls := by
  induction ls generalizing opened with
  | nil => exact absurd member List.not_mem_nil
  | cons first ls ih =>
      rw [closeItemsFrom] at member
      simp only [List.mem_append, List.mem_cons] at member
      rcases member with before | rfl | later
      · rcases (ListMark.of first).step_eq opened with empty | closes
        · rw [empty] at before
          exact absurd before List.not_mem_nil
        · rw [closes] at before
          exact .inl (List.mem_singleton.mp before)
      · exact .inr List.mem_cons_self
      · exact (ih later).imp id (List.mem_cons_of_mem first)

namespace Listless

variable {s : Text}

theorem closeItems (listless : Listless s) : Listless (closeItems s) := by
  intro name known occurs
  have shape : ∀ name ∈ codeEnvironments, Latex.beginEnvironment name ≠ [] ∧
      '\n' ∉ Latex.beginEnvironment name ∧
      ¬ Latex.beginEnvironment name <:+: closeTag "li".toList := by decide
  obtain ⟨nonempty, noNewline, noTag⟩ := shape name known
  obtain ⟨line, member, inside⟩ := exists_line_of_isInfix nonempty noNewline occurs
  rcases mem_closeItemsFrom member with rfl | member
  · exact noTag inside
  · exact listless name known (inside.trans (isInfix_of_mem_lines member))

theorem substituteAll {matchers : List (Matcher Text)}
    (each : ∀ matcher ∈ matchers, IsMarkup matcher)
    (listless : Listless s) : Listless (substituteAll matchers s) := by
  induction matchers generalizing s with
  | nil => exact listless
  | cons matcher matchers ih =>
      rw [List.forall_mem_cons] at each
      exact ih each.2 (each.1.unlisting.listless each.1.respects.keeps listless)

theorem escapeAngles (listless : Listless s) : Listless (escapeAngles s) := by
  have shape : ∀ name ∈ codeEnvironments, '&' ∉ Latex.beginEnvironment name := by decide
  intro name known occurs
  exact listless name known
    (isInfix_of_isInfix_flatMap writesEntities_escapeAngle (shape name known) (by decide) occurs)

end Listless

/-! ## Lines that differ in comments -/

/-- Behind this code the exporter takes a percent sign for the beginning of a comment: there is no
backslash directly before it, once `[fragile]` is taken out. -/
def BeginsComment (code : Text) : Prop :=
  (replace "[fragile]".toList [] code).getLast? ≠ some '\\'

instance (code : Text) : Decidable (BeginsComment code) :=
  inferInstanceAs (Decidable (_ ≠ _))

/-- Lines that differ at most in the text of a comment. It begins behind the code for which `begins`
holds, and holds neither braces nor backslashes. -/
inductive SameLine (begins : Text → Prop) : Text → Text → Prop where
  | refl (line : Text) : SameLine begins line line
  | comment {code first second : Text} (begun : begins code)
      (plain : ∀ c ∈ first ++ second, c ≠ '\\' ∧ isBrace c = false) :
      SameLine begins (code ++ '%' :: first) (code ++ '%' :: second)

/-- The text with which the conversions begin. -/
def prepared (body : Text) : Text := replace "[fragile]".toList [] (escapeAngles body)

theorem prepared_eq (body : Text) :
    prepared body = escapeAngles (replace "[fragile]".toList [] body) :=
  keepsLiteral_escapeAngle.replace_flatMap [] body

/-- Neither step reaches across a percent sign or a line end. -/
theorem prepared_append_cons {c : Char} (kept : escapeAngle c = [c])
    (absent : c ∉ "[fragile]".toList) (s t : Text) :
    prepared (s ++ c :: t) = prepared s ++ c :: prepared t := by
  have written : escapeAngles (s ++ c :: t) = escapeAngles s ++ c :: escapeAngles t := by
    rw [escapeAngles, List.flatMap_append, List.flatMap_cons, kept]
    rfl
  rw [prepared, written]
  exact replace_append_cons absent [] (escapeAngles s) (escapeAngles t)

theorem isRemark_prepared {remark : Text} (oneLine : '\n' ∉ remark)
    (plain : ∀ c ∈ remark, c ≠ '\\' ∧ isBrace c = false) : IsRemark (prepared remark) := by
  have entities : ∀ c ∈ "&ltg;".toList, c ≠ '\n' ∧ c ≠ '\\' ∧ isBrace c = false := by decide
  intro c member
  have escaped : c ∈ escapeAngles remark := by
    by_contra absent
    exact not_mem_replace absent List.not_mem_nil member
  rcases mem_escapeAngles escaped with entity | ⟨inside, -⟩
  · exact entities c entity
  · refine ⟨?_, plain c inside⟩
    rintro rfl
    exact oneLine inside

theorem SameLine.recommented {line other : Text} (same : SameLine BeginsComment line other)
    (oneLine : '\n' ∉ line) (oneLine' : '\n' ∉ other) :
    Recommented false (prepared line) (prepared other) := by
  cases same with
  | refl => exact .refl _ _
  | @comment code first second begun plain =>
      rw [List.forall_mem_append] at plain
      have remark : IsRemark (prepared first) :=
        isRemark_prepared (fun member => oneLine (by simp [member])) plain.1
      have remark' : IsRemark (prepared second) :=
        isRemark_prepared (fun member => oneLine' (by simp [member])) plain.2
      have last : (prepared code).getLast? ≠ some '\\' := by
        rw [prepared_eq]
        exact getLast?_escapeAngles (by decide) begun
      have outside : ((prepared code).getLast?.elim false (· == '\\')) = false := by
        cases found : (prepared code).getLast? with
        | none => rfl
        | some d =>
            exact beq_eq_false_iff_ne.mpr fun same => last (found.trans (congrArg some same))
      rw [prepared_append_cons (by decide) (by decide),
        prepared_append_cons (by decide) (by decide)]
      refine .prepend ?_
      rw [outside]
      exact .last remark remark'

/-- Bodies whose lines differ in comments are related once they are prepared. -/
theorem recommented_of_sameLines {first second : List Text}
    (same : List.Forall₂ (SameLine BeginsComment) first second)
    (oneLine : ∀ line ∈ first, '\n' ∉ line) (oneLine' : ∀ line ∈ second, '\n' ∉ line) :
    Recommented false (prepared (unlines first)) (prepared (unlines second)) := by
  have prepare : ∀ ls : List Text, prepared (unlines ls) = unlines (ls.map prepared) := by
    intro ls
    exact convert_unlines rfl fun line _ t => prepared_append_cons (by decide) (by decide) line t
  rw [prepare, prepare]
  refine .unlines ?_
  induction same with
  | nil => exact .nil
  | cons here _ ih =>
      rw [List.forall_mem_cons] at oneLine oneLine'
      exact .cons (here.recommented oneLine.1 oneLine'.1) (ih oneLine.2 oneLine'.2)

/-! ## The fragment -/

/-- Up to the listings and without the comments, which are all that is left of a body for the rest
of the sequence. -/
theorem fragment_of_listless {body : Text}
    (listless : Listless (replace "[fragile]".toList [] body)) :
    fragment body = trim (convertRest (convertMarkup body)) := by
  have marked : Listless (convertMarkup body) := by
    have begun : Listless (prepared body) := prepared_eq body ▸ listless.escapeAngles
    rw [convertMarkup_eq]
    exact ((begun.substituteAll isMarkup_early).closeItems).substituteAll isMarkup_late
  have taken : takeListings (convertMarkup body) = (convertMarkup body, []) :=
    marked.takeListingsFrom_eq 0
  have put : ∀ t, putListings t [] = t := fun _ => rfl
  rw [fragment_eq, taken, put]

section Bodies

variable {body other : Text}

/-- **Comments do not reach the page.** Two bodies without listings whose lines differ in comments
only have the same fragment, where the percent sign of a comment has no backslash before it. -/
theorem fragment_eq_of_sameLines
    (same : List.Forall₂ (SameLine BeginsComment) (splitAt '\n' body) (splitAt '\n' other))
    (listless : Listless (replace "[fragile]".toList [] body))
    (listless' : Listless (replace "[fragile]".toList [] other)) :
    fragment body = fragment other := by
  have related : Recommented false (prepared body) (prepared other) := by
    have pieces := recommented_of_sameLines same (fun _ => not_mem_of_mem_splitAt)
      fun _ => not_mem_of_mem_splitAt
    rwa [unlines, unlines, join_splitAt, join_splitAt] at pieces
  have converted : Recommented false (convertMarkup body) (convertMarkup other) := by
    rw [convertMarkup_eq, convertMarkup_eq]
    exact ((related.substituteAll isMarkup_early).closeItems).substituteAll isMarkup_late
  rw [fragment_of_listless listless, fragment_of_listless listless', convertRest, convertRest,
    converted.dropComments_eq]

/-- A comment in bold text, behind an escaped percent sign, and one in an item. -/
theorem fragment_eq_of_sameLines_bold :
    fragment "\\textbf\x7b50\\%% one\n now\x7d\n\\item%".toList =
      fragment "\\textbf\x7b50\\%%\n now\x7d\n\\item% [fragile] <two>".toList := by
  have pieces : splitAt '\n' "\\textbf\x7b50\\%% one\n now\x7d\n\\item%".toList =
      ["\\textbf\x7b50\\%".toList ++ '%' :: " one".toList, " now\x7d".toList,
        "\\item".toList ++ '%' :: []] := by decide +kernel
  have pieces' : splitAt '\n' "\\textbf\x7b50\\%%\n now\x7d\n\\item% [fragile] <two>".toList =
      ["\\textbf\x7b50\\%".toList ++ '%' :: [], " now\x7d".toList,
        "\\item".toList ++ '%' :: " [fragile] <two>".toList] := by decide +kernel
  refine fragment_eq_of_sameLines ?_ (by decide +kernel) (by decide +kernel)
  rw [pieces, pieces']
  exact .cons (.comment (by decide +kernel) (by decide)) <| .cons (.refl _) <|
    .cons (.comment (by decide +kernel) (by decide)) .nil

/-- Behind a line break the exporter shows a comment. -/
theorem fragment_ne_of_comment_behind_break :
    ¬ ∀ body other : Text,
      List.Forall₂ (SameLine fun code => Even (Latex.slashesAtEnd code))
        (splitAt '\n' body) (splitAt '\n' other) →
      Listless body → Listless other → fragment body = fragment other := by
  intro equal
  have pieces :
      splitAt '\n' "a\\\\% secret".toList = ["a\\\\".toList ++ '%' :: " secret".toList] := by
    decide +kernel
  have pieces' : splitAt '\n' "a\\\\%".toList = ["a\\\\".toList ++ '%' :: []] := by decide +kernel
  have same := equal "a\\\\% secret".toList "a\\\\%".toList
    (by
      rw [pieces, pieces']
      exact .cons (.comment (by decide) (by decide)) .nil)
    (by decide +kernel) (by decide +kernel)
  revert same
  decide +kernel

end Bodies

end SlideDeck.Html
