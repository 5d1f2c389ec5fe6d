import Mathlib.Data.List.Chain
import SlideDeck.Proofs.Html.Commands

/-!
# No command is left

Where no listing is taken out of a page, no backslash stands before a letter in its fragment
(`no_command_in_fragment`). Removing commands joins texts that were apart, so it does not suffice
that the last of these steps finds every command in the text that it reads.

What carries the argument is the pair of a backslash and the character behind it (`Unfollowed`).
Once the line breaks are replaced, no backslash follows another. From then on whatever is cut out
begins with a backslash, and no backslash is put in its place (`Cuts`), so behind a backslash that
stays stands what stood there before, or nothing has been there to begin with
(`unfollowed_substitute`). The step that removes commands by their names leaves neither a letter
nor a backslash behind a backslash, and the steps behind it bring none there.
-/

set_option autoImplicit false

namespace SlideDeck.Html

open SlideDeck SlideDeck.Text SlideDeck.Latex

/-! ## Behind a backslash -/

/-- No backslash stands directly before a character of the kind. -/
def Unfollowed (kind : Char → Bool) (s : Text) : Prop :=
  s.IsChain fun c d => c = '\\' → kind d = false

/-- The matches of the matcher begin with a backslash, or with a character that stays in front of
what is put there. No backslash is put there. -/
def Cuts (matcher : Matcher Text) : Prop :=
  ∀ ⦃c : Char⦄ ⦃cs replacement rest : Text⦄, matcher (c :: cs) = some (replacement, rest) →
    rest <:+ cs ∧ '\\' ∉ replacement ∧ (c = '\\' ∨ replacement.head? = some c)

section Unfollowed

variable {kind : Char → Bool} {s : Text} {matcher : Matcher Text}

theorem Unfollowed.of_not_mem (absent : '\\' ∉ s) : Unfollowed kind s := by
  induction s with
  | nil => exact .nil
  | cons c s ih =>
      rw [List.mem_cons, not_or] at absent
      exact List.isChain_cons.mpr ⟨fun _ _ slash => absurd slash.symm absent.1, ih absent.2⟩

/-- A character that is no backslash stays in front. -/
theorem Cuts.head?_substitute (cuts : Cuts matcher) {d : Char} (other : d ≠ '\\') (t : Text) :
    (substitute matcher (d :: t)).head? = some d := by
  cases found : matcher (d :: t) with
  | none => rw [substitute_cons_of_none found, List.head?_cons]
  | some answer =>
      obtain ⟨isRest, -, slash | stays⟩ := cuts found
      · exact absurd slash other
      · rw [substitute_cons_of_some found isRest, List.head?_append, stays, Option.some_or]

/-- Where every backslash before a character of the kind begins a match, none of them is left, and
none comes about. -/
theorem unfollowed_substitute (cuts : Cuts matcher) (self : kind '\\' = true)
    (caught : ∀ d t, kind d = true → '\\' :: d :: t <:+ s → matcher ('\\' :: d :: t) ≠ none) :
    Unfollowed kind (substitute matcher s) := by
  induction s using pass_induction matcher with
  | nil => exact .nil
  | found c s replacement rest found ih =>
      obtain ⟨isRest, plain, -⟩ := cuts found
      have later := ih isRest fun d t known part =>
        caught d t known (part.trans (isRest.trans (List.suffix_cons c s)))
      rw [substitute_cons_of_some found isRest]
      refine List.isChain_append.mpr ⟨Unfollowed.of_not_mem plain, later, ?_⟩
      intro last isLast _ _ slash
      exact absurd (slash ▸ List.mem_of_mem_getLast? isLast) plain
  | quiet c s unmatched ih =>
      have later := ih fun d t known part => caught d t known (part.trans (List.suffix_cons c s))
      rw [substitute_cons_of_none unmatched]
      refine List.isChain_cons.mpr ⟨?_, later⟩
      rintro first isFirst rfl
      cases s with
      | nil => cases isFirst
      | cons d t =>
          cases known : kind d with
          | true => exact absurd unmatched (caught d t known List.suffix_rfl)
          | false =>
              -- what stood behind the backslash is no backslash, so it stands there still
              have other : d ≠ '\\' := by
                rintro rfl
                rw [self] at known
                cases known
              rw [cuts.head?_substitute other, Option.mem_some_iff] at isFirst
              rw [← isFirst]
              exact known

namespace Unfollowed

theorem suffix {d : Char} {t : Text} (unfollowed : Unfollowed kind s)
    (behind : '\\' :: d :: t <:+ s) :
    kind d = false :=
  (List.isChain_cons_cons.mp (List.IsChain.suffix unfollowed behind)).1 rfl

/-- Cutting brings nothing of the kind behind a backslash. -/
theorem substitute (unfollowed : Unfollowed kind s) (cuts : Cuts matcher)
    (self : kind '\\' = true) :
    Unfollowed kind (Text.substitute matcher s) :=
  unfollowed_substitute cuts self fun d t known behind =>
    absurd known (by rw [unfollowed.suffix behind]; exact Bool.false_ne_true)

/-- Braces behind a backslash stay. -/
theorem dropGroupBracesFrom (unfollowed : Unfollowed kind s) (escaped : Bool) :
    Unfollowed kind (Html.dropGroupBracesFrom escaped s) := by
  induction s generalizing escaped with
  | nil => exact .nil
  | cons c s ih =>
      have rest := ih (List.isChain_cons.mp unfollowed).2
      rw [Html.dropGroupBracesFrom]
      split
      · exact rest false
      · refine List.isChain_cons.mpr ⟨?_, rest _⟩
        rintro first isFirst rfl
        cases s with
        | nil => cases isFirst
        | cons d s =>
            have stays :
                Html.dropGroupBracesFrom true (d :: s) =
                  d :: Html.dropGroupBracesFrom (d == '\\') s := by
              rw [Html.dropGroupBracesFrom, Bool.not_true, Bool.and_false,
                if_neg Bool.false_ne_true]
            rw [beq_self_eq_true, stays, List.head?_cons, Option.mem_some_iff] at isFirst
            rw [← isFirst]
            exact unfollowed.suffix List.suffix_rfl

theorem trim (unfollowed : Unfollowed kind s) : Unfollowed kind (Text.trim s) :=
  List.IsChain.infix unfollowed (trim_isInfix s)

end Unfollowed

end Unfollowed

/-! ## The cuts -/

/-- What begins with one of some texts begins with a backslash if all of them do. -/
theorem eq_slash_of_ledBy {α : Type} {literals : List Text} {look : Text → Option α}
    (led : LedBy literals look) (slashes : ∀ literal ∈ literals, literal.head? = some '\\')
    {c : Char} {cs : Text} {found : α} (answer : look (c :: cs) = some found) : c = '\\' := by
  obtain ⟨literal, member, begins⟩ := led _ (answer ▸ Option.some_ne_none found)
  have first := slashes literal member
  cases literal with
  | nil => cases first
  | cons d literal =>
      rw [← (List.cons_prefix_cons.mp begins).1]
      exact Option.some.inj first

theorem cuts_literally {literal replacement : Text} (slash : literal.head? = some '\\')
    (plain : '\\' ∉ replacement) : Cuts (literally literal replacement) := by
  intro c cs put rest matched
  obtain ⟨behind, skipped, same⟩ := Option.map_eq_some_iff.mp matched
  cases same
  cases literal with
  | nil => cases slash
  | cons d literal =>
      obtain ⟨rfl, rfl⟩ := List.cons.inj (skip?_eq_some_iff.mp skipped)
      exact ⟨List.suffix_append _ _, plain, .inl (Option.some.inj slash)⟩

theorem cuts_remove {span : Text → Option Text} (keeps : KeepsRest span)
    (slash : ∀ {c cs rest}, span (c :: cs) = some rest → c = '\\') :
    Cuts fun s => (span s).map fun rest => ([], rest) := by
  intro c cs put rest matched
  have isRest := keeps.remove.isSuffix matched
  obtain ⟨behind, found, same⟩ := Option.map_eq_some_iff.mp matched
  cases same
  exact ⟨isRest, List.not_mem_nil, .inl (slash found)⟩

theorem cuts_centering :
    Cuts fun s =>
      (centering.findSome? fun literal => skip? literal s).map fun rest => ([], rest) := by
  have keeps : KeepsRest (skipAny? centering) := keepsRest_skipAny (by decide)
  exact cuts_remove keeps (eq_slash_of_ledBy ledBy_centering (by decide))

theorem cuts_sizeCommand : Cuts fun s => (sizeCommand? s).map fun rest => ([], rest) :=
  cuts_remove keepsRest_sizeCommand (eq_slash_of_ledBy ledBy_sizeCommand (by decide))

theorem cuts_picture : Cuts picture? := by
  intro c cs put rest matched
  have led : LedBy [beginEnvironment "tikzpicture".toList] picture? := (LedBy.skip _).bind _
  refine ⟨keeps_picture.isSuffix matched, ?_, .inl (eq_slash_of_ledBy led (by decide) matched)⟩
  obtain ⟨behind, -, split⟩ := Option.bind_eq_some_iff.mp matched
  obtain ⟨parts, -, same⟩ := Option.map_eq_some_iff.mp split
  cases same
  decide

theorem eq_slash_of_commandName {c : Char} {cs rest : Text}
    (found : commandName? (c :: cs) = some rest) :
    c = '\\' := by
  obtain ⟨d, behind, star, whole, -⟩ := commandName?_eq_some found
  exact (List.cons.inj whole).1

theorem cuts_commandName : Cuts fun s => (commandName? s).map fun rest => ([], rest) :=
  cuts_remove keepsRest_commandName eq_slash_of_commandName

theorem cuts_commandWithArgument : Cuts fun s =>
    (commandWithArgument? s).map fun rest => ([], rest) :=
  cuts_remove keepsRest_commandWithArgument fun found => by
    obtain ⟨behind, named, -⟩ := Option.bind_eq_some_iff.mp found
    exact eq_slash_of_commandName named

theorem cuts_gap : Cuts gap? := by
  intro c cs put rest matched
  have isRest := keeps_gap.isSuffix matched
  obtain ⟨behind, same, -, rfl, -⟩ := gap?_eq_some matched
  obtain ⟨rfl, -⟩ := List.cons.inj same
  exact ⟨isRest, by decide, .inr rfl⟩

/-! ## The steps -/

/-- What a command goes on with, and the character that begins one. -/
def isCommandStart (c : Char) : Bool := c.isAlpha || c == '\\'

/-- Behind the line breaks, no backslash follows another. -/
theorem unfollowed_rowEnd (s : Text) :
    Unfollowed (· == '\\') (replace rowEnd (openTag "br".toList) s) := by
  refine unfollowed_substitute (cuts_literally rfl (by decide)) rfl fun d t known _ quiet => ?_
  obtain rfl : d = '\\' := eq_of_beq known
  cases quiet

/-- Where no backslash follows another, removing the commands leaves none before a letter. -/
theorem unfollowed_dropCommands {s : Text} (single : Unfollowed (· == '\\') s) :
    Unfollowed isCommandStart (dropCommands s) := by
  have uncentered := single.substitute cuts_centering rfl
  have unsized := uncentered.substitute cuts_sizeCommand rfl
  have undrawn := unsized.substitute cuts_picture rfl
  have bare := undrawn.substitute cuts_commandWithArgument rfl
  refine unfollowed_substitute cuts_commandName rfl fun d t known behind quiet => ?_
  rw [isCommandStart, bare.suffix behind, Bool.or_false] at known
  rw [commandName?, if_pos known] at quiet
  cases quiet

theorem Unfollowed.resolveEscapes {kind : Char → Bool} {s : Text} (unfollowed : Unfollowed kind s)
    (self : kind '\\' = true) : Unfollowed kind (resolveEscapes s) := by
  have each : ∀ entry ∈ escapes, entry.1.head? = some '\\' ∧ '\\' ∉ entry.2 := by decide
  refine List.foldlRecOn escapes _ unfollowed fun s unfollowed entry member => ?_
  obtain ⟨slash, plain⟩ := each entry member
  exact unfollowed.substitute (cuts_literally slash plain) self

/-- Behind all conversions, no backslash stands before a letter. -/
theorem unfollowed_convertRest (s : Text) : Unfollowed isCommandStart (convertRest s) := by
  have dropped := unfollowed_dropCommands (unfollowed_rowEnd (convertTables (dropComments s)))
  have resolved := (dropped.dropGroupBracesFrom false).resolveEscapes rfl
  rw [convertRest, collapseGaps, dropGroupBraces]
  exact resolved.substitute cuts_gap rfl

/-- **No command is left in a page without listings.** No backslash stands before a letter in the
fragment, whatever the body was. -/
theorem no_command_in_fragment {body : Text} (bare : (takeListings (convertMarkup body)).2 = [])
    {c : Char} (letter : c.isAlpha = true) : ¬ ['\\', c] <:+: fragment body := by
  intro occurs
  have whole : fragment body = trim (convertRest (takeListings (convertMarkup body)).1) := by
    rw [fragment_eq, bare]
    rfl
  rw [whole] at occurs
  have left := (unfollowed_convertRest (takeListings (convertMarkup body)).1).trim
  have pair : Unfollowed isCommandStart ['\\', c] := List.IsChain.infix left occurs
  have other := pair.suffix List.suffix_rfl
  rw [isCommandStart, letter, Bool.true_or] at other
  cases other

/-- Commands and escaped braces behind runs of backslashes, with braces between. -/
theorem no_command_in_fragment_runs :
    ¬ ['\\', 's'] <:+: fragment ("\\\\\\small\\foo[x]\x7by\x7dsmall \\\x7b\\b\x7d\\\x7b\x7dsmall" ++
      "\\\\\\\\\\\x7bs\x7d\\emph\x7b\\a\x7b\x7ds\x7d").toList :=
  no_command_in_fragment (by decide +kernel) (by decide)

end SlideDeck.Html
