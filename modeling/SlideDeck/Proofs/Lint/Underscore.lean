import SlideDeck.Proofs.Latex.Environment
import SlideDeck.Lint.Advice

/-!
# Underscores of guarded lines

On a guarded line no underscore is found that should be escaped
(`Guarded.underscore_not_mem_plainText`).

The spans in which underscores are right are removed one kind after the other. Each of
them begins at a backslash or a dollar sign and ends behind a character that is no
backslash (`Bounded`). Escaped dollar signs go first; from then on no span begins within a
pair of a backslash and its character, and what a removal leaves is guarded again
(`Guarded.removeSpans`). So the escaped underscores are still pairs when their turn comes,
and with them the last underscore goes.
-/

set_option autoImplicit false

namespace SlideDeck.Lint

open SlideDeck SlideDeck.Text SlideDeck.Latex

/-! ## Where spans begin and end -/

/-- Spans of this kind begin at a backslash or a dollar sign, and another character that is
no backslash is their last. -/
def Bounded (span : SpanEnd) : Prop :=
  ∀ s rest, span s = some rest → ∃ first inner last,
    s = first :: (inner ++ last :: rest) ∧ (first = '\\' ∨ first = '$') ∧ last ≠ '\\'

theorem delimitedSpan_eq_some {opening closing s rest : Text}
    (found : delimitedSpan opening closing s = some rest) :
    ∃ inner, s = opening ++ (inner ++ (closing ++ rest)) := by
  obtain ⟨behind, skipped, found⟩ := Option.bind_eq_some_iff.mp found
  obtain ⟨⟨inner, ending⟩, cut, rfl⟩ := Option.map_eq_some_iff.mp found
  obtain ⟨tail, rfl, closed⟩ := splitBefore_eq_some cut
  exact ⟨inner, by rw [skip?_eq_some_iff.mp skipped, skip?_eq_some_iff.mp closed]⟩

theorem bounded_delimitedSpan (first : Char) (opening closing : Text) (last : Char)
    (begins : first = '\\' ∨ first = '$') (ends : last ≠ '\\') :
    Bounded (delimitedSpan (first :: opening) (closing ++ [last])) := by
  intro s rest found
  obtain ⟨inner, rfl⟩ := delimitedSpan_eq_some found
  exact ⟨first, opening ++ (inner ++ closing), last, by simp, begins, ends⟩

theorem bounded_mathSpan : Bounded mathSpan := by
  intro s rest found
  rw [mathSpan.eq_def] at found
  split at found
  · next behind =>
      obtain ⟨⟨inner, tail⟩, cut, rfl⟩ := Option.map_eq_some_iff.mp found
      exact ⟨'$', inner, '$', by rw [(splitOnce_eq_some cut).1], .inr rfl, by decide⟩
  · cases found

theorem bounded_argumentSpan (name : Text) : Bounded (argumentSpan name) := by
  intro s rest found
  obtain ⟨behind, skipped, found⟩ := Option.bind_eq_some_iff.mp found
  obtain ⟨⟨argument, tail⟩, braced, rfl⟩ := Option.map_eq_some_iff.mp found
  rw [skip?_eq_some_iff.mp skipped, braced?_eq_some braced]
  exact ⟨'\\', name ++ '\x7b' :: argument, '\x7d', by simp, .inl rfl, by decide⟩

theorem dropStar_isSuffix (s : Text) : dropStar s <:+ s := by
  rw [dropStar.eq_def]
  split
  · exact List.suffix_cons ..
  · exact List.suffix_rfl

theorem bounded_namingSpan : Bounded namingSpan := by
  intro s rest found
  rw [namingSpan.eq_def] at found
  split at found
  · next behind =>
      split at found
      · obtain ⟨⟨argument, tail⟩, braced, rfl⟩ := Option.map_eq_some_iff.mp found
        have part := ((dropBracketed_isSuffix _).trans (dropStar_isSuffix _)).trans
          (List.dropWhile_suffix (l := behind) Char.isAlpha)
        obtain ⟨front, whole⟩ := part
        rw [braced?_eq_some braced] at whole
        refine ⟨'\\', front ++ '\x7b' :: argument, '\x7d', ?_, .inl rfl, by decide⟩
        rw [← whole]
        simp
      · cases found
  · cases found

/-! ## Removing spans -/

theorem removeSpans_cons_of_none {span : SpanEnd} {c : Char} {s : Text}
    (quiet : span (c :: s) = none) : removeSpans span (c :: s) = c :: removeSpans span s :=
  substitute_cons_of_none (by simp [quiet])

theorem removeSpans_cons_of_some {span : SpanEnd} {c : Char} {s rest : Text}
    (found : span (c :: s) = some rest) (isRest : rest <:+ s) :
    removeSpans span (c :: s) = removeSpans span rest := by
  let matcher : Matcher Text := fun s => (span s).map fun rest => ([], rest)
  have step : substitute matcher (c :: s) = [] ++ substitute matcher rest :=
    substitute_cons_of_some (by simp [matcher, found]) isRest
  exact step

/-- Removing spans writes nothing. -/
theorem mem_of_mem_removeSpans {span : SpanEnd} {s : Text} {c : Char}
    (member : c ∈ removeSpans span s) : c ∈ s := by
  rcases mem_substitute member with kept | ⟨t, replacement, rest, -, found, written⟩
  · exact kept
  · obtain ⟨behind, -, same⟩ := Option.map_eq_some_iff.mp found
    cases same
    cases written

theorem Bounded.eq_none {span : SpanEnd} (bounded : Bounded span) {c : Char} (notSlash : c ≠ '\\')
    (notDollar : c ≠ '$') (s : Text) : span (c :: s) = none := by
  cases found : span (c :: s) with
  | none => rfl
  | some rest =>
      obtain ⟨first, inner, last, whole, begins, -⟩ := bounded _ _ found
      obtain ⟨rfl, -⟩ := List.cons.inj whole
      exact absurd begins (by simp [notSlash, notDollar])

variable {second : Char → Bool} {row : Bool} {s : Text}

/-- Where no dollar sign is escaped, removing bounded spans leaves a guarded text guarded. -/
theorem Bounded.removeSpans {span : SpanEnd} (bounded : Bounded span)
    (noDollar : second '$' = false) (guarded : Guarded second row s) :
    Guarded second row (removeSpans span s) := by
  induction size : s.length using Nat.strong_induction_on generalizing s with
  | _ n ih =>
      subst size
      -- Where a span begins, the text goes on guarded behind it.
      have remove : ∀ {c t rest}, Guarded second row (c :: t) → (c :: t).length ≤ s.length →
          span (c :: t) = some rest → Guarded second row (Lint.removeSpans span (c :: t)) := by
        intro c t rest whole bound found
        obtain ⟨first, inner, last, same, -, notSlash⟩ := bounded _ _ found
        obtain ⟨rfl, rfl⟩ := List.cons.inj same
        rw [removeSpans_cons_of_some found ⟨inner ++ [last], by simp⟩]
        rw [← List.cons_append] at whole
        refine ih _ ?_ (whole.behind notSlash) rfl
        simp only [List.length_cons, List.length_append] at bound
        omega
      cases guarded with
      | nil => exact .nil
      | rowEnd =>
          have absent : ∀ s, (∀ c ∈ s, c = '\\') → span s = none := by
            intro s slashes
            cases found : span s with
            | none => rfl
            | some rest =>
                obtain ⟨first, inner, last, rfl, -, notSlash⟩ := bounded _ _ found
                exact absurd (slashes last (by simp)) notSlash
          rw [removeSpans_cons_of_none (absent _ (by simp)),
            removeSpans_cons_of_none (absent _ (by simp))]
          exact .rowEnd
      | @char _ c t loose rest =>
          cases found : span (c :: t) with
          | some behind => exact remove (.char loose rest) (by simp) found
          | none =>
              rw [removeSpans_cons_of_none found]
              exact .char loose (ih _ (by simp) rest rfl)
      | @pair _ c t other follows rest =>
          cases found : span ('\\' :: c :: t) with
          | some behind => exact remove (.pair other follows rest) (by simp) found
          | none =>
              have notDollar : c ≠ '$' := by
                rintro rfl
                simp [follows] at noDollar
              rw [removeSpans_cons_of_none found,
                removeSpans_cons_of_none (bounded.eq_none other notDollar t)]
              have shorter : t.length < ('\\' :: c :: t).length := by
                rw [List.length_cons, List.length_cons]
                omega
              exact .pair other follows (ih _ shorter rest rfl)

/-- Removing an escaped character leaves the other pairs. -/
theorem removeEscaped {c : Char} (other : c ≠ '\\') (guarded : Guarded second row s) :
    Guarded (fun d => second d && d != c) row (removeSpans (literalSpan ['\\', c]) s) := by
  have absent : ∀ d t, d ≠ '\\' → literalSpan ['\\', c] (d :: t) = none := by
    intro d t notSlash
    simp [literalSpan, skip?, Ne.symm notSlash]
  induction guarded with
  | nil => exact .nil
  | rowEnd =>
      have apart : literalSpan ['\\', c] ['\\', '\\'] = none := by simp [literalSpan, skip?, other]
      have short : literalSpan ['\\', c] ['\\'] = none := by simp [literalSpan, skip?]
      rw [removeSpans_cons_of_none apart, removeSpans_cons_of_none short]
      exact .rowEnd
  | @char _ d t loose _ ih =>
      rw [removeSpans_cons_of_none (absent d t (isLoose_iff.mp loose).1)]
      exact .char loose ih
  | @pair _ d t notSlash follows _ ih =>
      by_cases same : d = c
      · subst same
        have found : literalSpan ['\\', d] ('\\' :: d :: t) = some t := by
          simp [literalSpan, skip?]
        rw [removeSpans_cons_of_some found (List.suffix_cons d t)]
        exact ih
      · have apart : literalSpan ['\\', c] ('\\' :: d :: t) = none := by
          simp [literalSpan, skip?, Ne.symm same]
        rw [removeSpans_cons_of_none apart, removeSpans_cons_of_none (absent d t notSlash)]
        exact .pair notSlash (by simp [follows, same]) ih

/-! ## The text outside of all spans -/

theorem underscore_not_mem (alone : second '_' = false) (guarded : Guarded second row s) :
    '_' ∉ s := by
  induction guarded with
  | nil => simp
  | rowEnd => decide
  | char loose _ ih =>
      have notScore := (isLoose_iff.mp loose).2.2
      simp [Ne.symm notScore, ih]
  | @pair _ c _ _ follows _ ih =>
      have notScore : c ≠ '_' := by
        rintro rfl
        simp [follows] at alone
      simp [Ne.symm notScore, ih]

/-- The spans between the escaped dollar signs and the escaped underscores. -/
def innerSpans : List SpanEnd := [
  delimitedSpan "$$".toList "$$".toList,
  mathSpan,
  delimitedSpan "\\(".toList "\\)".toList,
  delimitedSpan "\\[".toList "\\]".toList,
  argumentSpan "texttt".toList,
  namingSpan]

theorem bounded_innerSpans : ∀ span ∈ innerSpans, Bounded span := by
  simp only [innerSpans, List.forall_mem_cons, List.not_mem_nil, false_imp_iff, implies_true,
    and_true]
  exact ⟨bounded_delimitedSpan '$' ['$'] ['$'] '$' (.inr rfl) (by decide), bounded_mathSpan,
    bounded_delimitedSpan '\\' ['('] ['\\'] ')' (.inl rfl) (by decide),
    bounded_delimitedSpan '\\' ['['] ['\\'] ']' (.inl rfl) (by decide),
    bounded_argumentSpan _, bounded_namingSpan⟩

theorem removeAllSpans {spans : List SpanEnd} (bounded : ∀ span ∈ spans, Bounded span)
    (noDollar : second '$' = false) (guarded : Guarded second row s) :
    Guarded second row (spans.foldl (fun s span => removeSpans span s) s) := by
  induction spans generalizing s with
  | nil => exact guarded
  | cons span spans ih =>
      rw [List.forall_mem_cons] at bounded
      exact ih bounded.2 (bounded.1.removeSpans noDollar guarded)

/-- **Escaped underscores are seen to be escaped.** On a guarded line none is left outside
of the spans in which it is right. -/
theorem underscore_not_mem_plainText (guarded : Guarded second row s) : '_' ∉ plainText s := by
  have order : underscoreSpans =
      literalSpan ['\\', '$'] :: (innerSpans ++ [literalSpan ['\\', '_'], commandSpan]) := rfl
  rw [plainText, guarded.codeOf, order, List.foldl_cons, List.foldl_append]
  have dollars := removeEscaped (by decide : '$' ≠ '\\') guarded
  have inner := removeAllSpans bounded_innerSpans (by simp) dollars
  have underscores := removeEscaped (by decide : '_' ≠ '\\') inner
  exact fun member => underscore_not_mem (by simp) underscores (mem_of_mem_removeSpans member)

end SlideDeck.Lint
