import SlideDeck.Proofs.Text.Search
import SlideDeck.Html.Element

/-!
# Entities

What a browser shows for escaped text (`decodeEntities`) is the text
(`decodeEntities_escapeMarkup`).

The exporter escapes angle brackets before it looks for code, and has to take that back
in code. It does so by replacing the entities, which gives the text back if it did not hold
such entities itself (`unescapeAngles_escapeAngles`). Escaping makes nothing occur that
did not occur before, unless it begins with a part of an entity
(`isInfix_of_isInfix_flatMap`).
-/

set_option autoImplicit false

namespace SlideDeck.Html

open SlideDeck SlideDeck.Text

/-! ## Decoding -/

/-- The entities of escaped text, with what they stand for. -/
def entities : List (Text × Text) := [(lessThan, ['<']), (greaterThan, ['>']), (ampersand, ['&'])]

/-- Matches one entity, with what it stands for. -/
def entity? : Matcher Text := fun s =>
  entities.findSome? fun (written, meant) => literally written meant s

/-- The text that escaped text stands for. -/
def decodeEntities (s : Text) : Text := substitute entity? s

/-- Entities begin with an ampersand. -/
theorem entity?_eq_none {c : Char} (other : c ≠ '&') (cs : Text) : entity? (c :: cs) = none := by
  rw [entity?, List.findSome?_eq_none_iff]
  intro entry member
  have begins : ∀ entry ∈ entities, entry.1.head? = some '&' := by decide
  obtain ⟨tail, written⟩ := List.head?_eq_some_iff.mp (begins entry member)
  simp only [literally, written, skip?, if_neg other.symm, Option.map_none]

/-- Escaped text stands for the text. -/
theorem decodeEntities_escapeMarkup (s : Text) : decodeEntities (s.flatMap escapeMarkup) = s := by
  rw [decodeEntities]
  induction s with
  | nil => rfl
  | cons c s ih =>
      rw [List.flatMap_cons]
      generalize s.flatMap escapeMarkup = rest at ih
      have meets : ∀ (tail : Text) {meant : Char},
          entity? ('&' :: (tail ++ rest)) = some ([meant], rest) →
            substitute entity? ('&' :: tail ++ rest) = meant :: s := by
        intro tail meant found
        rw [List.cons_append, substitute_cons_of_some found (List.suffix_append tail rest), ih]
        rfl
      by_cases isAmpersand : c = '&'
      · subst isAmpersand
        exact meets "amp;".toList rfl
      · by_cases isLess : c = '<'
        · subst isLess
          exact meets "lt;".toList rfl
        · by_cases isGreater : c = '>'
          · subst isGreater
            exact meets "gt;".toList rfl
          · have kept : escapeMarkup c = [c] := by
              simp [escapeMarkup, escapeAngle, isAmpersand, isLess, isGreater]
            rw [kept, List.singleton_append,
              substitute_cons_of_none (entity?_eq_none isAmpersand rest), ih]

/-! ## What occurs in escaped text -/

theorem angles_not_mem_escapeAngle (c : Char) : '<' ∉ escapeAngle c ∧ '>' ∉ escapeAngle c := by
  unfold escapeAngle
  split
  · decide
  · split
    · decide
    · simp_all [eq_comm]

theorem angles_not_mem_escapeAngles (s : Text) : '<' ∉ escapeAngles s ∧ '>' ∉ escapeAngles s := by
  constructor
  all_goals
    intro member
    obtain ⟨c, -, here⟩ := List.mem_flatMap.mp member
  · exact (angles_not_mem_escapeAngle c).1 here
  · exact (angles_not_mem_escapeAngle c).2 here

theorem angles_not_mem_escapeMarkup (c : Char) : '<' ∉ escapeMarkup c ∧ '>' ∉ escapeMarkup c := by
  unfold escapeMarkup
  split
  · decide
  · exact angles_not_mem_escapeAngle c

/-- A way to write characters: each as itself or as an entity. -/
def WritesEntities (write : Char → Text) : Prop :=
  ∀ c, write c = [c] ∨ ∃ tail, write c = '&' :: tail ∧ tail ⊆ "ltg;".toList

theorem writesEntities_escapeAngle : WritesEntities escapeAngle := by
  intro c
  unfold escapeAngle
  split
  · exact .inr ⟨"lt;".toList, rfl, by decide⟩
  · split
    · exact .inr ⟨"gt;".toList, rfl, by decide⟩
    · exact .inl rfl

section Occurrences

variable {write : Char → Text} {literal s : Text}

theorem isPrefix_of_isPrefix_flatMap (writes : WritesEntities write) (absent : '&' ∉ literal)
    (begins : literal <+: s.flatMap write) : literal <+: s := by
  induction literal generalizing s with
  | nil => exact List.nil_prefix
  | cons d literal ih =>
      rw [List.mem_cons, not_or] at absent
      cases s with
      | nil => exact absurd (List.prefix_nil.mp begins) (List.cons_ne_nil d literal)
      | cons c s =>
          rw [List.flatMap_cons] at begins
          rcases writes c with same | ⟨tail, same, -⟩
          · rw [same, List.singleton_append, List.cons_prefix_cons] at begins
            exact List.cons_prefix_cons.mpr ⟨begins.1, ih absent.2 begins.2⟩
          · rw [same, List.cons_append, List.cons_prefix_cons] at begins
            exact absurd begins.1.symm absent.1

theorem isInfix_of_isInfix_flatMap {d : Char} (writes : WritesEntities write)
    (absent : '&' ∉ d :: literal) (first : d ∉ "ltg;".toList)
    (occurs : d :: literal <:+: s.flatMap write) : d :: literal <:+: s := by
  induction s with
  | nil => exact occurs
  | cons c s ih =>
      have here := isPrefix_of_isPrefix_flatMap (s := c :: s) writes absent
      rw [List.flatMap_cons] at occurs here
      rcases writes c with same | ⟨tail, same, part⟩
      · rw [same, List.singleton_append] at occurs here
        rcases List.infix_cons_iff.mp occurs with begins | later
        · exact (here begins).isInfix
        · exact (ih later).trans (List.suffix_cons c s).isInfix
      · have outside : d ∉ write c := by
          rw [same, List.mem_cons, not_or]
          exact ⟨fun isAmpersand => absent (isAmpersand ▸ List.mem_cons_self),
            fun member => first (part member)⟩
        exact (ih (isInfix_of_isInfix_append outside occurs)).trans (List.suffix_cons c s).isInfix

end Occurrences

/-! ## Taking an escape back -/

/-- Replacing what some characters were written as gives them back, if nothing else that is
written reads like it. -/
theorem replace_flatMap (first : Char) (literal : Text) {replacement : Text}
    {write meant : Char → Text} {s : Text}
    (each : ∀ c behind, c :: behind <:+ s →
      (write c = first :: literal ∧ meant c = replacement) ∨
      (meant c = write c ∧ ∃ d tail, write c = d :: tail ∧ first ∉ tail ∧
        ¬ first :: literal <+: d :: (tail ++ behind.flatMap write))) :
    replace (first :: literal) replacement (s.flatMap write) = s.flatMap meant := by
  induction s with
  | nil => rfl
  | cons c s ih =>
      have later := ih fun d behind part => each d behind (part.trans (List.suffix_cons c s))
      rw [replace] at later ⊢
      rw [List.flatMap_cons, List.flatMap_cons]
      rcases each c s List.suffix_rfl with
        ⟨written, replaced⟩ | ⟨same, d, tail, written, quiet, differs⟩
      · have found : literally (first :: literal) replacement
            (first :: (literal ++ s.flatMap write)) = some (replacement, s.flatMap write) := by
          have skipped : skip? (first :: literal) (first :: (literal ++ s.flatMap write)) =
              some (s.flatMap write) := skip?_eq_some_iff.mpr rfl
          rw [literally, skipped]
          rfl
        rw [written, replaced, List.cons_append,
          substitute_cons_of_some found (List.suffix_append literal _), later]
      · have here : literally (first :: literal) replacement
            (d :: (tail ++ s.flatMap write)) = none := by
          rw [literally, skip?_eq_none differs]
          rfl
        have inside :
            ∀ e ∈ tail, ∀ es, literally (first :: literal) replacement (e :: es) = none := by
          intro e member es
          have other : first ≠ e := fun isFirst => quiet (isFirst ▸ member)
          simp [literally, skip?, other]
        rw [same, written, List.cons_append, substitute_cons_of_none here,
          substitute_append_of_quiet inside, later, List.cons_append]

/-- One character with closing angle brackets as entities. -/
def escapeGreater (c : Char) : Text := if c = '>' then greaterThan else [c]

theorem writesEntities_escapeGreater : WritesEntities escapeGreater := by
  intro c
  unfold escapeGreater
  split
  · exact .inr ⟨"gt;".toList, rfl, by decide⟩
  · exact .inl rfl

section Unescape

variable {s : Text}

theorem replace_lessThan (absent : ¬ lessThan <:+: s) :
    replace lessThan ['<'] (escapeAngles s) = s.flatMap escapeGreater := by
  refine replace_flatMap '&' "lt;".toList fun c behind part => ?_
  by_cases isLess : c = '<'
  · subst isLess
    exact .inl ⟨rfl, rfl⟩
  · refine .inr ⟨by simp [escapeGreater, escapeAngle, isLess], ?_⟩
    by_cases isGreater : c = '>'
    · subst isGreater
      exact ⟨'&', "gt;".toList, rfl, by decide, by simp⟩
    · refine ⟨c, [], by simp [escapeAngle, isLess, isGreater], by simp, fun begins => absent ?_⟩
      obtain ⟨rfl, rest⟩ := List.cons_prefix_cons.mp begins
      have here := isPrefix_of_isPrefix_flatMap writesEntities_escapeAngle (by decide) rest
      exact (List.cons_prefix_cons.mpr ⟨rfl, here⟩).isInfix.trans part.isInfix

theorem replace_greaterThan (absent : ¬ greaterThan <:+: s) :
    replace greaterThan ['>'] (s.flatMap escapeGreater) = s := by
  refine (replace_flatMap '&' "gt;".toList fun c behind part => ?_).trans
    (List.flatMap_singleton' s)
  by_cases isGreater : c = '>'
  · subst isGreater
    exact .inl ⟨rfl, rfl⟩
  · refine .inr ⟨by simp [escapeGreater, isGreater], ?_⟩
    refine ⟨c, [], by simp [escapeGreater, isGreater], by simp, fun begins => absent ?_⟩
    obtain ⟨rfl, rest⟩ := List.cons_prefix_cons.mp begins
    have here := isPrefix_of_isPrefix_flatMap writesEntities_escapeGreater (by decide) rest
    exact (List.cons_prefix_cons.mpr ⟨rfl, here⟩).isInfix.trans part.isInfix

/-- Text without entities of angle brackets comes back. -/
theorem unescapeAngles_escapeAngles (noLess : ¬ lessThan <:+: s)
    (noGreater : ¬ greaterThan <:+: s) :
    unescapeAngles (escapeAngles s) = s := by
  rw [unescapeAngles, replace_lessThan noLess, replace_greaterThan noGreater]

end Unescape

end SlideDeck.Html
