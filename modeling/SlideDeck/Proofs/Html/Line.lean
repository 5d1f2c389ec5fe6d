import SlideDeck.Proofs.Html.Closing
import SlideDeck.Proofs.Text.Replacement

/-!
# A formatted line as a fragment

Most conversions of a fragment look for environments, items, listings or tables. There are none
in a line of formatted text, so they leave it alone, and what is left of the sequence are the
conversions of symbols, emphasis, commands, braces and escapes (`fragment_line`).

The text `[fragile]` is taken out first, wherever it stands. It is no part of a token, so what is
left is formatted too (`Formatted.remove_plain`).
-/

set_option autoImplicit false

namespace SlideDeck

open SlideDeck.Text SlideDeck.Latex

/-! ## Taking plain text out -/

namespace Inline

variable {depth last : Nat} {c : Char} {s : Text}

/-- A plain character is a token of its own. -/
theorem IsToken.eq_plain {t : Text} (token : IsToken depth (c :: t) last)
    (plain : isPlain c = true) :
    t = [] ∧ last = depth := by
  have notSlash : c ≠ '\\' := by
    rintro rfl
    exact absurd plain (by decide)
  generalize whole : c :: t = w at token
  cases token with
  | plain _ => exact ⟨(List.cons.inj whole).2, rfl⟩
  | escaped _ => exact absurd (List.cons.inj whole).1 notSlash
  | symbol _ => exact absurd (List.cons.inj whole).1 notSlash
  | opening _ => exact absurd (List.cons.inj whole).1 notSlash
  | closing =>
      obtain ⟨rfl, -⟩ := List.cons.inj whole
      exact absurd plain (by decide)

/-- A token holds a plain character that is no letter only if it is that character. -/
theorem IsToken.not_mem {t : Text} (token : IsToken depth t last) (plain : isPlain c = true)
    (noLetter : c.isAlpha = false) (other : t ≠ [c]) : c ∉ t := by
  intro member
  have absent : ∀ {u : Text}, (∀ d ∈ u, d.isAlpha = true ∨ isPlain d = false) → c ∉ u := by
    intro u each inside
    rcases each c inside with letter | special
    · simp [noLetter] at letter
    · simp [plain] at special
  cases token with
  | plain _ => exact other (by rw [List.mem_singleton.mp member])
  | @escaped _ d escaped =>
      refine absent (fun e inside => .inr ?_) member
      simp only [List.mem_cons, List.not_mem_nil, or_false] at inside
      rcases inside with rfl | rfl
      · decide
      · simp [isPlain, escaped]
  | @symbol _ name known =>
      have each : ∀ name ∈ symbolNames, ∀ d ∈ Latex.symbol name, d.isAlpha = true ∨
          isPlain d = false := by
        decide
      exact absent (each name known) member
  | @opening _ name known =>
      have each : ∀ name ∈ styleNames, ∀ d ∈ '\\' :: name ++ ['\x7b'],
          d.isAlpha = true ∨ isPlain d = false := by decide
      exact absent (each name known) member
  | closing => exact absent (by decide) member

namespace Formatted

theorem behind_plain {t : Text} (plain : ∀ c ∈ t, isPlain c = true)
    (formatted : Formatted depth (t ++ s) last) : Formatted depth s last := by
  induction t with
  | nil => exact formatted
  | cons c t ih =>
      rw [List.forall_mem_cons] at plain
      refine ih plain.2 ?_
      generalize whole : c :: t ++ s = u at formatted
      cases formatted with
      | nil => cases whole
      | token token rest =>
          obtain ⟨d, tail, rfl⟩ := List.exists_cons_of_ne_nil token.ne_nil
          obtain ⟨rfl, same⟩ := List.cons.inj whole
          obtain ⟨rfl, rfl⟩ := token.eq_plain plain.1
          have here : t ++ s = _ := same
          rw [here]
          exact rest

theorem of_plain (plain : ∀ c ∈ s, isPlain c = true) : Formatted depth s depth := by
  induction s with
  | nil => exact .nil
  | cons c s ih =>
      rw [List.forall_mem_cons] at plain
      exact .token (.plain plain.1) (ih plain.2)

/-- **Plain text can be replaced by plain text in formatted text.** The induction is on the length,
since an occurrence is passed as a whole. -/
theorem replace_plain {literal replacement : Text} (noLetter : c.isAlpha = false)
    (plain : ∀ d ∈ c :: literal, isPlain d = true) (new : ∀ d ∈ replacement, isPlain d = true)
    (formatted : Formatted depth s last) :
    Formatted depth (replace (c :: literal) replacement s) last := by
  induction size : s.length using Nat.strong_induction_on generalizing depth s with
  | _ n ih =>
      subst size
      by_cases begins : c :: literal <+: s
      · obtain ⟨rest, rfl⟩ := begins
        have shorter : rest.length < (c :: literal ++ rest).length := by
          rw [List.length_append, List.length_cons]
          omega
        rw [replace_append_self]
        exact (of_plain new).append (ih rest.length shorter (formatted.behind_plain plain) rfl)
      · cases formatted with
        | nil => exact .nil
        | @token _ _ _ t s token rest =>
            have shorter : s.length < (t ++ s).length := by
              simpa using List.length_pos_iff.mpr token.ne_nil
            have later := ih s.length shorter rest rfl
            by_cases alone : t = [c]
            · subst alone
              rw [List.singleton_append] at begins ⊢
              rw [replace_cons _ begins]
              exact .token token later
            · have silent : Silent (literally (c :: literal) replacement) t :=
                (silent_skip (avoids_of_not_mem
                  (token.not_mem (plain c List.mem_cons_self) noLetter alone))).map _
              rw [replace, silent.substitute_append]
              exact .token token later

/-- Plain text can be taken out of formatted text. -/
theorem remove_plain {literal : Text} (noLetter : c.isAlpha = false)
    (plain : ∀ d ∈ c :: literal, isPlain d = true) (formatted : Formatted depth s last) :
    Formatted depth (replace (c :: literal) [] s) last :=
  formatted.replace_plain noLetter plain (List.forall_mem_nil _)

end Formatted

end Inline

/-! ## Conversions that leave a line alone -/

namespace Html

/-- Escaping makes no environment begin or end. -/
theorem calm_escapeAngles {s : Text} (calm : Calm s) : Calm (escapeAngles s) :=
  ⟨fun occurs => calm.1
      (isInfix_of_isInfix_flatMap writesEntities_escapeAngle (by decide) (by decide) occurs),
    fun occurs => calm.2
      (isInfix_of_isInfix_flatMap writesEntities_escapeAngle (by decide) (by decide) occurs)⟩

theorem convertEnvironments_of_calm {s : Text} (calm : Calm s) : convertEnvironments s = s := by
  rw [convertEnvironments]
  refine List.foldlRecOn (motive := fun t => t = s) listEnvironments convertEnvironment rfl ?_
  rintro t rfl names -
  have begins : "\\begin".toList <+: beginEnvironment names.1 := List.prefix_append _ _
  have ends : "\\end".toList <+: endEnvironment names.1 := List.prefix_append _ _
  rw [convertEnvironment, replace_eq_self _ fun occurs => calm.1 (begins.isInfix.trans occurs),
    replace_eq_self _ fun occurs => calm.2 (ends.isInfix.trans occurs)]

theorem closeItems_line {s : Text} (oneLine : '\n' ∉ s) (noLess : '<' ∉ s) : closeItems s = s := by
  have read : lines s = if s.isEmpty then [] else [s] := by
    rw [lines, splitAt_of_not_mem oneLine, linesOfPieces]
  rw [closeItems, read]
  split
  · next empty =>
      rw [List.isEmpty_iff.mp empty]
      rfl
  · rw [closeItemsFrom_of_not_mem (List.forall_mem_singleton.mpr noLess)]
    rfl

/-- Angle brackets and what is written for them are kept apart from a text without. -/
theorem keepsLiteral_angles {d : Char} {literal : Text}
    (absent : ∀ c ∈ "<>&".toList, c ∉ d :: literal)
    (first : d ∉ "ltg;".toList) : KeepsLiteral d literal escapeAngle := by
  have inside : d ∉ "lt;".toList ∧ d ∉ "gt;".toList :=
    ⟨fun member => first ((by decide : "lt;".toList ⊆ "ltg;".toList) member),
      fun member => first ((by decide : "gt;".toList ⊆ "ltg;".toList) member)⟩
  intro e
  unfold escapeAngle
  split
  · next less =>
      subst less
      exact .inr ⟨absent '<' (by decide), '&', "lt;".toList, rfl, absent '&' (by decide), inside.1⟩
  · split
    · next greater =>
        subst greater
        exact .inr
          ⟨absent '>' (by decide), '&', "gt;".toList, rfl, absent '&' (by decide), inside.2⟩
    · exact .inl rfl

theorem keepsLiteral_escapeAngle : KeepsLiteral '[' "fragile]".toList escapeAngle :=
  keepsLiteral_angles (by decide) (by decide)

/-- There are no tables in a strand. -/
theorem Strand.convertTables_eq_self {depth : Nat} {s : Text} (strand : Strand depth s) :
    convertTables s = s := by
  have silent : Silent (skip? (beginEnvironment "tabular".toList)) s :=
    strand.silent_skip (by decide)
  exact (silent.bind _).substitute_eq_self

/-- Nor do rows end there. -/
theorem Strand.replace_rowEnd {depth : Nat} {s : Text} (strand : Strand depth s) :
    replace rowEnd (openTag "br".toList) s = s := by
  have silent : Silent (skip? rowEnd) s := strand.silent_skip (by decide)
  exact (silent.map _).substitute_eq_self

/-- There are no listings in a strand. -/
theorem Strand.takeListings_eq {s : Text} (strand : Strand 0 s) : takeListings s = (s, []) := by
  have woven : Woven true (s ++ []) [] := .strand strand .nil
  rw [List.append_nil] at woven
  exact woven.takeListings_eq

/-- The strand that a formatted line becomes when its symbols and its emphasis are converted. -/
def emphasized (s : Text) : Text := convertEmphasis (convertSymbols (escapeAngles s))

section Line

variable {body s : Text}

theorem strand_emphasized (formatted : Inline.Formatted 0 s 0) : Strand 0 (emphasized s) :=
  weaves_convertEmphasis.strand (weaves_convertSymbols.strand (.of_formatted formatted))

/-- **A formatted line as a fragment.** Only symbols, emphasis, commands, braces and escapes are
converted. -/
theorem fragment_line (formatted : Inline.Formatted 0 s 0) (oneLine : '\n' ∉ s)
    (taken : replace "[fragile]".toList [] body = s) :
    fragment body =
      trim (collapseGaps (resolveEscapes (dropGroupBraces (dropCommands (emphasized s))))) := by
  have escaped : replace "[fragile]".toList [] (escapeAngles body) = escapeAngles s := by
    rw [← taken]
    exact keepsLiteral_escapeAngle.replace_flatMap [] body
  have strand : Strand 0 (escapeAngles s) := .of_formatted formatted
  have noNewline : '\n' ∉ escapeAngles s := fun member => by
    rcases mem_escapeAngles member with entity | ⟨inside, -⟩
    · exact absurd entity (by decide)
    · exact oneLine inside
  have items : convertItems (escapeAngles s) = escapeAngles s :=
    strand.silent_itemCommand.substitute_eq_self
  have marked : convertMarkup body = emphasized s := by
    rw [convertMarkup, escaped, convertEnvironments_of_calm
      (calm_escapeAngles formatted.leads.guarded.calm), items,
      closeItems_line noNewline (angles_not_mem_escapeAngles s).1, emphasized]
  have ready := strand_emphasized formatted
  have put : ∀ t, putListings t [] = t := fun t => rfl
  rw [fragment_eq, marked, ready.takeListings_eq, put]
  dsimp only
  rw [convertRest, ready.dropComments_eq_self, ready.convertTables_eq_self, ready.replace_rowEnd]

end Line

end Html

end SlideDeck
