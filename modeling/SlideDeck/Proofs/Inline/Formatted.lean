import SlideDeck.Proofs.Latex.Guarded
import SlideDeck.Proofs.Text.Silent
import SlideDeck.Inline.Format

/-!
# What formatting writes

A formatted line is made of few kinds of tokens: plain characters, characters behind a
backslash, commands that stand for a character, and the two ends of an argument in bold,
italic or code. `Formatted depth s last` says that `s` is made of such tokens and that the
arguments that it opens and closes lead from one depth to another.

Escaping writes tokens that stay at their depth (`formatted_escape`). Emphasis puts the two
ends of an argument in the place of asterisks. Since an asterisk is a token of its own, the
text between two of them is made of whole tokens (`Formatted.split`); so however bold and
italic spans cross each other, the arguments stay balanced (`formatted_format`), and a
formatted line is tidy (`tidy_format`). Commands that formatting does not write do not begin in it
(`silent_of_formatted`).
-/

set_option autoImplicit false

namespace SlideDeck.Inline

open SlideDeck SlideDeck.Text SlideDeck.Latex

/-! ## Tokens -/

/-- The characters that stand for themselves. -/
def isPlain (c : Char) : Bool :=
  c != '\\' && c != '~' && c != '^' && !backslashEscaped c

/-- The commands that stand for a character. -/
def symbolNames : List Text := [
  "textbackslash".toList, "textasciitilde".toList, "textasciicircum".toList]

/-- The commands whose argument is text in another style. -/
def styleNames : List Text := ["textbf".toList, "textit".toList, "texttt".toList]

/-- A token, with the depth before it and behind it. -/
inductive IsToken : Nat → Text → Nat → Prop where
  | plain {depth : Nat} {c : Char} (plain : isPlain c = true) : IsToken depth [c] depth
  | escaped {depth : Nat} {c : Char} (escaped : backslashEscaped c = true) :
      IsToken depth ['\\', c] depth
  | symbol {depth : Nat} {name : Text} (member : name ∈ symbolNames) :
      IsToken depth (symbol name) depth
  | opening {depth : Nat} {name : Text} (member : name ∈ styleNames) :
      IsToken depth ('\\' :: name ++ ['\x7b']) (depth + 1)
  | closing {depth : Nat} : IsToken (depth + 1) ['\x7d'] depth

/-- Text made of tokens that lead from one depth to another. -/
inductive Formatted : Nat → Text → Nat → Prop where
  | nil {depth : Nat} : Formatted depth [] depth
  | token {depth middle last : Nat} {t s : Text} (first : IsToken depth t middle)
      (rest : Formatted middle s last) : Formatted depth (t ++ s) last

theorem IsToken.ne_nil {depth last : Nat} {t : Text} (token : IsToken depth t last) : t ≠ [] := by
  cases token <;> simp [Latex.symbol, command]

/-- An asterisk is a token of its own. -/
theorem IsToken.eq_star {depth last : Nat} {t : Text} (token : IsToken depth t last)
    (member : '*' ∈ t) : t = ['*'] ∧ last = depth := by
  cases token with
  | plain _ =>
      rw [List.mem_singleton] at member
      exact ⟨by rw [member], rfl⟩
  | escaped escaped =>
      simp only [List.mem_cons, List.not_mem_nil, or_false] at member
      rcases member with same | rfl
      · exact absurd same (by decide)
      · exact absurd escaped (by decide)
  | @symbol _ name found =>
      exact absurd member ((by decide : ∀ name ∈ symbolNames, '*' ∉ Latex.symbol name) name found)
  | @opening _ name found =>
      exact absurd member
        ((by decide : ∀ name ∈ styleNames, '*' ∉ '\\' :: name ++ ['\x7b']) name found)
  | closing => exact absurd member (by decide)

theorem IsToken.leads {depth last : Nat} {t : Text} (token : IsToken depth t last) :
    Leads depth t last := by
  cases token with
  | @plain _ c plain =>
      simp only [isPlain, backslashEscaped, Bool.and_eq_true, bne_iff_ne, Bool.not_eq_true',
        Bool.or_eq_false_iff, beq_eq_false_iff_ne] at plain
      obtain ⟨⟨⟨notSlash, -⟩, -⟩, ⟨⟨⟨⟨⟨notScore, -⟩, notPercent⟩, -⟩, -⟩, noOpening⟩, noClosing⟩ :=
        plain
      refine .of_loose ?_ ?_ ?_ depth
      · simp [isLoose, notSlash, notPercent, notScore]
      · simp [Ne.symm noOpening]
      · simp [Ne.symm noClosing]
  | @escaped _ c escaped =>
      simp only [backslashEscaped, Bool.or_eq_true, beq_iff_eq] at escaped
      have guarded : Guarded still false ['\\', c] := by
        rcases escaped with (((((rfl | rfl) | rfl) | rfl) | rfl) | rfl) | rfl <;> decide
      exact ⟨guarded, rfl⟩
  | @symbol _ name member =>
      have each : ∀ name ∈ symbolNames, Tidy (Latex.symbol name) := by decide
      simpa using (each name member).deeper depth
  | @opening _ name member =>
      have each : ∀ name ∈ styleNames, Leads 0 ('\\' :: name ++ ['\x7b']) 1 := by decide
      simpa [Nat.add_comm] using (each name member).deeper depth
  | closing =>
      have alone : Leads 1 ['\x7d'] 0 := by decide
      simpa [Nat.add_comm] using alone.deeper _

namespace Formatted

variable {depth middle last : Nat} {s t : Text}

theorem of_token (token : IsToken depth t last) : Formatted depth t last :=
  List.append_nil t ▸ .token token .nil

theorem append (first : Formatted depth s middle) (second : Formatted middle t last) :
    Formatted depth (s ++ t) last := by
  induction first with
  | nil => exact second
  | token token _ ih => exact List.append_assoc .. ▸ .token token (ih second)

theorem flatMap {α : Type} {items : List α} {write : α → Text}
    (each : ∀ item ∈ items, Formatted depth (write item) depth) :
    Formatted depth (items.flatMap write) depth := by
  induction items with
  | nil => exact .nil
  | cons item items ih =>
      rw [List.forall_mem_cons] at each
      exact each.1.append (ih each.2)

/-- Further open arguments around a text stay open. -/
theorem deeper (formatted : Formatted depth s last) (outer : Nat) :
    Formatted (depth + outer) s (last + outer) := by
  induction formatted with
  | nil => exact .nil
  | token token _ ih =>
      refine .token ?_ ih
      cases token with
      | plain plain => exact .plain plain
      | escaped escaped => exact .escaped escaped
      | symbol member => exact .symbol member
      | opening member => exact Nat.add_right_comm _ 1 outer ▸ .opening member
      | closing => exact Nat.add_right_comm _ 1 outer ▸ .closing

/-- An asterisk separates whole tokens. -/
theorem split (front : Text) (formatted : Formatted depth (front ++ '*' :: t) last) :
    ∃ middle, Formatted depth front middle ∧ Formatted middle t last := by
  generalize whole : front ++ '*' :: t = s at formatted
  induction formatted generalizing front with
  | nil => simp at whole
  | @token depth middle last first s token rest ih =>
      by_cases star : '*' ∈ first
      · obtain ⟨rfl, rfl⟩ := token.eq_star star
        cases front with
        | nil =>
            obtain ⟨-, rfl⟩ := List.cons.inj whole
            exact ⟨middle, .nil, rest⟩
        | cons c front =>
            obtain ⟨rfl, later⟩ := List.cons.inj whole
            obtain ⟨between, before, behind⟩ := ih front later
            exact ⟨between, .token token before, behind⟩
      · rcases List.append_eq_append_iff.mp whole with ⟨gap, same, later⟩ | ⟨gap, rfl, later⟩
        · -- The asterisk would stand within the token.
          cases gap with
          | nil =>
              obtain ⟨between, before, behind⟩ := ih [] later
              rw [List.append_nil] at same
              subst same
              exact ⟨between, List.append_nil first ▸ .token token before, behind⟩
          | cons c gap =>
              obtain ⟨rfl, -⟩ := List.cons.inj later
              simp [same] at star
        · obtain ⟨between, before, behind⟩ := ih gap later.symm
          exact ⟨between, .token token before, behind⟩

theorem eq_of_nil (formatted : Formatted depth [] last) : depth = last := by
  generalize empty : ([] : Text) = s at formatted
  cases formatted with
  | nil => rfl
  | token token _ => exact absurd (List.append_eq_nil_iff.mp empty.symm).1 token.ne_nil

/-- An asterisk leaves the depth as it is. -/
theorem behind_star (formatted : Formatted depth ('*' :: t) last) : Formatted depth t last := by
  obtain ⟨middle, first, rest⟩ := formatted.split []
  exact first.eq_of_nil ▸ rest

/-- Formatted text is guarded, and its braces lead where its arguments do. -/
theorem leads (formatted : Formatted depth s last) : Leads depth s last := by
  induction formatted with
  | nil => exact ⟨.nil, rfl⟩
  | token token _ ih => exact token.leads.append ih

/-- Formatted text in another style. -/
theorem style {name : Text} (member : name ∈ styleNames) (inner : Formatted depth s last) :
    Formatted depth (command name s) last := by
  have whole : command name s = ('\\' :: name ++ ['\x7b']) ++ (s ++ ['\x7d']) := by
    simp [command, group]
  rw [whole]
  exact .token (.opening member) ((inner.deeper 1).append (.of_token .closing))

end Formatted

/-! ## Blanks at the ends -/

/-- A blank is a token of its own. -/
theorem IsToken.eq_blank {depth last : Nat} {c : Char} {t : Text} (token : IsToken depth t last)
    (member : c ∈ t) (blank : isBlank c = true) : t = [c] ∧ last = depth := by
  have visible : isBlank c = false → t = [c] ∧ last = depth := fun shown => by
    rw [blank] at shown
    cases shown
  cases token with
  | plain _ =>
      rw [List.mem_singleton] at member
      exact ⟨by rw [member], rfl⟩
  | @escaped _ d escaped =>
      have each : ∀ d ∈ "_&%$#\x7b\x7d".toList, isBlank d = false := by decide
      simp only [List.mem_cons, List.not_mem_nil, or_false] at member
      rcases member with rfl | rfl
      · exact visible (by decide)
      · simp only [backslashEscaped, Bool.or_eq_true, beq_iff_eq] at escaped
        exact visible (each c (by simpa [or_assoc] using escaped))
  | @symbol _ name found =>
      have each : ∀ name ∈ symbolNames, ∀ c ∈ Latex.symbol name, isBlank c = false := by decide
      exact visible (each name found c member)
  | @opening _ name found =>
      have each : ∀ name ∈ styleNames, ∀ c ∈ '\\' :: name ++ ['\x7b'], isBlank c = false := by
        decide
      exact visible (each name found c member)
  | closing =>
      obtain rfl := List.mem_singleton.mp member
      exact visible (by decide)

namespace Formatted

variable {depth last : Nat} {c : Char} {s : Text}

theorem behind_blank (blank : isBlank c = true) (formatted : Formatted depth (c :: s) last) :
    Formatted depth s last := by
  generalize whole : c :: s = u at formatted
  cases formatted with
  | nil => cases whole
  | @token _ middle _ t rest token later =>
      obtain ⟨d, t, rfl⟩ := List.exists_cons_of_ne_nil token.ne_nil
      obtain ⟨rfl, same⟩ := List.cons.inj whole
      obtain ⟨alone, rfl⟩ := token.eq_blank List.mem_cons_self blank
      obtain rfl := (List.cons.inj alone).2
      rw [same]
      exact later

theorem trimStart (formatted : Formatted depth s last) : Formatted depth (trimStart s) last := by
  induction s with
  | nil => exact formatted
  | cons c s ih =>
      cases blank : isBlank c with
      | true =>
          rw [trimStart_cons_of_blank blank]
          exact ih (formatted.behind_blank blank)
      | false =>
          rw [trimStart_cons blank]
          exact formatted

theorem front_blank (blank : isBlank c = true) (formatted : Formatted depth (s ++ [c]) last) :
    Formatted depth s last := by
  generalize whole : s ++ [c] = u at formatted
  induction formatted generalizing s with
  | nil => simp at whole
  | @token depth middle last t rest token later ih =>
      rcases List.eq_nil_or_concat rest with rfl | ⟨front, d, rfl⟩
      · -- The blank is the last token.
        rw [List.append_nil] at whole
        obtain ⟨alone, rfl⟩ := token.eq_blank (whole ▸ by simp) blank
        obtain rfl : s = [] := by simpa [alone] using whole
        exact later
      · rw [List.concat_eq_append] at whole
        rw [← List.append_assoc] at whole
        obtain ⟨rfl, same⟩ := List.append_inj' whole rfl
        exact .token token (ih (by rw [List.concat_eq_append, same]))

theorem front {blanks : Text} (areBlank : ∀ c ∈ blanks, isBlank c = true)
    (formatted : Formatted depth (s ++ blanks) last) : Formatted depth s last := by
  induction blanks generalizing s with
  | nil => simpa using formatted
  | cons c blanks ih =>
      rw [List.forall_mem_cons] at areBlank
      rw [List.append_cons] at formatted
      exact (ih areBlank.2 formatted).front_blank areBlank.1

theorem trimEnd (formatted : Formatted depth s last) : Formatted depth (trimEnd s) last := by
  obtain ⟨blanks, whole, areBlank⟩ := exists_blanks_trimEnd s
  rw [whole] at formatted
  exact formatted.front areBlank

end Formatted

/-! ## Escaping -/

theorem formatted_escapeChar (c : Char) (depth : Nat) : Formatted depth (escapeChar c) depth := by
  rw [escapeChar]
  split
  · exact .of_token (.symbol (by decide))
  · split
    · next escaped => exact .of_token (.escaped escaped)
    · split
      · exact .of_token (.symbol (by decide))
      · split
        · exact .of_token (.symbol (by decide))
        · exact .of_token (.plain (by simp_all [isPlain]))

theorem formatted_escape (s : Text) (depth : Nat) : Formatted depth (escape s) depth :=
  .flatMap fun c _ => formatted_escapeChar c depth

/-! ## Emphasis -/

/-- A matcher that begins at an asterisk and puts formatted text in the place of formatted
text. -/
structure Emphasizes (matcher : Matcher Text) : Prop where
  star : ∀ {c s answer}, matcher (c :: s) = some answer → c = '*'
  rest : ∀ {c s replacement rest}, matcher (c :: s) = some (replacement, rest) → rest <:+ s
  keeps : ∀ {depth s last replacement rest}, Formatted depth s last →
    matcher s = some (replacement, rest) →
      ∃ middle, Formatted depth replacement middle ∧ Formatted middle rest last

theorem Emphasizes.quiet {matcher : Matcher Text} (emphasizes : Emphasizes matcher) {t : Text}
    (noStar : '*' ∉ t) : ∀ c ∈ t, ∀ cs, matcher (c :: cs) = none := by
  intro c member cs
  cases found : matcher (c :: cs) with
  | none => rfl
  | some answer => exact absurd (emphasizes.star found ▸ member) noStar

/-- Emphasis keeps formatted text formatted. The induction is on the length, since a match
goes on behind its last asterisk. -/
theorem Formatted.substitute {matcher : Matcher Text} (emphasizes : Emphasizes matcher)
    {depth last : Nat} {s : Text} (formatted : Formatted depth s last) :
    Formatted depth (substitute matcher s) last := by
  induction size : s.length using Nat.strong_induction_on generalizing s depth with
  | _ n ih =>
      subst size
      cases formatted with
      | nil => exact .nil
      | @token _ middle _ t s token rest =>
          by_cases star : '*' ∈ t
          · obtain ⟨rfl, rfl⟩ := token.eq_star star
            rw [List.singleton_append]
            cases found : matcher ('*' :: s) with
            | none =>
                rw [substitute_cons_of_none found]
                exact .token token (ih _ (by simp) rest rfl)
            | some answer =>
                obtain ⟨replacement, behind⟩ := answer
                have isRest := emphasizes.rest found
                obtain ⟨between, first, later⟩ := emphasizes.keeps (.token token rest) found
                rw [substitute_cons_of_some found isRest]
                have shorter : behind.length < (['*'] ++ s).length := by
                  simpa using Nat.lt_succ_of_le isRest.length_le
                exact first.append (ih _ shorter later rfl)
          · rw [substitute_append_of_quiet (emphasizes.quiet star)]
            have shorter : s.length < (t ++ s).length := by
              simpa using List.length_pos_iff.mpr token.ne_nil
            exact .token token (ih _ shorter rest rfl)

theorem boldSpan_eq_some {s replacement rest : Text}
    (found : boldSpan s = some (replacement, rest)) :
    ∃ body, s = '*' :: '*' :: (body ++ '*' :: '*' :: rest) ∧
      replacement = command "textbf".toList body := by
  rw [boldSpan.eq_def] at found
  split at found
  · next c cs =>
      split at found
      · cases found
      · obtain ⟨⟨body, behind⟩, cut, same⟩ := Option.map_eq_some_iff.mp found
        cases same
        obtain ⟨ending, rfl, skipped⟩ := splitBefore_eq_some cut
        exact ⟨c :: body, by rw [skip?_eq_some_iff.mp skipped]; rfl, rfl⟩
  · cases found

theorem italicSpan_eq_some {s replacement rest : Text}
    (found : italicSpan s = some (replacement, rest)) :
    ∃ body, s = '*' :: (body ++ '*' :: rest) ∧ replacement = command "textit".toList body := by
  rw [italicSpan.eq_def] at found
  split at found
  · next cs =>
      split at found
      · next c body behind cut =>
          cases found
          exact ⟨c :: body, by rw [(splitOnce_eq_some cut).1], rfl⟩
      · cases found
  · cases found

theorem emphasizes_boldSpan : Emphasizes boldSpan where
  star found := by
    obtain ⟨body, whole, -⟩ := boldSpan_eq_some found
    exact (List.cons.inj whole).1
  rest found := by
    obtain ⟨body, whole, -⟩ := boldSpan_eq_some found
    exact ⟨'*' :: (body ++ ['*', '*']), by rw [(List.cons.inj whole).2]; simp⟩
  keeps formatted found := by
    obtain ⟨body, rfl, rfl⟩ := boldSpan_eq_some found
    obtain ⟨middle, inner, behind⟩ := formatted.behind_star.behind_star.split body
    exact ⟨middle, inner.style (by decide), behind.behind_star⟩

theorem emphasizes_italicSpan : Emphasizes italicSpan where
  star found := by
    obtain ⟨body, whole, -⟩ := italicSpan_eq_some found
    exact (List.cons.inj whole).1
  rest found := by
    obtain ⟨body, whole, -⟩ := italicSpan_eq_some found
    exact ⟨body ++ ['*'], by rw [(List.cons.inj whole).2]; simp⟩
  keeps formatted found := by
    obtain ⟨body, rfl, rfl⟩ := italicSpan_eq_some found
    obtain ⟨middle, inner, behind⟩ := formatted.behind_star.split body
    exact ⟨middle, inner.style (by decide), behind⟩

/-! ## Whole lines -/

theorem formatted_span (span : Span) : Formatted 0 span.toLatex 0 := by
  cases span with
  | text s =>
      exact ((formatted_escape s 0).substitute emphasizes_boldSpan).substitute emphasizes_italicSpan
  | code s => exact (formatted_escape s 0).style (by decide)

/-- **Formatting is balanced.** Whatever the line holds, its formatted text is made of whole
tokens, and every argument that begins in it ends in it. -/
theorem formatted_format (s : Text) : Formatted 0 (format s) 0 :=
  .flatMap fun span _ => formatted_span span

theorem tidy_format (s : Text) : Tidy (format s) := (formatted_format s).leads

theorem tidy_escape (s : Text) : Tidy (escape s) := (formatted_escape s 0).leads

/-! ## Characters -/

/-- The characters that formatting itself writes. -/
def isWritten (c : Char) : Bool := c.isAlpha || "\\\x7b\x7d[]!->*:".toList.contains c

variable {c : Char} {s : Text}

theorem not_mem_replaceEmoji (alien : isWritten c = false) (absent : c ∉ s) :
    c ∉ replaceEmoji s := by
  have unwritten : ∀ entry ∈ emojiReplacements, c ∉ entry.2 := by
    intro entry member inside
    have written : ∀ entry ∈ emojiReplacements, entry.2.all isWritten = true := by decide
    exact absurd (List.all_eq_true.mp (written entry member) c inside) (by simp [alien])
  rw [replaceEmoji]
  generalize emojiReplacements = entries at unwritten
  induction entries generalizing s with
  | nil => exact absent
  | cons entry entries ih =>
      rw [List.forall_mem_cons] at unwritten
      exact ih (not_mem_replace absent unwritten.1) unwritten.2

theorem not_mem_sanitize (alien : isWritten c = false) (absent : c ∉ s) : c ∉ sanitize s :=
  fun member => not_mem_replaceEmoji alien absent (List.mem_filter.mp member).1

theorem not_mem_escape (alien : isWritten c = false) (absent : c ∉ s) : c ∉ escape s := by
  intro member
  obtain ⟨d, source, member⟩ := List.mem_flatMap.mp member
  have differ : c ≠ d := fun same => absent (same ▸ source)
  have notSymbol : ∀ name ∈ symbolNames, c ∉ symbol name := by
    intro name found inside
    have written : ∀ name ∈ symbolNames, (symbol name).all isWritten = true := by decide
    exact absurd (List.all_eq_true.mp (written name found) c inside) (by simp [alien])
  have notSlash : c ≠ '\\' := by
    rintro rfl
    exact absurd alien (by decide)
  rw [escapeChar] at member
  split at member
  · exact notSymbol _ (by decide) member
  · split at member
    · simp [differ, notSlash] at member
    · split at member
      · exact notSymbol _ (by decide) member
      · split at member
        · exact notSymbol _ (by decide) member
        · exact differ (List.mem_singleton.mp member)

theorem not_mem_style {name : Text} (member : name ∈ styleNames) (alien : isWritten c = false)
    (absent : c ∉ s) : c ∉ command name s := by
  intro inside
  have whole : command name s = ('\\' :: name ++ ['\x7b']) ++ s ++ ['\x7d'] := by
    simp [command, group]
  rw [whole, List.mem_append, List.mem_append] at inside
  have written : ∀ name ∈ styleNames, ('\\' :: name ++ ['\x7b']).all isWritten = true := by decide
  rcases inside with (inside | inside) | inside
  · exact absurd (List.all_eq_true.mp (written name member) c inside) (by simp [alien])
  · exact absent inside
  · rw [List.mem_singleton.mp inside] at alien
    exact absurd alien (by decide)

theorem not_mem_emphasize (alien : isWritten c = false) (absent : c ∉ s) : c ∉ emphasize s := by
  have bold : c ∉ substitute boldSpan s := by
    intro member
    rcases mem_substitute member with kept | ⟨t, replacement, rest, part, found, member⟩
    · exact absent kept
    · obtain ⟨body, rfl, rfl⟩ := boldSpan_eq_some found
      refine not_mem_style (by decide) alien (fun inside => absent ?_) member
      exact part.subset (by simp [inside])
  intro member
  rcases mem_substitute member with kept | ⟨t, replacement, rest, part, found, member⟩
  · exact bold kept
  · obtain ⟨body, rfl, rfl⟩ := italicSpan_eq_some found
    refine not_mem_style (by decide) alien (fun inside => bold ?_) member
    exact part.subset (by simp [inside])

/-- The text of a span. -/
def Span.content : Span → Text
  | .text s => s
  | .code s => s

theorem codeSpan?_eq_some {code rest : Text} (found : codeSpan? s = some (code, rest)) :
    s = code ++ backquote :: rest := by
  rw [codeSpan?] at found
  split at found
  · cases found
  · exact (splitOnce_eq_some found).1

theorem mem_consText {d : Char} {parts : List Span} {span : Span}
    (member : span ∈ Span.consText d parts) (inside : c ∈ span.content) :
    c = d ∨ ∃ part ∈ parts, c ∈ part.content := by
  rw [Span.consText.eq_def] at member
  split at member
  · next t rest =>
      rcases List.mem_cons.mp member with rfl | member
      · exact (List.mem_cons.mp inside).imp_right fun inside =>
          ⟨.text t, List.mem_cons_self, inside⟩
      · exact .inr ⟨span, List.mem_cons_of_mem _ member, inside⟩
  · rcases List.mem_cons.mp member with rfl | member
    · exact .inl (List.mem_singleton.mp inside)
    · exact .inr ⟨span, member, inside⟩

theorem mem_of_mem_spansFrom {covered : Nat} {span : Span} (member : span ∈ spansFrom covered s)
    (inside : c ∈ span.content) : c ∈ s := by
  induction s generalizing covered span with
  | nil => cases covered <;> simp [spansFrom] at member
  | cons d s ih =>
      cases covered with
      | succ covered => exact List.mem_cons_of_mem d (ih member inside)
      | zero =>
          rw [spansFrom] at member
          split at member
          · next code rest found =>
              rcases List.mem_cons.mp member with rfl | member
              · split at found
                · rw [codeSpan?_eq_some found]
                  exact List.mem_cons_of_mem d (List.mem_append_left _ inside)
                · cases found
              · exact List.mem_cons_of_mem d (ih member inside)
          · rcases mem_consText member inside with rfl | ⟨part, found, inside⟩
            · exact List.mem_cons_self
            · exact List.mem_cons_of_mem d (ih found inside)

/-- A character that formatting does not write itself is in the formatted line only if it
is in the sanitized line. -/
theorem not_mem_format_of_sanitize (alien : isWritten c = false) (absent : c ∉ sanitize s) :
    c ∉ format s := by
  intro member
  obtain ⟨span, found, member⟩ := List.mem_flatMap.mp member
  have unread : c ∉ span.content := fun inside => absent (mem_of_mem_spansFrom found inside)
  cases span with
  | text s => exact not_mem_emphasize alien (not_mem_escape alien unread) member
  | code s => exact not_mem_style (by decide) alien (not_mem_escape alien unread) member

theorem not_mem_format (alien : isWritten c = false) (absent : c ∉ s) : c ∉ format s :=
  not_mem_format_of_sanitize alien (not_mem_sanitize alien absent)

theorem neat_format (oneLine : '\n' ∉ s) : Neat (format s) :=
  ⟨tidy_format s, not_mem_format (by decide) oneLine⟩

theorem neat_escape (oneLine : '\n' ∉ s) : Neat (escape s) :=
  ⟨tidy_escape s, not_mem_escape (by decide) oneLine⟩

/-! ## Commands of others -/

/-- The tokens that begin with a backslash. -/
def markTokens : List Text :=
  "_&%$#\x7b\x7d".toList.map (fun c => ['\\', c]) ++ symbolNames.map symbol ++
    styleNames.map fun name => '\\' :: name ++ ['\x7b']

/-- A command with which no token goes together, neither as its beginning nor the other way
round. -/
def isForeign (literal : Text) : Bool :=
  literal.head? == some '\\' && markTokens.all fun token => avoids literal token

theorem IsToken.mem_markTokens {depth last : Nat} {t : Text} (token : IsToken depth t last) :
    '\\' ∉ t ∨ t ∈ markTokens := by
  cases token with
  | @plain _ c plain =>
      refine .inl fun member => ?_
      rw [← List.mem_singleton.mp member] at plain
      exact absurd plain (by decide)
  | @escaped _ c escaped =>
      simp only [backslashEscaped, Bool.or_eq_true, beq_iff_eq] at escaped
      refine .inr ?_
      rcases escaped with (((((rfl | rfl) | rfl) | rfl) | rfl) | rfl) | rfl <;> decide
  | symbol member =>
      have inner := List.mem_map_of_mem (f := Latex.symbol) member
      exact .inr (List.mem_append_left _ (List.mem_append_right _ inner))
  | opening member =>
      have inner := List.mem_map_of_mem (f := fun name => '\\' :: name ++ ['\x7b']) member
      exact .inr (List.mem_append_right _ inner)
  | closing => exact .inl (by decide)

/-- In formatted text such a command does not begin, whatever stands behind the text. -/
theorem silent_of_formatted {literal : Text} (foreign : isForeign literal = true) {depth last : Nat}
    {s : Text} (formatted : Formatted depth s last) : Silent (skip? literal) s := by
  obtain ⟨command, apart⟩ := Bool.and_eq_true_iff.mp foreign
  obtain ⟨name, rfl⟩ := List.head?_eq_some_iff.mp (beq_iff_eq.mp command)
  induction formatted with
  | nil => trivial
  | token token _ ih =>
      refine Silent.append ?_ ih
      rcases token.mem_markTokens with absent | member
      · exact silent_skip (avoids_of_not_mem absent)
      · exact silent_skip (List.all_eq_true.mp apart _ member)

end SlideDeck.Inline
