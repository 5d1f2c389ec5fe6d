import SlideDeck.Proofs.Html.Fragment
import SlideDeck.Proofs.Html.Strand

/-!
# Conversions of strands

A conversion that substitutes acts on the words of a strand. At each it may find nothing, put
something in the place of the word, or put something in the place of an argument and go on
behind it (`Carries`). Whether it finds an argument depends on the next brace. Behind the
opening of a group there is one, and if it is a closing one, what stands before it can be
enclosed in tags (`Strand.innermost`).

A substitution that fits every word makes of a strand what it is to make, and it does not look
beyond the end of the strand (`Weaving.substitute`). That each word fits is decidable for the
conversions that replace whole words (`weaving_of_words`), and for those of arguments there is one
lemma (`Carries.argument`).
-/

set_option autoImplicit false

namespace SlideDeck.Html

open SlideDeck SlideDeck.Text SlideDeck.Latex

/-! ## Innermost braces -/

theorem innermost?_append {front : Text} (noBraces : ∀ c ∈ front, isBrace c = false) (t : Text) :
    innermost? ('\x7b' :: (front ++ t)) =
      (innermost? ('\x7b' :: t)).map fun (body, behind) => (front ++ body, behind) := by
  have skipped : (front ++ t).dropWhile (fun c => !isBrace c) = t.dropWhile (fun c => !isBrace c) :=
    List.dropWhile_append_of_pos fun c member => by simp [noBraces c member]
  have taken : (front ++ t).takeWhile (fun c => !isBrace c) =
      front ++ t.takeWhile (fun c => !isBrace c) :=
    List.takeWhile_append_of_pos fun c member => by simp [noBraces c member]
  rw [innermost?, innermost?, skipped, taken]
  split <;> rfl

/-- Text that may be enclosed in tags. -/
def Enclosable (body : Text) : Prop := ∀ name ∈ inlineNames, Strand 0 (body ++ closeTag name)

/-- How the words of the vocabulary treat braces. -/
theorem word_braces {w : Text} {effect : Effect} (member : (w, effect) ∈ words) :
    (effect = .none ∧ ∀ c ∈ w, isBrace c = false) ∨
    (effect = .closes ∧ w = ['\x7d']) ∨
    (effect = .none ∧ w = ['\\', '\x7d']) ∨
    ∃ front rest, w = front ++ '\x7b' :: rest ∧ ∀ c ∈ front, isBrace c = false := by
  have each : ∀ entry ∈ words, (entry.2 = .none ∧ ∀ c ∈ entry.1, isBrace c = false) ∨
      (entry.2 = .closes ∧ entry.1 = ['\x7d']) ∨ (entry.2 = .none ∧ entry.1 = ['\\', '\x7d']) ∨
      (entry.1.dropWhile fun c => !isBrace c).head? = some '\x7b' := by decide
  refine (each (w, effect) member).imp_right (Or.imp_right (Or.imp_right fun first => ?_))
  obtain ⟨rest, ends⟩ := List.head?_eq_some_iff.mp first
  refine ⟨w.takeWhile fun c => !isBrace c, rest, ?_, fun c inside => ?_⟩
  · rw [← ends, List.takeWhile_append_dropWhile]
  · simpa using List.mem_takeWhile_imp inside

/-- **Below an open group**, a strand closes it before it opens another one, or there is no
innermost group. The induction goes up to the next brace. -/
theorem Strand.innermost {depth : Nat} {s : Text} (strand : Strand (depth + 1) s) :
    (∃ body behind, (∀ t, innermost? ('\x7b' :: (s ++ t)) = some (body, behind ++ t)) ∧
      Enclosable body ∧ Strand depth behind ∧ behind.length ≤ s.length) ∨
    ∀ t, innermost? ('\x7b' :: (s ++ t)) = none := by
  generalize below : depth + 1 = start at strand
  induction strand with
  | nil => cases below
  | @char _ c s text _ ih =>
      have noBraces : ∀ d ∈ [c], isBrace d = false := by
        intro d member
        obtain rfl := List.mem_singleton.mp member
        by_contra brace
        simp only [isBrace, Bool.or_eq_true, beq_iff_eq, Bool.not_eq_false] at brace
        rcases brace with rfl | rfl <;> exact absurd text (by decide)
      rcases ih below with ⟨body, behind, found, enclosable, rest, shorter⟩ | quiet
      · refine .inl ⟨c :: body, behind, fun t => ?_, ?_, rest, Nat.le_succ_of_le shorter⟩
        · have step := innermost?_append noBraces (s ++ t)
          rw [found] at step
          exact step
        · exact fun name member => .char text (enclosable name member)
      · refine .inr fun t => ?_
        have step := innermost?_append noBraces (s ++ t)
        rw [quiet] at step
        exact step
  | @word _ w s effect member rest ih =>
      subst below
      rcases word_braces member with
        ⟨rfl, noBraces⟩ | ⟨rfl, rfl⟩ | ⟨rfl, rfl⟩ | ⟨front, tail, rfl, noBraces⟩
      · rcases ih rfl with ⟨body, behind, found, enclosable, later, shorter⟩ | quiet
        · refine .inl ⟨w ++ body, behind, fun t => ?_, fun name known => ?_, later, ?_⟩
          · rw [List.append_assoc, innermost?_append noBraces, found]
            rfl
          · rw [List.append_assoc]
            exact .word member (enclosable name known)
          · rw [List.length_append]
            omega
        · refine .inr fun t => ?_
          rw [List.append_assoc, innermost?_append noBraces, quiet]
          rfl
      · have closing : ∀ name ∈ inlineNames, closeTag name ∈ levelWords := by decide
        exact .inl ⟨[], s, fun t => rfl, fun name known => .of_level (closing name known), rest,
          Nat.le_succ _⟩
      · have closing : ∀ name ∈ inlineNames, '\\' :: closeTag name ∈ levelWords := by decide
        refine .inl ⟨['\\'], s, fun t => rfl, fun name known => .of_level (closing name known),
          ?_, ?_⟩
        · exact rest.mono (Nat.le_succ depth)
        · exact Nat.le_add_right s.length 2
      · refine .inr fun t => ?_
        rw [List.append_assoc, List.append_assoc, innermost?_append noBraces]
        rfl

/-! ## Substituting in strands -/

/-- A substitution goes through a word in front of a strand: it writes something, and goes on with
a shorter strand. What it makes of strands is described by `made`. -/
def Carries (made : Nat → Text → Prop) (matcher : Matcher Text) (depth : Nat) (w s : Text) : Prop :=
  ∃ written middle behind, Strand middle behind ∧ behind.length < (w ++ s).length ∧
    (∀ x, made middle x → made depth (written ++ x)) ∧
    ∀ t, substitute matcher (w ++ (s ++ t)) = written ++ substitute matcher (behind ++ t)

/-- A matcher that finds nothing at characters no conversion looks at, and fits every word. -/
structure Weaving (made : Nat → Text → Prop) (matcher : Matcher Text) : Prop where
  nil : made 0 []
  char : ∀ {depth c x}, isText c = true → made depth x → made depth (c :: x)
  quiet : ∀ {c}, isText c = true → ∀ t, matcher (c :: t) = none
  word : ∀ {depth w effect s}, (w, effect) ∈ words → Strand (effect.after depth) s →
    Carries made matcher depth w s

/-- **Substituting in a strand** makes what is described, and stops at its end. The induction is
on the length, since an argument is passed as a whole. -/
theorem Weaving.substitute {made : Nat → Text → Prop} {matcher : Matcher Text}
    (weaving : Weaving made matcher) {depth : Nat} {s : Text} (strand : Strand depth s) :
    made depth (substitute matcher s) ∧
      ∀ t, Text.substitute matcher (s ++ t) = Text.substitute matcher s ++
        Text.substitute matcher t := by
  induction size : s.length using Nat.strong_induction_on generalizing depth s with
  | _ n ih =>
      subst size
      cases strand with
      | nil => exact ⟨weaving.nil, fun t => rfl⟩
      | @char _ c s text rest =>
          obtain ⟨made, same⟩ := ih s.length (by simp) rest rfl
          have here : ∀ t, Text.substitute matcher (c :: t) = c :: Text.substitute matcher t :=
            fun t => substitute_cons_of_none (weaving.quiet text t)
          refine ⟨?_, fun t => ?_⟩
          · rw [here]
            exact weaving.char text made
          · rw [List.cons_append, here, here, same, List.cons_append]
      | @word _ w s effect member rest =>
          obtain ⟨written, middle, behind, later, shorter, carried, goesOn⟩ :=
            weaving.word member rest
          obtain ⟨made, same⟩ := ih behind.length shorter later rfl
          have whole :
              Text.substitute matcher (w ++ s) = written ++ Text.substitute matcher behind := by
            simpa using goesOn []
          refine ⟨?_, fun t => ?_⟩
          · rw [whole]
            exact carried _ made
          · rw [whole, List.append_assoc, goesOn, same, List.append_assoc]

namespace Carries

variable {made : Nat → Text → Prop} {matcher : Matcher Text} {depth : Nat} {w s : Text}
  {effect : Effect}

/-- A word in which nothing is found stays. -/
theorem silent (member : (w, effect) ∈ words) (strand : Strand (effect.after depth) s)
    (silent : Silent matcher w) (kept : ∀ x, made (effect.after depth) x → made depth (w ++ x)) :
    Carries made matcher depth w s := by
  have shorter : s.length < (w ++ s).length := by
    simpa using List.length_pos_iff.mpr (ne_nil_of_mem_words member)
  exact ⟨w, _, s, strand, shorter, kept, fun t => silent.substitute_append _⟩

/-- A word is replaced. -/
theorem replaced {replacement : Text} (member : (w, effect) ∈ words)
    (strand : Strand (effect.after depth) s) (found : ∀ t, matcher (w ++ t) = some (replacement, t))
    (fits : ∀ x, made (effect.after depth) x → made depth (replacement ++ x)) :
    Carries made matcher depth w s := by
  have nonempty := ne_nil_of_mem_words member
  have shorter : s.length < (w ++ s).length := by
    simpa using List.length_pos_iff.mpr nonempty
  exact ⟨replacement, _, s, strand, shorter, fits,
    fun t => substitute_append_of_some (found _) nonempty⟩

/-- A word ends in the opening of an argument: the argument is replaced, or the word stays. -/
theorem argument (lead : Text) (put : Text → Text) {c : Char} {opening : Text}
    (strand : Strand (depth + 1) s)
    (whole : w = lead ++ c :: opening)
    (reach : ∀ t, substitute matcher (w ++ t) = lead ++ substitute matcher (c :: opening ++ t))
    (found : ∀ t, matcher (c :: opening ++ t) =
      (innermost? ('\x7b' :: t)).map fun (body, behind) => (put body, behind))
    (silent : Silent matcher opening)
    (matched : ∀ body, Enclosable body → ∀ x, made depth x → made depth (lead ++ put body ++ x))
    (unmatched : ∀ x, made (depth + 1) x → made depth (w ++ x)) :
    Carries made matcher depth w s := by
  rcases strand.innermost with ⟨body, behind, inner, enclosable, rest, shorter⟩ | quiet
  · refine ⟨lead ++ put body, depth, behind, rest, ?_, matched body enclosable, fun t => ?_⟩
    · simp only [whole, List.length_append, List.length_cons]
      omega
    · have answer : matcher (c :: (opening ++ (s ++ t))) = some (put body, behind ++ t) := by
        have answer := found (s ++ t)
        rwa [inner] at answer
      have suffix : behind ++ t <:+ opening ++ (s ++ t) := by
        have whole := innermost?_eq_some (inner t)
        rw [(List.cons.inj whole).2]
        exact ⟨opening ++ (body ++ ['\x7d']), by simp⟩
      rw [reach, List.cons_append, substitute_cons_of_some answer suffix, List.append_assoc]
  · refine ⟨w, depth + 1, s, strand, ?_, unmatched, fun t => ?_⟩
    · simp only [whole, List.length_append, List.length_cons]
      omega
    · have answer : matcher (c :: (opening ++ (s ++ t))) = none := by
        have answer := found (s ++ t)
        rwa [quiet] at answer
      rw [reach, List.cons_append, substitute_cons_of_none answer, silent.substitute_append, whole]
      simp

end Carries

/-- Whole words are replaced by strands, and in all others nothing is found. -/
theorem weaving_of_words {matcher : Matcher Text} {literals : List Text}
    (led : LedBy literals matcher)
    (slash : ∀ literal ∈ literals, literal.head? = some '\\')
    (each : ∀ entry ∈ words, (∀ literal ∈ literals, avoids literal entry.1 = true) ∨
      entry.2 = .none ∧ ∃ replacement, Strand 0 replacement ∧
        ∀ t, matcher (entry.1 ++ t) = some (replacement, t)) :
    Weaving Strand matcher where
  nil := .nil
  char text rest := .char text rest
  quiet := Strand.quiet_of_ledBy led slash
  word {depth w effect s} member strand := by
    rcases each (w, effect) member with apart | ⟨rfl, replacement, new, found⟩
    · exact .silent member strand (led.silent apart) fun x rest => .word member rest
    · exact .replaced member strand found fun x rest => new.inside rest

theorem ledBy_literally (literal replacement : Text) :
    LedBy [literal] (literally literal replacement) :=
  (LedBy.skip literal).map _

/-- A literal text is replaced that is a word or apart from all words. -/
theorem weaving_literally {name replacement : Text} (new : Strand 0 replacement)
    (known : ∀ entry ∈ words, avoids ('\\' :: name) entry.1 = true ∨
      entry.2 = .none ∧ entry.1 = '\\' :: name) :
    Weaving Strand (literally ('\\' :: name) replacement) := by
  refine weaving_of_words (ledBy_literally _ _) (List.forall_mem_singleton.mpr rfl) ?_
  intro entry member
  refine (known entry member).imp (fun apart => List.forall_mem_singleton.mpr apart) ?_
  intro ⟨level, same⟩
  refine ⟨level, replacement, new, fun t => ?_⟩
  rw [same, literally, skip?_eq_some_iff.mpr rfl]
  rfl

/-! ## Emphasis -/

theorem ledBy_spanCommand (names : List Text) (tag : Text) :
    LedBy (names.map ('\\' :: ·)) (spanCommand names tag) :=
  .findSome? fun name => (LedBy.skip ('\\' :: name)).bind _

theorem silent_spanCommand {names : List Text} {tag s : Text}
    (apart : ∀ name ∈ names, avoids ('\\' :: name) s = true) : Silent (spanCommand names tag) s :=
  (ledBy_spanCommand names tag).silent (List.forall_mem_map.mpr apart)

theorem spanCommand_command {name : Text} {others : List Text}
    (apart : ∀ other ∈ others, apart ('\\' :: other) ('\\' :: (name ++ ['\x7b'])) = true)
    (tag t : Text) :
    spanCommand (name :: others) tag ('\\' :: (name ++ ['\x7b']) ++ t) =
      (innermost? ('\x7b' :: t)).map fun (body, behind) => (element tag body, behind) := by
  have found : skip? ('\\' :: name) ('\\' :: (name ++ ['\x7b']) ++ t) = some ('\x7b' :: t) :=
    skip?_eq_some_iff.mpr (by simp)
  have quiet : ∀ other ∈ others, skip? ('\\' :: other) ('\\' :: (name ++ ['\x7b']) ++ t) = none :=
    fun other member => skip?_eq_none (not_isPrefix_of_apart (apart other member) t)
  rw [spanCommand, List.findSome?_cons, found, Option.bind_some]
  cases innermost? ('\x7b' :: t) with
  | some => rfl
  | none =>
      refine List.findSome?_eq_none_iff.mpr fun other member => ?_
      rw [quiet other member]
      rfl

/-- **The commands of one kind of emphasis** become elements, of which both tags are words. -/
theorem weaving_spanCommand {names : List Text} (name : Text) {tag : Text}
    (known : tag ∈ inlineNames)
    (noSlash : '\\' ∉ name)
    (found : ∀ t, spanCommand names tag ('\\' :: (name ++ ['\x7b']) ++ t) =
      (innermost? ('\x7b' :: t)).map fun (body, behind) => (element tag body, behind))
    (each : ∀ entry ∈ words, (∀ other ∈ names, avoids ('\\' :: other) entry.1 = true) ∨
      entry.2 = .opens ∧ (entry.1 = '\\' :: (name ++ ['\x7b']) ∨
        entry.1 = "\\large".toList ++ '\\' :: (name ++ ['\x7b']) ∧ tag = "strong".toList ∧
          ∀ other ∈ names, avoids ('\\' :: other) "\\large".toList = true)) :
    Weaving Strand (spanCommand names tag) where
  nil := .nil
  char text rest := .char text rest
  quiet := Strand.quiet_of_ledBy (ledBy_spanCommand names tag)
    (List.forall_mem_map.mpr fun _ _ => rfl)
  word {depth w effect s} member strand := by
    have inner : Silent (spanCommand names tag) (name ++ ['\x7b']) := by
      refine silent_spanCommand fun other _ => avoids_of_not_mem ?_
      simp [noSlash]
    have opened : ∀ name ∈ inlineNames, openTag name ∈ levelWords := by decide
    have enclosed : ∀ body, Enclosable body → ∀ x, Strand depth x →
        Strand depth (body ++ closeTag tag ++ x) :=
      fun body enclosable x rest => (enclosable tag known).inside rest
    rcases each (w, effect) member with apart | ⟨rfl, rfl | ⟨rfl, rfl, apart⟩⟩
    · exact .silent member strand (silent_spanCommand apart) fun x rest => .word member rest
    · refine Carries.argument [] (element tag) strand rfl (fun t => rfl) found inner ?_
        fun x rest => .word member rest
      intro body enclosable x rest
      have whole : [] ++ element tag body ++ x = openTag tag ++ (body ++ closeTag tag ++ x) := by
        simp [element]
      rw [whole]
      exact .level (opened tag known) (enclosed body enclosable x rest)
    · refine Carries.argument "\\large".toList (element _) strand rfl (fun t => ?_) found inner ?_
        fun x rest => .word member rest
      · rw [List.append_assoc]
        exact (silent_spanCommand apart).substitute_append _
      · intro body enclosable x rest
        have whole : "\\large".toList ++ element "strong".toList body ++ x =
            ("\\large".toList ++ openTag "strong".toList) ++
              (body ++ closeTag "strong".toList ++ x) := by
          simp [element]
        rw [whole]
        exact .level (by decide) (enclosed body enclosable x rest)

theorem weaving_bold : Weaving Strand (spanCommand ["textbf".toList] "strong".toList) := by
  exact weaving_spanCommand "textbf".toList (by decide) (by decide)
    (spanCommand_command (by decide) _)
    (by decide)

theorem weaving_italic :
    Weaving Strand (spanCommand ["textit".toList, "emph".toList] "em".toList) := by
  exact weaving_spanCommand "textit".toList (by decide) (by decide)
    (spanCommand_command (by decide) _)
    (by decide)

theorem weaving_code : Weaving Strand (spanCommand ["texttt".toList] "code".toList) := by
  exact weaving_spanCommand "texttt".toList (by decide) (by decide)
    (spanCommand_command (by decide) _)
    (by decide)

end SlideDeck.Html
