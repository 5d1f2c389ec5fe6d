import Mathlib.Data.List.Forall2
import Mathlib.Data.Option.Basic
import SlideDeck.Proofs.Html.Fragment
import SlideDeck.Proofs.Text.Lines

/-!
# Texts that differ in comments

Two bodies that differ in the text of their comments only are converted side by side. What the
conversions look for begins with a backslash, and the text of a comment has none and no braces
(`IsRemark`). So a match in one of the bodies is a match in the other, and none of them ends inside
a comment, though it can reach across one.

The relation that the conversions keep (`Recommented`) says where a comment may begin for the
exporter: at a percent sign without a backslash directly before it. A matcher *respects* comments
(`Respects`) when its answers in related texts are alike and end in something other than a
backslash; substituting with it keeps the relation (`Recommented.substitute`). Once the comments are
removed, related texts are the same (`Recommented.dropComments_eq`).
-/

set_option autoImplicit false

namespace SlideDeck.Html

open SlideDeck SlideDeck.Text

/-! ## The relation -/

/-- Text of a comment in which no conversion finds anything: it is on one line and holds no braces
and no backslash. -/
def IsRemark (remark : Text) : Prop := ∀ c ∈ remark, c ≠ '\n' ∧ c ≠ '\\' ∧ isBrace c = false

/-- Texts that are the same up to inert comments; `escaped` tells whether a backslash stands before
them. -/
inductive Recommented : Bool → Text → Text → Prop where
  | nil {escaped : Bool} : Recommented escaped [] []
  | char {escaped : Bool} (c : Char) {s t : Text} (rest : Recommented (c == '\\') s t) :
      Recommented escaped (c :: s) (c :: t)
  | comment {first second s t : Text} (inert : IsRemark first) (inert' : IsRemark second)
      (rest : Recommented false s t) :
      Recommented false ('%' :: (first ++ '\n' :: s)) ('%' :: (second ++ '\n' :: t))
  | last {first second : Text} (inert : IsRemark first) (inert' : IsRemark second) :
      Recommented false ('%' :: first) ('%' :: second)

theorem IsRemark.newline {remark : Text} (inert : IsRemark remark) : '\n' ∉ remark :=
  fun member => (inert _ member).1 rfl

theorem IsRemark.noBrace {remark : Text} (inert : IsRemark remark) :
    ∀ c ∈ remark, (!isBrace c) = true := fun c member => by
      rw [(inert c member).2.2, Bool.not_false]

theorem IsRemark.subset {remark part : Text} (inert : IsRemark remark) (within : part ⊆ remark) :
    IsRemark part := fun c member => inert c (within member)

/-- The next brace is not in the comment. -/
theorem IsRemark.dropWhile {remark : Text} (inert : IsRemark remark) (s : Text) :
    ('%' :: (remark ++ '\n' :: s)).dropWhile (fun c => !isBrace c) =
      s.dropWhile (fun c => !isBrace c) := by
  have percent : isBrace '%' = false := by decide
  have newline : isBrace '\n' = false := by decide
  simp [List.dropWhile_append_of_pos inert.noBrace, percent, newline]

theorem IsRemark.takeWhile {remark : Text} (inert : IsRemark remark) (s : Text) :
    ('%' :: (remark ++ '\n' :: s)).takeWhile (fun c => !isBrace c) =
      '%' :: (remark ++ '\n' :: s.takeWhile (fun c => !isBrace c)) := by
  have percent : isBrace '%' = false := by decide
  have newline : isBrace '\n' = false := by decide
  simp [List.takeWhile_append_of_pos inert.noBrace, percent, newline]

theorem innermost?_eq_none {c : Char} (other : c ≠ '\x7b') (s : Text) :
    innermost? (c :: s) = none := by
  unfold innermost?
  split
  · next same => exact absurd (List.cons.inj same).1 other
  · rfl

theorem innermost?_eq_none_of_next {s behind : Text} {brace : Char}
    (next : s.dropWhile (fun c => !isBrace c) = brace :: behind) (other : brace ≠ '\x7d') :
    innermost? ('\x7b' :: s) = none := by
  rw [innermost?]
  split
  · next found =>
      rw [next] at found
      exact absurd (List.cons.inj found).1 other
  · rfl

namespace Recommented

variable {escaped : Bool} {s t : Text}

theorem refl (escaped : Bool) (s : Text) : Recommented escaped s s := by
  induction s generalizing escaped with
  | nil => exact .nil
  | cons c s ih => exact .char c (ih _)

/-- Without a backslash before them, texts may differ in one more place. -/
theorem weaken (related : Recommented escaped s t) : Recommented false s t := by
  cases related with
  | nil => exact .nil
  | char c rest => exact .char c rest
  | comment inert inert' rest => exact .comment inert inert' rest
  | last inert inert' => exact .last inert inert'

theorem isEmpty_eq (related : Recommented escaped s t) : s.isEmpty = t.isEmpty := by
  cases related <;> rfl

/-- The same text in front of related ones. -/
theorem prepend {front : Text}
    (related : Recommented (front.getLast?.elim escaped (· == '\\')) s t) :
    Recommented escaped (front ++ s) (front ++ t) := by
  induction front generalizing escaped with
  | nil => exact related
  | cons c front ih =>
      refine .char c (ih ?_)
      rw [List.getLast?_cons] at related
      cases last : front.getLast? with
      | none => simpa [last] using related
      | some d => simpa [last] using related

/-- A line end closes a comment. -/
theorem append_newline {line other : Text} (lines : Recommented escaped line other)
    (behind : Recommented false s t) :
    Recommented escaped (line ++ '\n' :: s) (other ++ '\n' :: t) := by
  induction lines with
  | nil => exact .char '\n' behind
  | char c _ ih => exact .char c ih
  | comment inert inert' _ ih =>
      simp only [List.cons_append, List.append_assoc]
      exact .comment inert inert' ih
  | last inert inert' => exact .comment inert inert' behind

/-! ## Looking at the front -/

/-- Blanks at the front are the same. -/
theorem trimStart (related : Recommented escaped s t) :
    Recommented false (trimStart s) (trimStart t) := by
  induction related with
  | nil => exact .nil
  | char c rest ih =>
      cases blank : isBlank c with
      | true => rwa [trimStart_cons_of_blank blank, trimStart_cons_of_blank blank]
      | false =>
          rw [trimStart_cons blank, trimStart_cons blank]
          exact .char c rest
  | comment inert inert' rest _ =>
      have visible : isBlank '%' = false := by decide
      rw [trimStart_cons visible, trimStart_cons visible]
      exact .comment inert inert' rest
  | last inert inert' =>
      have visible : isBlank '%' = false := by decide
      rw [trimStart_cons visible, trimStart_cons visible]
      exact .last inert inert'

/-- A text without percent sign and backslash begins both or none. -/
theorem skip {literal : Text} (plain : ∀ c ∈ literal, c ≠ '%' ∧ c ≠ '\\')
    (related : Recommented escaped s t) :
    Option.Rel (Recommented false) (skip? literal s) (skip? literal t) := by
  induction literal generalizing escaped s t with
  | nil => exact .some related.weaken
  | cons d literal ih =>
      rw [List.forall_mem_cons] at plain
      cases related with
      | nil => exact .none
      | char c rest =>
          by_cases same : d = c
          · simpa [skip?, same] using ih plain.2 rest
          · rw [skip?, skip?, if_neg same, if_neg same]
            exact .none
      | comment _ _ _ =>
          rw [skip?, skip?, if_neg plain.1.1, if_neg plain.1.1]
          exact .none
      | last _ _ =>
          rw [skip?, skip?, if_neg plain.1.1, if_neg plain.1.1]
          exact .none

theorem startsWith_eq {literal : Text} (plain : ∀ c ∈ literal, c ≠ '%' ∧ c ≠ '\\')
    (related : Recommented escaped s t) : startsWith literal s = startsWith literal t := by
  have skipped : ∀ u, startsWith literal u = (skip? literal u).isSome := by
    intro u
    rw [Bool.eq_iff_iff, startsWith_iff, Option.isSome_iff_exists]
    exact exists_congr fun rest => ⟨fun whole => skip?_eq_some_iff.mpr whole.symm,
      fun found => (skip?_eq_some_iff.mp found).symm⟩
  have same := related.skip plain
  rw [skipped, skipped]
  generalize skip? literal s = first at same ⊢
  generalize skip? literal t = second at same ⊢
  cases same with
  | none => rfl
  | some _ => rfl

theorem atWordEnd_eq (related : Recommented escaped s t) : atWordEnd s = atWordEnd t := by
  cases related <;> rfl

/-- The next brace of related texts, with the text behind it, and what stands before it in front of
anything. -/
theorem nextBrace (related : Recommented escaped s t) :
    (s.dropWhile (fun c => !isBrace c) = [] ∧ t.dropWhile (fun c => !isBrace c) = []) ∨
      ∃ brace behind behind',
        s.dropWhile (fun c => !isBrace c) = brace :: behind ∧
        t.dropWhile (fun c => !isBrace c) = brace :: behind' ∧ Recommented false behind behind' ∧
        ∀ u v, (∀ escaped, Recommented escaped u v) →
          Recommented escaped (s.takeWhile (fun c => !isBrace c) ++ u)
            (t.takeWhile (fun c => !isBrace c) ++ v) := by
  induction related with
  | nil => exact .inl ⟨rfl, rfl⟩
  | @char _ c s t rest ih =>
      cases brace : isBrace c with
      | true =>
          refine .inr ⟨c, s, t, ?_, ?_, rest.weaken, fun u v related => ?_⟩
          · simp [brace]
          · simp [brace]
          · simpa [brace] using related _
      | false =>
          simp only [List.dropWhile_cons, List.takeWhile_cons, brace, Bool.not_false, if_true]
          rcases ih with empty | ⟨c', behind, behind', here, there, rest, front⟩
          · exact .inl empty
          · exact .inr ⟨c', behind, behind', here, there, rest, fun u v related =>
              .char c (front u v related)⟩
  | @comment first second s t inert inert' rest ih =>
      rw [inert.dropWhile, inert'.dropWhile, inert.takeWhile, inert'.takeWhile]
      rcases ih with empty | ⟨c', behind, behind', here, there, rest, front⟩
      · exact .inl empty
      · refine .inr ⟨c', behind, behind', here, there, rest, fun u v related => ?_⟩
        simp only [List.cons_append, List.append_assoc]
        exact .comment inert inert' (front u v related)
  | last inert inert' =>
      have pass : ∀ {remark : Text}, IsRemark remark →
          ('%' :: remark).dropWhile (fun c => !isBrace c) = [] := by
        intro remark inert
        exact List.dropWhile_eq_nil_iff.mpr (List.forall_mem_cons.mpr ⟨by decide, inert.noBrace⟩)
      exact .inl ⟨pass inert, pass inert'⟩

/-- An argument without braces, and the text behind it. -/
theorem innermost (related : Recommented escaped s t) :
    Option.Rel (fun found other => Recommented false found.2 other.2 ∧
        ∀ u v, (∀ escaped, Recommented escaped u v) →
          Recommented false (found.1 ++ u) (other.1 ++ v))
      (innermost? s) (innermost? t) := by
  cases related with
  | nil => exact .none
  | comment _ _ _ => exact .none
  | last _ _ => exact .none
  | @char _ c s t rest =>
      by_cases opening : c = '\x7b'
      · subst opening
        rcases rest.nextBrace with
          ⟨here, there⟩ | ⟨brace, behind, behind', here, there, rest, front⟩
        · rw [innermost?, innermost?, here, there]
          exact .none
        · by_cases closing : brace = '\x7d'
          · subst closing
            rw [innermost?, innermost?, here, there]
            exact .some ⟨rest, front⟩
          · rw [innermost?_eq_none_of_next here closing, innermost?_eq_none_of_next there closing]
            exact .none
      · rw [innermost?_eq_none opening, innermost?_eq_none opening]
        exact .none

end Recommented

/-! ## Substituting -/

/-- Answers of a matcher in related texts: what is left is related, and so is what is put in front
of related texts. -/
structure SameAnswer (found other : Text × Text) : Prop where
  rest : Recommented false found.2 other.2
  replaced : ∀ escaped s t, Recommented false s t →
    Recommented escaped (found.1 ++ s) (other.1 ++ t)

/-- A matcher for what begins with a backslash and ends in something else, that answers alike in
related texts. -/
structure Respects (matcher : Matcher Text) : Prop where
  keeps : Keeps matcher
  quiet : ∀ {c : Char}, c ≠ '\\' → ∀ s, matcher (c :: s) = none
  answers : ∀ {s t : Text}, Recommented true s t →
    Option.Rel SameAnswer (matcher ('\\' :: s)) (matcher ('\\' :: t))

/-- Text whose last character is no backslash. -/
def unslashed (s : Text) : Bool := s.getLast?.any (· != '\\')

theorem Recommented.behind_unslashed {escaped : Bool} {front s t : Text}
    (last : unslashed front = true)
    (related : Recommented false s t) : Recommented escaped (front ++ s) (front ++ t) := by
  refine .prepend ?_
  rw [unslashed] at last
  cases known : front.getLast? with
  | none => simp [known] at last
  | some d =>
      have other : (d == '\\') = false := by simpa [known] using last
      simpa [other] using related

/-- Substituting passes over a comment. -/
theorem Respects.substitute_comment {matcher : Matcher Text} (respects : Respects matcher)
    {remark : Text} (inert : IsRemark remark) (s : Text) :
    substitute matcher ('%' :: (remark ++ s)) = '%' :: (remark ++ substitute matcher s) := by
  have quiet : ∀ c ∈ '%' :: remark, ∀ cs, matcher (c :: cs) = none :=
    List.forall_mem_cons.mpr ⟨respects.quiet (by decide),
      fun c member => respects.quiet (inert c member).2.1⟩
  exact substitute_append_of_quiet quiet

/-- **Substituting keeps texts related.** The induction is on the length, since a match is passed as
a whole. -/
theorem Recommented.substitute {matcher : Matcher Text} (respects : Respects matcher)
    {escaped : Bool}
    {s t : Text} (related : Recommented escaped s t) :
    Recommented escaped (substitute matcher s) (substitute matcher t) := by
  induction size : s.length using Nat.strong_induction_on generalizing escaped s t with
  | _ n ih =>
      subst size
      cases related with
      | nil => exact .nil
      | @char _ c s t rest =>
          by_cases slash : c = '\\'
          · subst slash
            have same := respects.answers rest
            cases here : matcher ('\\' :: s) with
            | none =>
                cases there : matcher ('\\' :: t) with
                | some other =>
                    rw [here, there] at same
                    cases same
                | none =>
                    rw [substitute_cons_of_none here, substitute_cons_of_none there]
                    exact .char _ (ih s.length (by simp) rest rfl)
            | some found =>
                cases there : matcher ('\\' :: t) with
                | none =>
                    rw [here, there] at same
                    cases same
                | some other =>
                    rw [here, there] at same
                    cases same with
                    | some same =>
                        have cut := respects.keeps.isSuffix here
                        have shorter := cut.length_le
                        rw [substitute_cons_of_some here cut,
                          substitute_cons_of_some there (respects.keeps.isSuffix there)]
                        exact same.replaced _ _ _
                          (ih found.2.length (by simp; omega) same.rest rfl)
          · rw [substitute_cons_of_none (respects.quiet slash s),
              substitute_cons_of_none (respects.quiet slash t)]
            exact .char c (ih s.length (by simp) rest rfl)
      | @comment first second s t inert inert' rest =>
          have newline :
              ∀ u, Text.substitute matcher ('\n' :: u) = '\n' :: Text.substitute matcher u :=
            fun u => substitute_cons_of_none (respects.quiet (by decide) u)
          rw [respects.substitute_comment inert, respects.substitute_comment inert',
            newline, newline]
          exact .comment inert inert' (ih s.length (by simp; omega) rest rfl)
      | @last first second inert inert' =>
          have whole := respects.substitute_comment inert []
          have whole' := respects.substitute_comment inert' []
          rw [substitute_nil, List.append_nil] at whole whole'
          rw [whole, whole']
          exact .last inert inert'

/-! ## The matchers of the sequence -/

/-- What the exporter looks for before it takes the listings out: a command that becomes a tag or
an entity, the command of an item, and the commands of emphasis. -/
inductive IsMarkup : Matcher Text → Prop where
  | literal {name tail : Text} {c : Char} (plain : ∀ d ∈ name, d ≠ '%' ∧ d ≠ '\\')
      (harmless : isHarmless ('\\' :: name) = true) (marked : Marked (c :: tail))
      (first : c ∈ "<&~^".toList) (noSlash : '\\' ∉ tail) :
      IsMarkup (literally ('\\' :: name) (c :: tail))
  | item : IsMarkup itemCommand
  | span {names : List Text} {tag : Text} (plain : ∀ name ∈ names, ∀ d ∈ name, d ≠ '%' ∧ d ≠ '\\')
      (harmless : ∀ name ∈ names, isHarmless ('\\' :: name) = true) (member : tag ∈ elementNames) :
      IsMarkup (spanCommand names tag)

/-- The matchers before the items are closed. -/
def earlyMatchers : List (Matcher Text) :=
  listEnvironments.flatMap (fun names =>
    [literally (Latex.beginEnvironment names.1) (openTag names.2),
      literally (Latex.endEnvironment names.1) (closeTag names.2)]) ++ [itemCommand]

/-- The matchers of one level of emphasis. -/
def emphasisMatchers : List (Matcher Text) := [
  spanCommand ["textbf".toList] "strong".toList,
  spanCommand ["textit".toList, "emph".toList] "em".toList,
  spanCommand ["texttt".toList] "code".toList]

/-- The matchers behind that, up to the listings. -/
def lateMatchers : List (Matcher Text) := [
    literally (Latex.symbol "textbackslash".toList) backslash,
    literally (Latex.symbol "textasciitilde".toList) ['~'],
    literally (Latex.symbol "textasciicircum".toList) ['^']] ++
  (List.replicate 4 emphasisMatchers).flatten

/-- Substitutes with one matcher after the other. -/
def substituteAll (matchers : List (Matcher Text)) (s : Text) : Text :=
  matchers.foldl (fun s matcher => substitute matcher s) s

theorem convertMarkup_eq (s : Text) :
    convertMarkup s = substituteAll lateMatchers (closeItems (substituteAll earlyMatchers
      (replace "[fragile]".toList [] (escapeAngles s)))) := by
  have early : ∀ s, convertItems (convertEnvironments s) = substituteAll earlyMatchers s := by
    intro s
    rw [substituteAll, earlyMatchers, List.foldl_append, List.foldl_flatMap]
    rfl
  have late : ∀ s, convertEmphasis (convertSymbols s) = substituteAll lateMatchers s := by
    intro s
    simp only [substituteAll, lateMatchers, emphasisMatchers, List.replicate, List.flatten_cons,
      List.flatten_nil, List.append_nil, List.foldl_append, List.foldl_cons, List.foldl_nil,
      convertEmphasis, repeated, convertInnermost, convertBold, convertSymbols, Text.replace]
  rw [convertMarkup, early, late]

theorem isMarkup_early : ∀ matcher ∈ earlyMatchers, IsMarkup matcher := by
  intro matcher member
  rcases List.mem_append.mp member with sides | item
  · obtain ⟨names, known, side⟩ := List.mem_flatMap.mp sides
    have fits : ∀ names ∈ listEnvironments, names.2 ∈ elementNames ∧
        (∀ c ∈ "begin".toList ++ Latex.group names.1, c ≠ '%' ∧ c ≠ '\\') ∧
        (∀ c ∈ "end".toList ++ Latex.group names.1, c ≠ '%' ∧ c ≠ '\\') ∧
        isHarmless (Latex.beginEnvironment names.1) = true ∧
        isHarmless (Latex.endEnvironment names.1) = true ∧
        '\\' ∉ names.2 ++ ['>'] ∧ '\\' ∉ '/' :: (names.2 ++ ['>']) := by decide
    obtain ⟨element, begins, ends, harmless, harmlessEnd, opens, closes⟩ := fits names known
    simp only [List.mem_cons, List.not_mem_nil, or_false] at side
    rcases side with rfl | rfl
    · exact .literal begins harmless (.of_tag (.opening element)) (by decide) opens
    · exact .literal ends harmlessEnd (.of_tag (.closing element)) (by decide) closes
  · rw [List.mem_singleton.mp item]
    exact .item

theorem isMarkup_late : ∀ matcher ∈ lateMatchers, IsMarkup matcher := by
  intro matcher member
  rcases List.mem_append.mp member with symbol | span
  · simp only [List.mem_cons, List.not_mem_nil, or_false] at symbol
    rcases symbol with rfl | rfl | rfl
    all_goals
      exact .literal (by decide) (by decide) (.of_plain (by decide) (by decide))
        (by decide) (by decide)
  · obtain ⟨level, each, inside⟩ := List.mem_flatten.mp span
    rw [List.eq_of_mem_replicate each] at inside
    simp only [emphasisMatchers, List.mem_cons, List.not_mem_nil, or_false] at inside
    rcases inside with rfl | rfl | rfl
    all_goals exact .span (by decide) (by decide) (by decide)

/-! ## What they answer -/

section Matchers

theorem respects_literally {name tail : Text} {c : Char} (plain : ∀ d ∈ name, d ≠ '%' ∧ d ≠ '\\')
    (harmless : isHarmless ('\\' :: name) = true) (marked : Marked (c :: tail))
    (last : unslashed (c :: tail) = true) :
    Respects (literally ('\\' :: name) (c :: tail)) where
  keeps := keeps_literally harmless marked
  quiet other s := by
    rw [literally, skip?, if_neg (Ne.symm other)]
    rfl
  answers {s t} related := by
    have same := related.skip plain
    rw [literally, literally, skip?, skip?, if_pos rfl, if_pos rfl]
    generalize skip? name s = found at same ⊢
    generalize skip? name t = other at same ⊢
    cases same with
    | none => exact .none
    | some rest => exact .some ⟨rest, fun _ _ _ => .behind_unslashed last⟩

theorem respects_itemCommand : Respects itemCommand where
  keeps := keeps_itemCommand
  quiet {c} other s := by
    have unmatched : skip? "\\item".toList (c :: s) = none := if_neg (Ne.symm other)
    rw [itemCommand, unmatched]
    rfl
  answers {s t} related := by
    have command : ∀ u, itemCommand ('\\' :: u) = (skip? "item".toList u).bind fun rest =>
        if atWordEnd rest then some (openTag "li".toList, Text.trimStart rest) else none :=
      fun _ => rfl
    have last : unslashed (openTag "li".toList) = true := by decide
    have same := related.skip (show ∀ c ∈ "item".toList, c ≠ '%' ∧ c ≠ '\\' by decide)
    rw [command, command]
    generalize skip? "item".toList s = found at same ⊢
    generalize skip? "item".toList t = other at same ⊢
    cases same with
    | none => exact .none
    | some rest =>
        rw [Option.bind_some, Option.bind_some, rest.atWordEnd_eq]
        split
        · exact .some ⟨rest.trimStart, fun _ _ _ => .behind_unslashed last⟩
        · exact .none

theorem respects_spanCommand {names : List Text} {tag : Text}
    (plain : ∀ name ∈ names, ∀ c ∈ name, c ≠ '%' ∧ c ≠ '\\')
    (harmless : ∀ name ∈ names, isHarmless ('\\' :: name) = true) (member : tag ∈ elementNames) :
    Respects (spanCommand names tag) where
  keeps := keeps_spanCommand harmless member
  quiet {c} other s := by
    refine List.findSome?_eq_none_iff.mpr fun name _ => ?_
    rw [skip?, if_neg (Ne.symm other)]
    rfl
  answers {s t} related := by
    have last : ∀ tag ∈ elementNames,
        unslashed (openTag tag) = true ∧ unslashed (closeTag tag) = true := by decide
    unfold spanCommand
    clear harmless
    induction names with
    | nil => exact .none
    | cons name names ih =>
        rw [List.forall_mem_cons] at plain
        have skipped := related.skip plain.1
        rw [List.findSome?_cons, List.findSome?_cons, skip?, skip?, if_pos rfl, if_pos rfl]
        generalize skip? name s = behind at skipped ⊢
        generalize skip? name t = behind' at skipped ⊢
        cases skipped with
        | none => exact ih plain.2
        | some rest =>
            rename_i rest₁ rest₂
            have argument := rest.innermost
            rw [Option.bind_some, Option.bind_some]
            generalize innermost? rest₁ = found at argument ⊢
            generalize innermost? rest₂ = other at argument ⊢
            cases argument with
            | none => exact ih plain.2
            | some both =>
                obtain ⟨opens, closes⟩ := last tag member
                refine .some ⟨both.1, fun escaped u v behind => ?_⟩
                simp only [element, List.append_assoc]
                exact .behind_unslashed opens
                  (both.2 _ _ fun _ => .behind_unslashed closes behind)

theorem unslashed_of_not_mem {c : Char} {tail : Text} (first : c ≠ '\\') (absent : '\\' ∉ tail) :
    unslashed (c :: tail) = true := by
  rw [unslashed, List.getLast?_eq_some_getLast (List.cons_ne_nil c tail), Option.any_some,
    bne_iff_ne]
  intro same
  rcases List.mem_cons.mp (same ▸ List.getLast_mem (List.cons_ne_nil c tail)) with here | later
  · exact first here.symm
  · exact absent later

theorem IsMarkup.respects {matcher : Matcher Text} (markup : IsMarkup matcher) :
    Respects matcher := by
  cases markup with
  | @literal name tail c plain harmless marked first noSlash =>
      have other : ∀ c ∈ "<&~^".toList, c ≠ '\\' := by decide
      exact respects_literally plain harmless marked (unslashed_of_not_mem (other c first) noSlash)
  | item => exact respects_itemCommand
  | span plain harmless member => exact respects_spanCommand plain harmless member

end Matchers

theorem Recommented.substituteAll {matchers : List (Matcher Text)}
    (each : ∀ matcher ∈ matchers, IsMarkup matcher)
    {s t : Text} (related : Recommented false s t) :
    Recommented false (substituteAll matchers s) (substituteAll matchers t) := by
  induction matchers generalizing s t with
  | nil => exact related
  | cons matcher matchers ih =>
      rw [List.forall_mem_cons] at each
      exact ih each.2 (related.substitute each.1.respects)

/-! ## Closing the items -/

section Items

variable {s t : Text}

theorem dropReturn_cons {c : Char} (other : c ≠ '\r') (s : Text) :
    dropReturn (c :: s) = c :: dropReturn s := by
  rw [dropReturn]
  exact fun same => absurd same other

theorem Recommented.dropReturn {escaped : Bool} (related : Recommented escaped s t) :
    Recommented escaped (dropReturn s) (dropReturn t) := by
  induction related with
  | nil => exact .nil
  | @char _ c s t rest ih =>
      have empty := rest.isEmpty_eq
      by_cases isNil : s = []
      · subst isNil
        obtain rfl : t = [] := List.isEmpty_iff.mp empty.symm
        exact .refl _ _
      · have nonempty : t ≠ [] :=
          fun same => isNil (List.isEmpty_iff.mp (empty.trans (by rw [same]; rfl)))
        have here : Text.dropReturn (c :: s) = c :: Text.dropReturn s := dropReturn_append [c] isNil
        have there : Text.dropReturn (c :: t) = c :: Text.dropReturn t :=
          dropReturn_append [c] nonempty
        rw [here, there]
        exact .char c ih
  | comment inert inert' rest ih =>
      have newline : ∀ u, Text.dropReturn ('\n' :: u) = '\n' :: Text.dropReturn u :=
        dropReturn_cons (by decide)
      rw [dropReturn_cons (by decide), dropReturn_cons (by decide),
        dropReturn_append _ (List.cons_ne_nil _ _), dropReturn_append _ (List.cons_ne_nil _ _),
        newline, newline]
      exact .comment inert inert' ih
  | @last first second inert inert' =>
      rw [dropReturn_cons (by decide), dropReturn_cons (by decide)]
      exact .last (inert.subset (dropReturn_isPrefix first).subset)
        (inert'.subset (dropReturn_isPrefix second).subset)

theorem Recommented.mark_eq {escaped : Bool} (related : Recommented escaped s t) :
    ListMark.of s = ListMark.of t := by
  have trimmed := related.trimStart
  have begins : ∀ tag ∈ [openTag "ul".toList, openTag "ol".toList, openTag "li".toList,
      closeTag "ul".toList, closeTag "ol".toList],
      startsWith tag (Text.trimStart s) = startsWith tag (Text.trimStart t) := by
    have plain : ∀ tag ∈ [openTag "ul".toList, openTag "ol".toList, openTag "li".toList,
        closeTag "ul".toList, closeTag "ol".toList], ∀ c ∈ tag, c ≠ '%' ∧ c ≠ '\\' := by decide
    exact fun tag member => trimmed.startsWith_eq (plain tag member)
  simp only [List.forall_mem_cons] at begins
  obtain ⟨ul, ol, li, noUl, noOl, -⟩ := begins
  simp only [ListMark.of, ul, ol, li, noUl, noOl]

/-- The pieces of related texts between line ends are related. -/
theorem Recommented.splitAt {escaped : Bool} (related : Recommented escaped s t) :
    ∃ first others second more, splitAt '\n' s = first :: others ∧ splitAt '\n' t = second :: more ∧
      Recommented escaped first second ∧ List.Forall₂ (Recommented false) others more := by
  induction related with
  | nil => exact ⟨[], [], [], [], rfl, rfl, .nil, .nil⟩
  | @char _ c s t rest ih =>
      obtain ⟨first, others, second, more, here, there, same, each⟩ := ih
      by_cases newline : c = '\n'
      · subst newline
        exact ⟨[], first :: others, [], second :: more, by simp [Text.splitAt, here],
          by simp [Text.splitAt, there], .nil, .cons same.weaken each⟩
      · exact ⟨c :: first, others, c :: second, more, by simp [Text.splitAt, here, newline],
          by simp [Text.splitAt, there, newline], .char c same, each⟩
  | @comment first second s t inert inert' rest ih =>
      obtain ⟨next, others, next', more, here, there, same, each⟩ := ih
      have cut : ∀ {remark : Text} (u : Text), IsRemark remark →
          Text.splitAt '\n' ('%' :: (remark ++ '\n' :: u)) =
            ('%' :: remark) :: Text.splitAt '\n' u := by
        intro remark u inert
        have absent : '\n' ∉ '%' :: remark := by simp [inert.newline]
        exact (splitAt_append_cons '\n' ('%' :: remark) u).trans
          (congrArg (· ++ Text.splitAt '\n' u) (splitAt_of_not_mem absent))
      exact ⟨_, _, _, _, cut s inert, cut t inert', .last inert inert',
        here ▸ there ▸ .cons same each⟩
  | last inert inert' =>
      have whole : ∀ {remark : Text}, IsRemark remark → '\n' ∉ '%' :: remark := by
        intro remark inert
        simp [inert.newline]
      exact ⟨_, _, _, _, splitAt_of_not_mem (whole inert), splitAt_of_not_mem (whole inert'),
        .last inert inert', .nil⟩

theorem Recommented.linesOfPieces {first second : List Text}
    (related : List.Forall₂ (Recommented false) first second) :
    List.Forall₂ (Recommented false) (linesOfPieces first) (linesOfPieces second) := by
  induction related with
  | nil => exact .nil
  | cons same others ih =>
      cases others with
      | nil =>
          rw [Text.linesOfPieces, Text.linesOfPieces, same.isEmpty_eq]
          split
          · exact .nil
          · exact .cons same .nil
      | cons _ _ => exact .cons same.dropReturn ih

theorem Recommented.closeItemsFrom {first second : List Text} (opened : List Bool)
    (related : List.Forall₂ (Recommented false) first second) :
    List.Forall₂ (Recommented false) (closeItemsFrom opened first)
      (closeItemsFrom opened second) := by
  induction related generalizing opened with
  | nil => exact .nil
  | cons same _ ih =>
      rw [Html.closeItemsFrom, Html.closeItemsFrom, same.mark_eq]
      exact List.rel_append (List.forall₂_same.mpr fun line _ => .refl false line)
        (.cons same (ih _))

theorem Recommented.unlines {first second : List Text}
    (related : List.Forall₂ (Recommented false) first second) :
    Recommented false (unlines first) (unlines second) := by
  induction related with
  | nil => exact .nil
  | cons same others ih =>
      cases others with
      | nil => exact same
      | cons _ _ =>
          rw [unlines_cons_cons, unlines_cons_cons]
          exact same.append_newline ih

theorem Recommented.closeItems (related : Recommented false s t) :
    Recommented false (closeItems s) (closeItems t) := by
  obtain ⟨first, others, second, more, here, there, same, each⟩ := related.splitAt
  have pieces : List.Forall₂ (Recommented false) (Text.splitAt '\n' s) (Text.splitAt '\n' t) :=
    here ▸ there ▸ .cons same each
  exact .unlines (Recommented.closeItemsFrom [] (Recommented.linesOfPieces pieces))

/-! ## Removing the comments -/

/-- **Without their comments related texts are the same**, also where both are cut in a comment. -/
theorem Recommented.dropCommentsFrom_eq {escaped : Bool} (related : Recommented escaped s t) :
    dropCommentsFrom escaped false s = dropCommentsFrom escaped false t ∧
      ∀ behind, dropCommentsFrom behind true s = dropCommentsFrom behind true t := by
  induction related with
  | nil => exact ⟨rfl, fun _ => rfl⟩
  | @char escaped c s t rest ih =>
      obtain ⟨outside, inside⟩ := ih
      by_cases newline : c = '\n'
      · subst newline
        have next : dropCommentsFrom false false s = dropCommentsFrom false false t := outside
        simp only [dropCommentsFrom, if_true, next, implies_true, and_self]
      · simp only [dropCommentsFrom, if_neg newline, if_true, inside, outside,
          implies_true, and_self]
  | @comment first second s t inert inert' rest ih =>
      have same : dropCommentsFrom false true (first ++ '\n' :: s) =
          dropCommentsFrom false true (second ++ '\n' :: t) := by
        rw [dropCommentsFrom_inside inert.newline, dropCommentsFrom_inside inert'.newline,
          dropCommentsFrom, dropCommentsFrom, if_pos rfl, if_pos rfl, ih.1]
      exact ⟨same, fun _ => same⟩
  | @last first second inert inert' =>
      have nothing :
          ∀ {remark : Text}, IsRemark remark → dropCommentsFrom false true remark = [] := by
        intro remark inert
        have empty : dropCommentsFrom false true (remark ++ []) = [] := by
          rw [dropCommentsFrom_inside inert.newline]
          rfl
        rwa [List.append_nil] at empty
      have same : dropCommentsFrom false true first = dropCommentsFrom false true second := by
        rw [nothing inert, nothing inert']
      exact ⟨same, fun _ => same⟩

theorem Recommented.dropComments_eq (related : Recommented false s t) :
    dropComments s = dropComments t := related.dropCommentsFrom_eq.1

end Items

end SlideDeck.Html
