import SlideDeck.Proofs.Html.Emphasis
import SlideDeck.Proofs.Html.Escaped

/-!
# The last conversions of a fragment

Behind its tables and line breaks, the commands of a text go, its braces and escapes are resolved
and its gaps collapse (`finish`). In a strand, a command with an argument goes inside of the strand
(`dropArguments_append`). Nothing that is looked for later reaches across an angle bracket, nor,
gaps apart, across a blank (`BreaksAt`): so what stands between the tags of a text is converted by
itself.

Only blanks come in the place of gaps. So it makes no difference whether the blanks at the ends of a
strand are cut off before the last conversions or behind them (`trim_finish_trim`).
-/

set_option autoImplicit false

namespace SlideDeck

open SlideDeck.Text SlideDeck.Latex

namespace Text

theorem takeWhile_subset_of_isPrefix {p : Char → Bool} {s t : Text} (starts : s <+: t) :
    s.takeWhile p ⊆ t.takeWhile p := by
  obtain ⟨behind, rfl⟩ := starts
  rw [List.takeWhile_append]
  split
  · next all =>
      rw [(List.takeWhile_prefix p).eq_of_length all]
      exact List.subset_append_left s _
  · exact List.Subset.refl _

section While

variable {p : Char → Bool} {c : Char} (stops : p c = false) (s t : Text)

include stops

theorem takeWhile_append_cons : (s ++ c :: t).takeWhile p = s.takeWhile p := by
  induction s with
  | nil => exact List.takeWhile_cons_of_neg (by simp [stops])
  | cons d s ih => cases taken : p d <;> simp [taken, ih]

theorem dropWhile_append_cons : (s ++ c :: t).dropWhile p = s.dropWhile p ++ c :: t := by
  induction s with
  | nil => exact List.dropWhile_cons_of_neg (by simp [stops])
  | cons d s ih => cases taken : p d <;> simp [taken, ih]

end While

end Text

namespace Html

/-! ## The names of commands -/

section Boundaries

variable {c : Char}

/-- Where the matcher sees the same in front of a character as at the end of a text, nothing is
substituted across it. -/
theorem breaksAt_substitute {matcher : Matcher Text} (keeps : Keeps matcher)
    (same : ∀ s t, matcher (s ++ c :: t) = (matcher s).map (Prod.map id (· ++ c :: t))) :
    BreaksAt c (substitute matcher) where
  nil := rfl
  around s t := by
    have seen := same s t
    induction s using pass_induction matcher with
    | nil =>
        have unmatched : matcher [] = none := by
          by_contra answers
          obtain ⟨answer, found⟩ := Option.ne_none_iff_exists'.mp answers
          obtain ⟨d, ds, empty, -⟩ := keeps found
          cases empty
        rw [unmatched] at seen
        exact substitute_cons_of_none seen
    | quiet d s unmatched ih =>
        rw [unmatched, List.cons_append] at seen
        rw [substitute_cons_of_none unmatched, List.cons_append, substitute_cons_of_none seen,
          ih (same s t), List.cons_append]
    | found d s replacement rest found ih =>
        have cut := keeps.isSuffix found
        have suffix : rest ++ c :: t <:+ s ++ c :: t := by
          obtain ⟨used, rfl⟩ := cut
          exact ⟨used, (List.append_assoc _ _ _).symm⟩
        rw [found, List.cons_append] at seen
        rw [substitute_cons_of_some found cut, List.cons_append,
          substitute_cons_of_some seen suffix]
        exact (congrArg (replacement ++ ·) (ih cut (same rest t))).trans
          (List.append_assoc _ _ _).symm

/-- Whether the character goes on with no command and no escape. -/
def isBoundary (c : Char) : Bool := !c.isAlpha && !"\\*_&%$#\x7b\x7d".toList.contains c

theorem isBoundary_of_isBlank (blank : isBlank c = true) : isBoundary c = true := by
  have visible : ∀ d ∈ "\\*_&%$#\x7b\x7d".toList, isBlank d = false := by decide
  have other : c ∉ "\\*_&%$#\x7b\x7d".toList := fun member =>
    absurd blank (by rw [visible c member]; decide)
  have letter : c.isAlpha = false := by
    by_contra letter
    unfold Char.isAlpha Char.isUpper Char.isLower at letter
    simp only [Bool.not_eq_false, Bool.or_eq_true, Bool.and_eq_true, decide_eq_true_eq, ge_iff_le,
      UInt32.le_iff_toNat_le] at letter
    change (65 ≤ c.toNat ∧ c.toNat ≤ 90) ∨ (97 ≤ c.toNat ∧ c.toNat ≤ 122) at letter
    have printable : 0x21 ≤ c.toNat ∧ c.toNat ≤ 0x7E := by omega
    rw [isBlank_of_printable printable.1 printable.2] at blank
    cases blank
  rw [isBoundary, letter, Bool.not_false, Bool.true_and, Bool.not_eq_true', List.contains_eq_mem]
  exact decide_eq_false other

section Boundary

variable (boundary : isBoundary c = true)

include boundary

theorem ne_of_isBoundary {d : Char} (special : isBoundary d = false) : c ≠ d := by
  rintro rfl
  rw [boundary] at special
  cases special

theorem isAlpha_of_isBoundary : c.isAlpha = false := by
  rw [isBoundary, Bool.and_eq_true, Bool.not_eq_true'] at boundary
  exact boundary.1

theorem commandName?_append_cons (s t : Text) :
    commandName? (s ++ c :: t) = (commandName? s).map (· ++ c :: t) := by
  have noLetter := isAlpha_of_isBoundary boundary
  have unstarred : ∀ u, withoutStar (u ++ c :: t) = withoutStar u ++ c :: t := by
    intro u
    have notStar := ne_of_isBoundary boundary (by decide : isBoundary '*' = false)
    unfold withoutStar
    cases u with
    | nil => simp [notStar]
    | cons d u => by_cases star : d = '*' <;> simp [star]
  have letters :
      ∀ u : Text, (u ++ c :: t).dropWhile Char.isAlpha = u.dropWhile Char.isAlpha ++ c :: t :=
    fun u => dropWhile_append_cons noLetter u t
  cases s with
  | nil => exact commandName?_of_ne (ne_of_isBoundary boundary (by decide)) t
  | cons d s =>
      by_cases slash : d = '\\'
      · subst slash
        cases s with
        | nil => simp [commandName?, noLetter]
        | cons e s =>
            simp only [List.cons_append, commandName?, letters, unstarred]
            split <;> rfl
      · rw [commandName?_of_ne slash s]
        exact commandName?_of_ne slash (s ++ c :: t)

theorem breaksAt_commandName : BreaksAt c (remove commandName?) := by
  refine breaksAt_substitute keepsRest_commandName.remove fun s t => ?_
  rw [commandName?_append_cons boundary, Option.map_map, Option.map_map]
  rfl

theorem breaksAt_dropGroupBraces : BreaksAt c dropGroupBraces where
  nil := rfl
  around s t := by
    have noBrace : isBrace c = false := by
      simp [isBrace, ne_of_isBoundary boundary (by decide : isBoundary '\x7b' = false),
        ne_of_isBoundary boundary (by decide : isBoundary '\x7d' = false)]
    have noSlash : (c == '\\') = false :=
      beq_eq_false_iff_ne.mpr (ne_of_isBoundary boundary (by decide))
    have each : ∀ escaped, dropGroupBracesFrom escaped (s ++ c :: t) =
        dropGroupBracesFrom escaped s ++ c :: dropGroupBraces t := by
      induction s with
      | nil =>
          intro escaped
          simp only [List.nil_append, dropGroupBracesFrom, noBrace, noSlash, Bool.false_and,
            Bool.false_eq_true, if_false]
          rfl
      | cons d s ih =>
          intro escaped
          rw [List.cons_append, dropGroupBracesFrom, dropGroupBracesFrom, ih, ih]
          split <;> rfl
    exact each false

theorem breaksAt_resolveEscapes : BreaksAt c resolveEscapes := by
  have absent : ∀ entry ∈ escapes, ∃ d literal, entry.1 = d :: literal ∧ c ∉ d :: literal := by
    have each : ∀ entry ∈ escapes, entry.1 ≠ [] ∧ ∀ d ∈ entry.1, isBoundary d = false := by decide
    intro entry member
    obtain ⟨d, literal, whole⟩ := List.exists_cons_of_ne_nil (each entry member).1
    refine ⟨d, literal, whole, fun inside => ?_⟩
    have special := (each entry member).2 c (whole ▸ inside)
    rw [boundary] at special
    cases special
  unfold resolveEscapes
  generalize escapes = entries at absent
  induction entries with
  | nil => exact ⟨rfl, fun s t => rfl⟩
  | cons entry entries ih =>
      rw [List.forall_mem_cons] at absent
      obtain ⟨⟨d, literal, whole, other⟩, later⟩ := absent
      have first : BreaksAt c (replace entry.1 entry.2) := whole ▸ .replace other entry.2
      exact first.comp (ih later)

end Boundary

end Boundaries

/-! ## Gaps -/

theorem isBlank_of_isGapChar {c : Char} (gap : isGapChar c = true) : isBlank c = true := by
  simp only [isGapChar, isLineBlank, Bool.or_eq_true, beq_iff_eq] at gap
  rcases gap with (rfl | rfl) | rfl <;> decide

theorem breaksAt_collapseGaps {c : Char} (visible : isBlank c = false) :
    BreaksAt c collapseGaps := by
  have outside : isGapChar c = false := by
    by_contra gap
    rw [Bool.not_eq_false] at gap
    rw [isBlank_of_isGapChar gap] at visible
    cases visible
  refine breaksAt_substitute keeps_gap fun s t => ?_
  cases s with
  | nil =>
      refine gap?_of_ne ?_ t
      rintro rfl
      exact absurd visible (by decide)
  | cons d s =>
      by_cases newline : d = '\n'
      · subst newline
        simp only [List.cons_append, gap?, takeWhile_append_cons outside,
          dropWhile_append_cons outside]
        split <;> rfl
      · rw [gap?_of_ne newline]
        exact gap?_of_ne newline (s ++ c :: t)

/-- The gap at a newline. -/
theorem collapseGaps_newline (s : Text) : collapseGaps ('\n' :: s) =
    if '\n' ∈ s.takeWhile isGapChar then '\n' :: '\n' :: collapseGaps (s.dropWhile isGapChar)
    else '\n' :: collapseGaps s := by
  by_cases gap : '\n' ∈ s.takeWhile isGapChar
  · have found : gap? ('\n' :: s) = some (['\n', '\n'], s.dropWhile isGapChar) := if_pos gap
    rw [if_pos gap]
    exact substitute_cons_of_some found (List.dropWhile_suffix _)
  · have quiet : gap? ('\n' :: s) = none := if_neg gap
    rw [if_neg gap]
    exact substitute_cons_of_none quiet

/-- Where no gap begins, none begins when the text ends earlier. -/
theorem gap?_of_isPrefix {c : Char} {s t : Text} (quiet : gap? (c :: s) = none) (part : t <+: s) :
    gap? (c :: t) = none := by
  cases shorter : gap? (c :: t) with
  | none => rfl
  | some answer =>
      obtain ⟨behind, same, gap, -, -⟩ := gap?_eq_some shorter
      obtain ⟨rfl, rfl⟩ := List.cons.inj same
      have found : gap? ('\n' :: s) = some _ := if_pos (takeWhile_subset_of_isPrefix part gap)
      rw [quiet] at found
      cases found

theorem collapseGaps_cons {c : Char} (other : c ≠ '\n') (s : Text) :
    collapseGaps (c :: s) = c :: collapseGaps s :=
  substitute_cons_of_none (gap?_of_ne other s)

theorem trimStart_collapseGaps (s : Text) :
    trimStart (collapseGaps s) = collapseGaps (trimStart s) := by
  induction s using pass_induction gap? with
  | nil => rfl
  | quiet c s unmatched ih =>
      have stays : collapseGaps (c :: s) = c :: collapseGaps s := substitute_cons_of_none unmatched
      cases blank : isBlank c with
      | false => rw [trimStart_cons blank, stays, trimStart_cons blank]
      | true => rw [trimStart_cons_of_blank blank, stays, trimStart_cons_of_blank blank, ih]
  | found c s replacement rest found ih =>
      obtain ⟨behind, same, gap, -, rfl⟩ := gap?_eq_some found
      obtain ⟨rfl, rfl⟩ := List.cons.inj same
      have skipped : trimStart (s.dropWhile isGapChar) = trimStart s := by
        have front : trimStart (s.takeWhile isGapChar) = [] :=
          List.dropWhile_eq_nil_iff.mpr fun d member =>
            isBlank_of_isGapChar (List.mem_takeWhile_imp member)
        have whole := trimStart_append_of_eq_nil front (s.dropWhile isGapChar)
        rw [List.takeWhile_append_dropWhile] at whole
        exact whole.symm
      rw [collapseGaps_newline, if_pos gap, trimStart_cons_of_blank (by decide),
        trimStart_cons_of_blank (by decide), trimStart_cons_of_blank (by decide),
        ih (List.dropWhile_suffix _), skipped]

theorem collapseGaps_eq_nil {s : Text} (empty : collapseGaps s = []) : s = [] := by
  cases s with
  | nil => rfl
  | cons c s =>
      by_cases newline : c = '\n'
      · subst newline
        rw [collapseGaps_newline] at empty
        split at empty <;> cases empty
      · rw [collapseGaps_cons newline] at empty
        cases empty

/-- What is left behind the blanks of a gap begins as before. -/
theorem gap_trimEnd {s : Text} (nonempty : trimEnd (s.dropWhile isGapChar) ≠ []) :
    (trimEnd s).takeWhile isGapChar = s.takeWhile isGapChar ∧
      (trimEnd s).dropWhile isGapChar = trimEnd (s.dropWhile isGapChar) := by
  have whole : trimEnd s = s.takeWhile isGapChar ++ trimEnd (s.dropWhile isGapChar) := by
    rw [← trimEnd_append_of_ne_nil _ nonempty, List.takeWhile_append_dropWhile]
  obtain ⟨d, ds, kept⟩ := List.exists_cons_of_ne_nil nonempty
  obtain ⟨back, begins⟩ := trimEnd_isPrefix (s.dropWhile isGapChar)
  have outside : isGapChar d = false := by
    have head := List.head?_dropWhile_not isGapChar s
    rw [← begins, kept] at head
    simpa using head
  have all : ∀ e ∈ s.takeWhile isGapChar, isGapChar e = true := fun e member =>
    List.mem_takeWhile_imp member
  rw [whole, kept, List.takeWhile_append_of_pos all, List.dropWhile_append_of_pos all]
  simp [outside]

/-- A character in front of a text stays, unless it is blank and all behind it is. -/
theorem trimEnd_collapseGaps_cons {c : Char} {s : Text}
    (later : trimEnd (collapseGaps s) = collapseGaps (trimEnd s))
    (stays : collapseGaps (c :: trimEnd s) = c :: collapseGaps (trimEnd s))
    (alone : collapseGaps [c] = [c]) :
    trimEnd (c :: collapseGaps s) = collapseGaps (trimEnd (c :: s)) := by
  by_cases isNil : trimEnd s = []
  · rw [isNil] at later
    have empty : trimEnd (collapseGaps s) = [] := later
    have first : ∀ u, trimEnd u = [] → trimEnd (c :: u) = trimEnd [c] := fun u isNil =>
      trimEnd_append_of_eq_nil [c] isNil
    rw [first _ empty, first _ isNil]
    cases blank : isBlank c with
    | true =>
        have gone : trimEnd [c] = [] := trimEnd_eq_nil_iff.mpr (List.forall_mem_singleton.mpr blank)
        rw [gone]
        rfl
    | false =>
        have kept : trimEnd [c] = [c] := trimEnd_cons blank []
        rw [kept, alone]
  · have nonempty : trimEnd (collapseGaps s) ≠ [] := fun empty =>
      isNil (collapseGaps_eq_nil (later.symm.trans empty))
    rw [trimEnd_cons_of_ne_nil c nonempty, trimEnd_cons_of_ne_nil c isNil, later, stays]

/-- A gap stays, unless all behind it is blank. -/
theorem trimEnd_collapseGaps_gap {s : Text} (gap : '\n' ∈ s.takeWhile isGapChar)
    (behind : trimEnd (collapseGaps (s.dropWhile isGapChar)) =
      collapseGaps (trimEnd (s.dropWhile isGapChar))) :
    trimEnd ('\n' :: '\n' :: collapseGaps (s.dropWhile isGapChar)) =
      collapseGaps (trimEnd ('\n' :: s)) := by
  by_cases isNil : trimEnd (s.dropWhile isGapChar) = []
  · have blank : trimEnd ('\n' :: s) = [] := by
      refine trimEnd_eq_nil_iff.mpr (List.forall_mem_cons.mpr ⟨by decide, fun d member => ?_⟩)
      rw [← List.takeWhile_append_dropWhile (p := isGapChar) (l := s)] at member
      rcases List.mem_append.mp member with member | member
      · exact isBlank_of_isGapChar (List.mem_takeWhile_imp member)
      · exact trimEnd_eq_nil_iff.mp isNil d member
    rw [isNil] at behind
    have empty : trimEnd (collapseGaps (s.dropWhile isGapChar)) = [] := behind
    rw [blank]
    exact trimEnd_append_of_eq_nil ['\n', '\n'] empty
  · obtain ⟨taken, dropped⟩ := gap_trimEnd isNil
    have someBehind : trimEnd (collapseGaps (s.dropWhile isGapChar)) ≠ [] := fun empty =>
      isNil (collapseGaps_eq_nil (behind.symm.trans empty))
    have nonempty : trimEnd s ≠ [] := by
      intro empty
      rw [empty] at dropped
      exact isNil dropped.symm
    rw [trimEnd_cons_of_ne_nil '\n' nonempty, collapseGaps_newline, taken, dropped,
      if_pos gap, ← behind]
    exact trimEnd_append_of_ne_nil ['\n', '\n'] someBehind

theorem trimEnd_collapseGaps (s : Text) : trimEnd (collapseGaps s) = collapseGaps (trimEnd s) := by
  induction s using pass_induction gap? with
  | nil => rfl
  | quiet c s unmatched ih =>
      have stays : ∀ {t}, t <+: s → collapseGaps (c :: t) = c :: collapseGaps t := fun part =>
        substitute_cons_of_none (gap?_of_isPrefix unmatched part)
      rw [stays List.prefix_rfl]
      exact trimEnd_collapseGaps_cons ih (stays (trimEnd_isPrefix s)) (stays List.nil_prefix)
  | found c s replacement rest found ih =>
      obtain ⟨behind, same, gap, -, rfl⟩ := gap?_eq_some found
      obtain ⟨rfl, rfl⟩ := List.cons.inj same
      rw [collapseGaps_newline, if_pos gap]
      exact trimEnd_collapseGaps_gap gap (ih (List.dropWhile_suffix _))

theorem trim_collapseGaps (s : Text) : trim (collapseGaps s) = collapseGaps (trim s) := by
  rw [trim, trimStart_collapseGaps, trimEnd_collapseGaps, trim]

/-! ## Commands with arguments -/

section Strands

variable {s : Text}

theorem dropArguments_append (strand : Strand 0 s) (t : Text) :
    dropArguments (s ++ t) = dropArguments s ++ dropArguments t := by
  have sized := weaves_sizes.strand (weaves_centering.strand strand)
  have left := weaves_pictures.strand sized
  have argued := (weaving_dropsArgument.substitute left).2
  rw [dropArguments, weaves_centering.append strand,
    weaves_sizes.append (weaves_centering.strand strand), weaves_pictures.append sized]
  exact argued _

theorem commandless_of_not_mem (absent : '\\' ∉ s) : commandless s = true := by
  induction s with
  | nil => rfl
  | cons c s ih =>
      rw [List.mem_cons, not_or] at absent
      rw [commandless, bne_iff_ne.mpr (Ne.symm absent.1), ih absent.2]
      rfl

theorem slash_not_mem_blanks (areBlank : ∀ c ∈ s, isBlank c = true) : '\\' ∉ s := fun member =>
  absurd (areBlank _ member) (by decide)

theorem strand_blanks (areBlank : ∀ c ∈ s, isBlank c = true) : Strand 0 s :=
  .of_text fun c member => Strand.isText_of_isBlank (areBlank c member)

/-- The blanks around a strand stay. -/
theorem dropArguments_between {front back : Text} (first : ∀ c ∈ front, isBlank c = true)
    (strand : Strand 0 s) (last : ∀ c ∈ back, isBlank c = true) :
    dropArguments (front ++ (s ++ back)) = front ++ (dropArguments s ++ back) := by
  have kept : ∀ {blanks : Text}, (∀ c ∈ blanks, isBlank c = true) → dropArguments blanks = blanks :=
    fun areBlank =>
      dropArguments_of_commandless (commandless_of_not_mem (slash_not_mem_blanks areBlank))
  rw [dropArguments_append (strand_blanks first), dropArguments_append strand,
    kept first, kept last]

end Strands

/-! ## The last conversions -/

/-- Removes the names of commands that are left, the braces of groups and the backslashes of
escapes. -/
def unwrap (s : Text) : Text := resolveEscapes (dropGroupBraces (remove commandName? s))

/-- What is done with a fragment behind its tables and line breaks. -/
def finish (s : Text) : Text := collapseGaps (unwrap (dropArguments s))

theorem convertRest_eq (s : Text) : convertRest s =
    finish (replace rowEnd (openTag "br".toList) (convertTables (dropComments s))) := rfl

theorem breaksAt_unwrap {c : Char} (boundary : isBoundary c = true) : BreaksAt c unwrap :=
  ((breaksAt_commandName boundary).comp (breaksAt_dropGroupBraces boundary)).comp
    (breaksAt_resolveEscapes boundary)

theorem wordwise_unwrap : Wordwise unwrap where
  nil := rfl
  blank s t {_} blank := (breaksAt_unwrap (isBoundary_of_isBlank blank)).around s t

/-- **It makes no difference whether a strand is trimmed before the last conversions, too.** -/
theorem trim_finish_trim {s : Text} (strand : Strand 0 s) :
    trim (finish (trim s)) = trim (finish s) := by
  obtain ⟨front, back, whole, first, last⟩ := exists_blanks_trim s
  have around : unwrap (dropArguments s) = front ++ (unwrap (dropArguments (trim s)) ++ back) := by
    calc unwrap (dropArguments s)
        = unwrap (front ++ (dropArguments (trim s) ++ back)) := by
          rw [← dropArguments_between first strand.trim last, ← whole]
      _ = front ++ unwrap (dropArguments (trim s) ++ back) := wordwise_unwrap.blanks_append first _
      _ = front ++ (unwrap (dropArguments (trim s)) ++ back) := by
          rw [wordwise_unwrap.append_blanks last]
  rw [finish, finish, trim_collapseGaps, trim_collapseGaps, around, trim_between_blanks first last]

end Html

end SlideDeck
