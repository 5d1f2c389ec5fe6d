import Mathlib.Data.List.DropRight
import SlideDeck.Text.Basic

/-!
# Trimming

What trimming takes away are blanks, and blanks only: what is left is a part of the text
(`trim_isInfix`), and a text is its trimmed part with blanks behind it
(`exists_blanks_trimEnd`). A character that is no blank protects what stands on its other
side (`trimStart_append`, `trimEnd_append_of_ne_nil`). The carriage return that a line end
takes along is the last character of a line (`dropReturn_isPrefix`). What one blank at an end
makes no difference to, any number of them does not (`apply_blanks_append`,
`apply_append_blanks`).
-/

set_option autoImplicit false

namespace SlideDeck.Text

/-! ## Blanks -/

/-- Of the ASCII characters, the visible ones are no blanks. -/
theorem isBlank_of_printable {c : Char} (first : 0x21 ≤ c.toNat) (last : c.toNat ≤ 0x7E) :
    isBlank c = false := by
  simp only [isBlank, Bool.or_eq_false_iff, Bool.and_eq_false_iff, decide_eq_false_iff_not,
    beq_eq_false_iff_ne]
  omega

theorem isBlank_of_isAlpha {c : Char} (letter : c.isAlpha = true) : isBlank c = false := by
  rcases Bool.or_eq_true_iff.mp letter with upper | lower
  · have bounds : 65 ≤ c.toNat ∧ c.toNat ≤ 90 := of_decide_eq_true upper
    exact isBlank_of_printable (by omega) (by omega)
  · obtain ⟨first, last⟩ := Bool.and_eq_true_iff.mp lower
    have bounds : 97 ≤ c.toNat ∧ c.toNat ≤ 122 := ⟨of_decide_eq_true first, of_decide_eq_true last⟩
    exact isBlank_of_printable (by omega) (by omega)

theorem isBlank_of_isAlphanum {c : Char} (alphanumeric : c.isAlphanum = true) :
    isBlank c = false := by
  rcases Bool.or_eq_true_iff.mp alphanumeric with letter | digit
  · exact isBlank_of_isAlpha letter
  · obtain ⟨first, last⟩ := Bool.and_eq_true_iff.mp digit
    have bounds : 48 ≤ c.toNat ∧ c.toNat ≤ 57 := ⟨of_decide_eq_true first, of_decide_eq_true last⟩
    exact isBlank_of_printable (by omega) (by omega)

theorem ne_of_isBlank {b c : Char} (blank : isBlank b = true) (visible : isBlank c = false) :
    b ≠ c := by
  rintro rfl
  rw [blank] at visible
  cases visible

/-! ## What blanks make no difference to -/

section Apply

variable {β : Type} (f : Text → β) {blanks : Text}

/-- Where no blank in front makes a difference, any number of them makes none. -/
theorem apply_blanks_append (passed : ∀ c s, isBlank c = true → f (c :: s) = f s)
    (areBlank : ∀ c ∈ blanks, isBlank c = true) (s : Text) : f (blanks ++ s) = f s := by
  induction blanks with
  | nil => rfl
  | cons c blanks ih =>
      rw [List.forall_mem_cons] at areBlank
      rw [List.cons_append, passed c _ areBlank.1, ih areBlank.2]

/-- Where no blank behind makes a difference, any number of them makes none. -/
theorem apply_append_blanks (passed : ∀ s c, isBlank c = true → f (s ++ [c]) = f s) (s : Text)
    (areBlank : ∀ c ∈ blanks, isBlank c = true) : f (s ++ blanks) = f s := by
  induction blanks generalizing s with
  | nil => rw [List.append_nil]
  | cons c blanks ih =>
      rw [List.forall_mem_cons] at areBlank
      rw [List.append_cons, ih (s ++ [c]) areBlank.2, passed s c areBlank.1]

theorem apply_trimStart (passed : ∀ c s, isBlank c = true → f (c :: s) = f s) (s : Text) :
    f (trimStart s) = f s := by
  have areBlank : ∀ c ∈ s.takeWhile isBlank, isBlank c = true := fun c member =>
    List.mem_takeWhile_imp member
  have front := apply_blanks_append f passed areBlank (s.dropWhile isBlank)
  rw [List.takeWhile_append_dropWhile] at front
  exact front.symm

end Apply

/-! ## At the front -/

theorem trimStart_isSuffix (s : Text) : trimStart s <:+ s := List.dropWhile_suffix _

theorem trimStart_cons_of_blank {c : Char} (blank : isBlank c = true) (s : Text) :
    trimStart (c :: s) = trimStart s := by
  simp [trimStart, blank]

theorem trimStart_cons {c : Char} (visible : isBlank c = false) (s : Text) :
    trimStart (c :: s) = c :: s := by
  simp [trimStart, visible]

/-- Trimming the front stops within a text that is not all blank. -/
theorem trimStart_append {s : Text} (nonempty : trimStart s ≠ []) (t : Text) :
    trimStart (s ++ t) = trimStart s ++ t := by
  induction s with
  | nil => exact absurd rfl nonempty
  | cons c s ih =>
      cases blank : isBlank c with
      | true =>
          rw [trimStart_cons_of_blank blank] at nonempty ⊢
          rw [List.cons_append, trimStart_cons_of_blank blank, ih nonempty]
      | false => rw [List.cons_append, trimStart_cons blank, trimStart_cons blank, List.cons_append]

/-- Trimming the front passes over a blank text. -/
theorem trimStart_append_of_eq_nil {s : Text} (empty : trimStart s = []) (t : Text) :
    trimStart (s ++ t) = trimStart t :=
  apply_blanks_append trimStart (fun _ u blank => trimStart_cons_of_blank blank u)
    (List.dropWhile_eq_nil_iff.mp empty) t

/-! ## At the back -/

theorem trimEnd_isPrefix (s : Text) : trimEnd s <+: s := by
  induction s with
  | nil => exact List.prefix_rfl
  | cons c s ih =>
      rw [trimEnd]
      split
      · split
        · exact List.nil_prefix
        · exact List.cons_prefix_cons.mpr ⟨rfl, List.nil_prefix⟩
      · next d ds kept => exact List.cons_prefix_cons.mpr ⟨rfl, kept ▸ ih⟩

theorem exists_blanks_trimEnd (s : Text) :
    ∃ blanks, s = trimEnd s ++ blanks ∧ ∀ c ∈ blanks, isBlank c = true := by
  induction s with
  | nil => exact ⟨[], rfl, by simp⟩
  | cons c cs ih =>
      obtain ⟨blanks, whole, areBlank⟩ := ih
      rw [trimEnd]
      split
      · next empty =>
          rw [empty, List.nil_append] at whole
          subst whole
          split
          · next blank => exact ⟨c :: cs, rfl, by simp_all⟩
          · exact ⟨cs, rfl, areBlank⟩
      · next d ds kept =>
          rw [kept] at whole
          exact ⟨blanks, congrArg (c :: ·) whole, areBlank⟩

theorem trimEnd_cons_of_ne_nil (c : Char) {s : Text} (nonempty : trimEnd s ≠ []) :
    trimEnd (c :: s) = c :: trimEnd s := by
  rw [trimEnd]
  split
  · next empty => exact absurd empty nonempty
  · next d ds kept => rw [kept]

theorem trimEnd_cons {c : Char} (visible : isBlank c = false) (s : Text) :
    trimEnd (c :: s) = c :: trimEnd s := by
  rw [trimEnd]
  split
  · next empty => simp [visible, empty]
  · next d ds kept => rw [kept]

/-- Trimming the back stops within a text that is not all blank. -/
theorem trimEnd_append_of_ne_nil (s : Text) {t : Text} (nonempty : trimEnd t ≠ []) :
    trimEnd (s ++ t) = s ++ trimEnd t := by
  induction s with
  | nil => rfl
  | cons c s ih =>
      rw [List.cons_append, trimEnd_cons_of_ne_nil c (by simp [ih, nonempty]), ih, List.cons_append]

/-- Trimming the back passes over a blank text. -/
theorem trimEnd_append_of_eq_nil (s : Text) {t : Text} (empty : trimEnd t = []) :
    trimEnd (s ++ t) = trimEnd s := by
  induction s with
  | nil => exact empty
  | cons c s ih =>
      rw [List.cons_append, trimEnd, ih]
      rfl

/-- A text that ends in a visible character has nothing to trim at the back. -/
theorem trimEnd_append_singleton (s : Text) {c : Char} (visible : isBlank c = false) :
    trimEnd (s ++ [c]) = s ++ [c] := by
  have last : trimEnd [c] = [c] := trimEnd_cons visible []
  rw [trimEnd_append_of_ne_nil s (by simp [last]), last]

theorem trimEnd_eq_nil_iff {s : Text} : trimEnd s = [] ↔ ∀ c ∈ s, isBlank c = true := by
  constructor
  · intro empty
    obtain ⟨blanks, whole, areBlank⟩ := exists_blanks_trimEnd s
    rw [empty, List.nil_append] at whole
    exact whole ▸ areBlank
  · intro areBlank
    induction s with
    | nil => rfl
    | cons c s ih =>
        rw [List.forall_mem_cons] at areBlank
        rw [trimEnd, ih areBlank.2]
        simp [areBlank.1]

/-! ## At both ends -/

theorem trim_isInfix (s : Text) : trim s <:+: s :=
  (trimEnd_isPrefix _).isInfix.trans (trimStart_isSuffix s).isInfix

theorem mem_of_mem_trim {c : Char} {s : Text} (member : c ∈ trim s) : c ∈ s :=
  (trim_isInfix s).subset member

/-- What begins with a visible character is not cut at the front. -/
theorem isSuffix_trimStart {c : Char} (visible : isBlank c = false) {s t : Text}
    (ends : c :: t <:+ s) : c :: t <:+ trimStart s := by
  obtain ⟨front, rfl⟩ := ends
  by_cases blank : trimStart front = []
  · have same := (trimStart_append_of_eq_nil blank (c :: t)).trans (trimStart_cons visible t)
    exact same.symm ▸ List.suffix_rfl
  · rw [trimStart_append blank]
    exact List.suffix_append _ _

/-- What ends in a visible character is not cut at the back. -/
theorem isPrefix_trimEnd {c : Char} (visible : isBlank c = false) {s t : Text}
    (begins : t ++ [c] <+: s) : t ++ [c] <+: trimEnd s := by
  obtain ⟨back, rfl⟩ := begins
  by_cases blank : trimEnd back = []
  · have same :=
      (trimEnd_append_of_eq_nil (t ++ [c]) blank).trans (trimEnd_append_singleton t visible)
    exact same.symm ▸ List.prefix_rfl
  · rw [trimEnd_append_of_ne_nil _ blank]
    exact List.prefix_append _ _

/-- A visible part is not trimmed. -/
theorem isInfix_trim {part s : Text} (visible : ∀ c ∈ part, isBlank c = false)
    (occurs : part <:+: s) : part <:+: trim s := by
  have started : part <:+: trimStart s := by
    cases part with
    | nil => exact List.nil_infix
    | cons c part =>
        obtain ⟨_, ⟨behind, rfl⟩, ends⟩ := List.infix_iff_prefix_suffix.mp occurs
        have kept := isSuffix_trimStart (visible c List.mem_cons_self) ends
        exact (List.prefix_append (c :: part) behind).isInfix.trans kept.isInfix
  rcases List.eq_nil_or_concat part with rfl | ⟨part, c, rfl⟩
  · exact List.nil_infix
  · rw [List.concat_eq_append] at visible started ⊢
    obtain ⟨_, ⟨front, rfl⟩, begins⟩ := List.infix_iff_suffix_prefix.mp started
    rw [← List.append_assoc] at begins
    have kept := (isPrefix_trimEnd (visible c (by simp)) begins).isInfix
    rw [List.append_assoc] at kept
    exact (List.suffix_append front _).isInfix.trans kept

/-- Visible characters are not trimmed. -/
theorem mem_trim {c : Char} {s : Text} (visible : isBlank c = false) (member : c ∈ s) :
    c ∈ trim s := by
  obtain ⟨front, back, rfl⟩ := List.append_of_mem member
  have occurs : [c] <:+: front ++ c :: back := ⟨front, back, by simp⟩
  exact (isInfix_trim (List.forall_mem_singleton.mpr visible) occurs).subset
    (List.mem_singleton_self c)

/-- A text without blanks has nothing to trim. -/
theorem trim_of_visible {s : Text} (visible : ∀ c ∈ s, isBlank c = false) : trim s = s := by
  cases s with
  | nil => rfl
  | cons c s =>
      rw [trim, trimStart_cons (visible c List.mem_cons_self)]
      rcases List.eq_nil_or_concat (c :: s) with empty | ⟨front, last, whole⟩
      · cases empty
      · rw [List.concat_eq_append] at whole
        rw [whole]
        exact trimEnd_append_singleton front (visible last (by simp [whole]))

/-- A text between visible characters has nothing to trim. -/
theorem trim_between {first last : Char} (visible : isBlank first = false)
    (visibleLast : isBlank last = false) (inner : Text) :
    trim (first :: (inner ++ [last])) = first :: (inner ++ [last]) := by
  rw [trim, trimStart_cons visible, ← List.cons_append, trimEnd_append_singleton _ visibleLast]

/-- Blanks around a text make no difference. -/
theorem trim_cons_of_blank {c : Char} (blank : isBlank c = true) (s : Text) :
    trim (c :: s) = trim s := by
  rw [trim, trimStart_cons_of_blank blank, trim]

theorem trim_blanks_append {blanks : Text} (areBlank : ∀ c ∈ blanks, isBlank c = true) (s : Text) :
    trim (blanks ++ s) = trim s :=
  apply_blanks_append trim (fun _ t blank => trim_cons_of_blank blank t) areBlank s

theorem trim_append_of_blank (s : Text) {c : Char} (blank : isBlank c = true) :
    trim (s ++ [c]) = trim s := by
  have last : trimEnd [c] = [] := trimEnd_eq_nil_iff.mpr (by simp [blank])
  by_cases empty : trimStart s = []
  · have whole : trimStart (s ++ [c]) = [] := by
      rw [trimStart_append_of_eq_nil empty, trimStart_cons_of_blank blank]
      rfl
    rw [trim, trim, whole, empty]
  · rw [trim, trim, trimStart_append empty, trimEnd_append_of_eq_nil _ last]

theorem trim_append_of_blanks (s : Text) {blanks : Text}
    (areBlank : ∀ c ∈ blanks, isBlank c = true) :
    trim (s ++ blanks) = trim s :=
  apply_append_blanks trim (fun t _ blank => trim_append_of_blank t blank) s areBlank

/-- A text is what trimming leaves, between blanks. -/
theorem exists_blanks_trim (s : Text) : ∃ front back, s = front ++ (trim s ++ back) ∧
    (∀ c ∈ front, isBlank c = true) ∧ ∀ c ∈ back, isBlank c = true := by
  obtain ⟨back, whole, areBlank⟩ := exists_blanks_trimEnd (trimStart s)
  refine ⟨s.takeWhile isBlank, back, ?_, fun c member => List.mem_takeWhile_imp member, areBlank⟩
  rw [trim, ← whole]
  exact List.takeWhile_append_dropWhile.symm

theorem trim_between_blanks {front back : Text} (first : ∀ c ∈ front, isBlank c = true)
    (last : ∀ c ∈ back, isBlank c = true) (s : Text) : trim (front ++ (s ++ back)) = trim s := by
  rw [trim_blanks_append first, trim_append_of_blanks s last]

/-- Trimming the back first makes no difference. -/
theorem trim_trimEnd (s : Text) : trim (trimEnd s) = trim s := by
  obtain ⟨blanks, whole, areBlank⟩ := exists_blanks_trimEnd s
  rw [← trim_append_of_blanks (trimEnd s) areBlank, ← whole]

/-! ## Trimmed texts -/

theorem trim_trimStart (s : Text) : trim (trimStart s) = trim s := by
  have again : trimStart (trimStart s) = trimStart s := List.dropWhile_idempotent isBlank _
  rw [trim, again, trim]

theorem trim_trim (s : Text) : trim (trim s) = trim s := by
  rw [trim.eq_def s, trim_trimEnd]
  exact trim_trimStart s

/-- A trimmed text begins with a visible character. -/
theorem isBlank_of_trim_eq_self {c : Char} {s : Text} (trimmed : trim (c :: s) = c :: s) :
    isBlank c = false := by
  cases blank : isBlank c with
  | false => rfl
  | true =>
      have short := (trim_isInfix s).length_le
      rw [← trim_cons_of_blank blank, trimmed, List.length_cons] at short
      omega

/-- Nothing is left of a blank text, and of blank texts only. -/
theorem trim_eq_nil_iff {s : Text} : trim s = [] ↔ isBlankText s = true := by
  rw [isBlankText, List.all_eq_true]
  constructor
  · intro empty c member
    by_contra visible
    have kept := mem_trim (by simpa using visible) member
    rw [empty] at kept
    cases kept
  · intro areBlank
    exact trim_append_of_blanks [] areBlank

/-- A trimmed text does not end in a blank one. -/
theorem eq_nil_of_trim_append {s t : Text} (trimmed : trim (s ++ t) = s ++ t)
    (empty : trim t = []) :
    t = [] := by
  have areBlank : ∀ c ∈ t, isBlank c = true := List.all_eq_true.mp (trim_eq_nil_iff.mp empty)
  have short := (trim_isInfix s).length_le
  rw [← trim_append_of_blanks s areBlank, trimmed, List.length_append] at short
  exact List.length_eq_zero_iff.mp (by omega)

/-! ## At the end of a line -/

/-- At most a carriage return is dropped. -/
theorem eq_dropReturn_or (s : Text) : dropReturn s = s ∨ dropReturn s ++ ['\r'] = s := by
  fun_induction dropReturn s with
  | case1 => exact .inl rfl
  | case2 => exact .inr rfl
  | case3 c cs _ ih => exact ih.imp (congrArg (c :: ·)) (congrArg (c :: ·))

theorem dropReturn_append_singleton (s : Text) {c : Char} (other : c ≠ '\r') :
    dropReturn (s ++ [c]) = s ++ [c] := by
  rcases eq_dropReturn_or (s ++ [c]) with same | same
  · exact same
  · have last := (List.append_inj' same rfl).2
    exact absurd (List.cons.inj last).1.symm other

/-- Only the end of a text is looked at. -/
theorem dropReturn_append (s : Text) {t : Text} (nonempty : t ≠ []) :
    dropReturn (s ++ t) = s ++ dropReturn t := by
  induction s with
  | nil => rfl
  | cons c s ih =>
      obtain ⟨d, rest, same⟩ :=
        List.exists_cons_of_ne_nil (List.append_ne_nil_of_right_ne_nil s nonempty)
      rw [List.cons_append, same, dropReturn, ← same, ih, List.cons_append]
      simp

/-- Without a carriage return at the back nothing is dropped. -/
theorem dropReturn_eq_self {s : Text} (other : s.getLast? ≠ some '\r') : dropReturn s = s := by
  rcases eq_dropReturn_or s with same | same
  · exact same
  · rw [← same, List.getLast?_concat] at other
    exact absurd rfl other

theorem dropReturn_isPrefix (s : Text) : dropReturn s <+: s := by
  rcases eq_dropReturn_or s with same | same
  · exact same.symm ▸ List.prefix_rfl
  · exact ⟨['\r'], same⟩

end SlideDeck.Text
