import SlideDeck.Proofs.Latex.Depth
import SlideDeck.Proofs.Text.Lines
import SlideDeck.Proofs.Text.Search
import SlideDeck.Latex.Environment

/-!
# Guarded text

The text that the library writes is *guarded* (`Guarded`): a percent sign or an underscore
stands in it only behind a backslash, and each backslash has its own character behind it.
Nothing but the end of a table row has two backslashes side by side. Which characters may
stand behind a backslash is a parameter; a smaller choice says more about the text.

A guarded text is code throughout (`Guarded.codeOf`), its braces are those of its parts
(`Guarded.bracesOf_append`), and cutting it behind a character that is no backslash leaves
guarded text (`Guarded.behind`), as trimming and cutting it into lines do.

Where neither `b` nor `e` may stand behind a backslash, no environment begins or ends: the
text is *calm* (`Calm`). Such a text *leads* from one depth of braces to another (`Leads`);
one that leads from the outermost level back to it is *tidy* (`Tidy`).
-/

set_option autoImplicit false

namespace SlideDeck.Latex

open SlideDeck SlideDeck.Text

/-! ## Guarded text -/

/-- The characters that need no backslash in front. -/
def isLoose (c : Char) : Bool := c != '\\' && c != '%' && c != '_'

/-- Text of loose characters and of backslashes, each with a character behind it that may
stand there. `row` tells whether the text ends with the end of a table row. -/
inductive Guarded (second : Char → Bool) : Bool → Text → Prop where
  | nil : Guarded second false []
  | rowEnd : Guarded second true ['\\', '\\']
  | char {row : Bool} {c : Char} {s : Text} (loose : isLoose c = true)
      (rest : Guarded second row s) : Guarded second row (c :: s)
  | pair {row : Bool} {c : Char} {s : Text} (other : c ≠ '\\') (follows : second c = true)
      (rest : Guarded second row s) : Guarded second row ('\\' :: c :: s)

/-- What may stand behind a backslash at all: no blank. -/
def escapable (c : Char) : Bool := !isBlank c

/-- What stands behind a backslash where nothing begins or ends. -/
def still (c : Char) : Bool := escapable c && c != 'b' && c != 'e' && c != '*'

/-- Recognizes guarded text. -/
def isGuarded (second : Char → Bool) (row : Bool) : Text → Bool
  | [] => !row
  | [c] => !row && isLoose c
  | c :: d :: s =>
    if c = '\\' then
      if d = '\\' then row && s.isEmpty else second d && isGuarded second row s
    else isLoose c && isGuarded second row (d :: s)

theorem isLoose_iff {c : Char} : isLoose c = true ↔ c ≠ '\\' ∧ c ≠ '%' ∧ c ≠ '_' := by
  simp [isLoose, and_assoc]

theorem guarded_of_isGuarded {second : Char → Bool} {row : Bool} {s : Text}
    (recognized : isGuarded second row s = true) : Guarded second row s := by
  fun_induction isGuarded second row s with
  | case1 =>
      cases row with
      | false => exact .nil
      | true => cases recognized
  | case2 c =>
      cases row with
      | false => exact .char (by simpa using recognized) .nil
      | true => cases recognized
  | case3 s =>
      obtain ⟨rfl, empty⟩ := Bool.and_eq_true_iff.mp recognized
      rw [List.isEmpty_iff.mp empty]
      exact .rowEnd
  | case4 d s other ih =>
      obtain ⟨follows, later⟩ := Bool.and_eq_true_iff.mp recognized
      exact .pair other follows (ih later)
  | case5 c d s _ ih =>
      obtain ⟨loose, later⟩ := Bool.and_eq_true_iff.mp recognized
      exact .char loose (ih later)

namespace Guarded

variable {second : Char → Bool} {row : Bool} {s t : Text}

theorem isGuarded (guarded : Guarded second row s) : isGuarded second row s = true := by
  induction guarded with
  | nil => rfl
  | rowEnd => rfl
  | @char row c s loose rest ih =>
      cases s with
      | nil =>
          cases rest
          simp [Latex.isGuarded, loose]
      | cons d s => simp [Latex.isGuarded, (isLoose_iff.mp loose).1, loose, ih]
  | pair other follows _ ih => simp [Latex.isGuarded, other, follows, ih]

instance (second : Char → Bool) (row : Bool) (s : Text) : Decidable (Guarded second row s) :=
  decidable_of_iff (Latex.isGuarded second row s = true) ⟨guarded_of_isGuarded, isGuarded⟩

theorem mono {other : Char → Bool} (implies : ∀ c, second c = true → other c = true)
    (guarded : Guarded second row s) : Guarded other row s := by
  induction guarded with
  | nil => exact .nil
  | rowEnd => exact .rowEnd
  | char loose _ ih => exact .char loose ih
  | pair notSlash follows _ ih => exact .pair notSlash (implies _ follows) ih

theorem append (first : Guarded second false s) (later : Guarded second row t) :
    Guarded second row (s ++ t) := by
  generalize closed : false = ending at first
  induction first with
  | nil => exact later
  | rowEnd => cases closed
  | char loose _ ih => exact .char loose (ih closed)
  | pair other follows _ ih => exact .pair other follows (ih closed)

/-- Text of loose characters is guarded. -/
theorem of_loose (loose : ∀ c ∈ s, isLoose c = true) : Guarded second false s := by
  induction s with
  | nil => exact .nil
  | cons c s ih =>
      rw [List.forall_mem_cons] at loose
      exact .char loose.1 (ih loose.2)

/-! ## Reading guarded text -/

theorem codeOf_append (guarded : Guarded second row s) (t : Text) :
    codeOf (s ++ t) = s ++ codeOf t := by
  induction guarded with
  | nil => rfl
  | rowEnd => rfl
  | @char _ c s loose _ ih =>
      obtain ⟨notSlash, notPercent, -⟩ := isLoose_iff.mp loose
      simp only [Latex.codeOf] at ih ⊢
      simp [codeFrom, escapesNext, beq_eq_false_iff_ne.mpr notSlash, notPercent, ih]
  | @pair _ c s other _ _ ih =>
      simp only [Latex.codeOf] at ih ⊢
      simp [codeFrom, escapesNext, ih]

/-- Guarded text is code throughout. -/
theorem codeOf (guarded : Guarded second row s) : codeOf s = s := by
  simpa [Latex.codeOf, codeFrom] using guarded.codeOf_append []

/-- The braces behind a guarded text are counted as if they stood alone. -/
theorem bracesOf_append (guarded : Guarded second row s) (t : Text) :
    bracesOf (s ++ t) = bracesOf s ++ bracesOf t := by
  induction guarded with
  | nil => rfl
  | rowEnd => rfl
  | @char _ c s loose _ ih =>
      obtain ⟨notSlash, -, -⟩ := isLoose_iff.mp loose
      simp only [bracesOf] at ih ⊢
      simp only [List.cons_append, bracesFrom, escapesNext, beq_eq_false_iff_ne.mpr notSlash,
        Bool.false_and, Bool.false_eq_true, if_false, ih]
      split
      · rfl
      · split <;> rfl
  | @pair _ c s other _ _ ih =>
      simp only [bracesOf] at ih ⊢
      simpa [bracesFrom, escapesNext, other] using ih

end Guarded

theorem bracesOf_eq_nil {s : Text} (loose : ∀ c ∈ s, isLoose c = true) (noOpening : '\x7b' ∉ s)
    (noClosing : '\x7d' ∉ s) : bracesOf s = [] := by
  induction s with
  | nil => rfl
  | cons c s ih =>
      rw [List.forall_mem_cons] at loose
      rw [List.mem_cons, not_or] at noOpening noClosing
      have alone : Guarded still false [c] := .char loose.1 .nil
      rw [← List.singleton_append, alone.bracesOf_append, ih loose.2 noOpening.2 noClosing.2]
      simp [bracesOf, bracesFrom, Ne.symm noOpening.1, Ne.symm noClosing.1]

namespace Guarded

variable {second : Char → Bool} {row : Bool} {s t : Text}

/-! ## Cutting guarded text -/

/-- Behind a character that is no backslash a guarded text is guarded. -/
theorem behind {front : Text} {c : Char} (guarded : Guarded second row (front ++ c :: t))
    (other : c ≠ '\\') : Guarded second row t := by
  generalize whole : front ++ c :: t = s at guarded
  induction guarded generalizing front with
  | nil => simp at whole
  | rowEnd =>
      -- Every character of the end of a row is a backslash.
      have member : c ∈ ['\\', '\\'] := by simp [← whole]
      exact absurd (by simpa using member) other
  | @char _ d s _ rest ih =>
      cases front with
      | nil =>
          obtain ⟨-, rfl⟩ := List.cons.inj whole
          exact rest
      | cons e front => exact ih (List.cons.inj whole).2
  | @pair _ d s _ _ rest ih =>
      match front with
      | [] => exact absurd (List.cons.inj whole).1 other
      | [e] =>
          obtain ⟨-, rfl⟩ := List.cons.inj (List.cons.inj whole).2
          exact rest
      | e :: g :: front => exact ih (List.cons.inj (List.cons.inj whole).2).2

/-- In front of a character that is no second of a pair a guarded text is guarded. -/
theorem front {front : Text} {c : Char} (guarded : Guarded second row (front ++ c :: t))
    (other : c ≠ '\\') (alone : second c = false) : Guarded second false front := by
  generalize whole : front ++ c :: t = s at guarded
  induction guarded generalizing front with
  | nil => simp at whole
  | rowEnd =>
      have member : c ∈ ['\\', '\\'] := by simp [← whole]
      exact absurd (by simpa using member) other
  | @char _ d s loose rest ih =>
      cases front with
      | nil => exact .nil
      | cons e front =>
          obtain ⟨rfl, later⟩ := List.cons.inj whole
          exact .char loose (ih later)
  | @pair _ d s notSlash follows rest ih =>
      match front with
      | [] => exact .nil
      | [e] =>
          obtain ⟨rfl, -⟩ := List.cons.inj (List.cons.inj whole).2
          simp [follows] at alone
      | e :: g :: front =>
          obtain ⟨rfl, tail⟩ := List.cons.inj whole
          obtain ⟨rfl, later⟩ := List.cons.inj tail
          exact .pair notSlash follows (ih later)

/-! ## Trimming guarded text -/

theorem trimStart (guarded : Guarded second row s) : Guarded second row (trimStart s) := by
  induction guarded with
  | nil => exact .nil
  | rowEnd => exact .rowEnd
  | @char _ c s loose rest ih =>
      cases blank : isBlank c with
      | true =>
          rw [trimStart_cons_of_blank blank]
          exact ih
      | false =>
          rw [trimStart_cons blank]
          exact .char loose rest
  | pair other follows rest _ =>
      rw [trimStart_cons (by decide)]
      exact .pair other follows rest

/-- Trimming the back takes no character away from its backslash, since no blank stands
behind one. -/
theorem trimEnd (visible : ∀ c, second c = true → isBlank c = false)
    (guarded : Guarded second row s) : Guarded second row (trimEnd s) := by
  induction guarded with
  | nil => exact .nil
  | rowEnd => exact .rowEnd
  | @char row c s loose rest ih =>
      cases blank : isBlank c with
      | true =>
          rw [Text.trimEnd]
          split
          · next empty =>
              rw [empty] at ih
              cases ih
              simp only [blank, if_true]
              exact .nil
          · next d ds kept => exact .char loose (kept ▸ ih)
      | false =>
          rw [trimEnd_cons blank]
          exact .char loose ih
  | @pair _ c s other follows _ ih =>
      rw [trimEnd_cons (by decide), trimEnd_cons (visible c follows)]
      exact .pair other follows ih

theorem dropReturn (visible : ∀ c, second c = true → isBlank c = false)
    (guarded : Guarded second row s) : Guarded second row (dropReturn s) := by
  rcases eq_dropReturn_or s with same | same
  · rw [same]
    exact guarded
  · rw [← same] at guarded
    have alone : second '\r' = false := by
      cases follows : second '\r' with
      | false => rfl
      | true => exact absurd (visible _ follows) (by decide)
    -- Nothing is left behind the carriage return, so the line is no row.
    cases guarded.behind (by decide)
    exact guarded.front (by decide) alone

/-- The carriage return at the end of a line groups nothing. -/
theorem bracesOf_dropReturn (visible : ∀ c, second c = true → isBlank c = false)
    (guarded : Guarded second row s) : bracesOf (Text.dropReturn s) = bracesOf s := by
  rcases eq_dropReturn_or s with same | same
  · rw [same]
  · rw [← same, (guarded.dropReturn visible).bracesOf_append, same]
    exact (List.append_nil _).symm

/-! ## Lines of guarded text -/

/-- A whole guarded text in front of another belongs to the first piece of both, and so do
its braces. -/
theorem splitAt_append {front : Text} (complete : Guarded second false front)
    (absent : '\n' ∉ front)
    (later : (∀ piece ∈ splitAt '\n' s, Guarded second false piece) ∧
      (splitAt '\n' s).flatMap bracesOf = bracesOf s) :
    (∀ piece ∈ splitAt '\n' (front ++ s), Guarded second false piece) ∧
      (splitAt '\n' (front ++ s)).flatMap bracesOf = bracesOf (front ++ s) := by
  obtain ⟨piece, pieces, cut⟩ := List.exists_cons_of_ne_nil (splitAt_ne_nil '\n' s)
  obtain ⟨each, sum⟩ := later
  rw [cut, List.forall_mem_cons] at each
  rw [cut, List.flatMap_cons] at sum
  rw [Text.splitAt_append absent cut]
  refine ⟨List.forall_mem_cons.mpr ⟨complete.append each.1, each.2⟩, ?_⟩
  rw [List.flatMap_cons, complete.bracesOf_append, complete.bracesOf_append, List.append_assoc, sum]

/-- The pieces between newlines are guarded, and their braces are those of the text. -/
theorem splitAt (visible : ∀ c, second c = true → isBlank c = false)
    (guarded : Guarded second false s) :
    (∀ piece ∈ splitAt '\n' s, Guarded second false piece) ∧
      (Text.splitAt '\n' s).flatMap bracesOf = bracesOf s := by
  generalize closed : false = ending at guarded
  induction guarded with
  | nil => exact ⟨by simp [Text.splitAt, Guarded.nil], rfl⟩
  | rowEnd => cases closed
  | @char _ c s loose _ ih =>
      subst closed
      by_cases newline : c = '\n'
      · subst newline
        obtain ⟨each, sum⟩ := ih rfl
        exact ⟨List.forall_mem_cons.mpr ⟨.nil, each⟩, sum⟩
      · have alone : Guarded second false [c] := .char loose .nil
        exact alone.splitAt_append (by simp [Ne.symm newline]) (ih rfl)
  | @pair _ c s other follows _ ih =>
      subst closed
      have noNewline : c ≠ '\n' := by
        rintro rfl
        exact absurd (visible _ follows) (by decide)
      have alone : Guarded second false ['\\', c] := .pair other follows .nil
      exact alone.splitAt_append (by simp [Ne.symm noNewline]) (ih rfl)

end Guarded

/-! ## Calm text -/

/-- No environment begins or ends in the text, whatever its name. -/
def Calm (s : Text) : Prop := ¬ "\\begin".toList <:+: s ∧ ¬ "\\end".toList <:+: s

instance (s : Text) : Decidable (Calm s) :=
  decidable_of_iff (includes "\\begin".toList s = false ∧ includes "\\end".toList s = false) (by
    simp [Calm, ← includes_iff])

/-- No character stands behind a backslash that may not stand there. -/
theorem Guarded.not_isInfix {second : Char → Bool} {row : Bool} {s : Text} {c : Char}
    (guarded : Guarded second row s) (other : c ≠ '\\') (alone : second c = false) :
    ¬ ['\\', c] <:+: s := by
  rintro ⟨before, after, whole⟩
  rw [List.append_assoc, List.cons_append, List.singleton_append] at whole
  induction guarded generalizing before with
  | nil => simp at whole
  | rowEnd =>
      have member : c ∈ ['\\', '\\'] := by simp [← whole]
      exact absurd (by simpa using member) other
  | char loose _ ih =>
      cases before with
      | nil =>
          obtain ⟨rfl, -⟩ := List.cons.inj whole
          exact absurd loose (by decide)
      | cons e before => exact ih before (List.cons.inj whole).2
  | pair notSlash follows _ ih =>
      match before with
      | [] =>
          obtain ⟨rfl, -⟩ := List.cons.inj (List.cons.inj whole).2
          simp [follows] at alone
      | [e] => exact notSlash (List.cons.inj (List.cons.inj whole).2).1.symm
      | e :: g :: before => exact ih before (List.cons.inj (List.cons.inj whole).2).2

/-- Where neither `b` nor `e` stands behind a backslash, the text is calm. -/
theorem Guarded.calm {row : Bool} {s : Text} (guarded : Guarded still row s) : Calm s :=
  ⟨fun occurs => guarded.not_isInfix (c := 'b') (by decide) (by decide)
      ((by decide : ['\\', 'b'] <:+: "\\begin".toList).trans occurs),
    fun occurs => guarded.not_isInfix (c := 'e') (by decide) (by decide)
      ((by decide : ['\\', 'e'] <:+: "\\end".toList).trans occurs)⟩

/-- A part of a calm text is calm. -/
theorem Calm.of_isInfix {s t : Text} (calm : Calm t) (part : s <:+: t) : Calm s :=
  ⟨fun occurs => calm.1 (occurs.trans part), fun occurs => calm.2 (occurs.trans part)⟩

/-! ## Depth -/

/-- Guarded text in which nothing begins or ends and whose braces lead from one depth to
another. -/
structure Leads (depth : Nat) (s : Text) (last : Nat) : Prop where
  guarded : Guarded still false s
  depth : depthAfter depth (bracesOf s) = some last

/-- Guarded text in which nothing begins or ends and each brace has its partner. -/
abbrev Tidy (s : Text) : Prop := Leads 0 s 0

instance (depth : Nat) (s : Text) (last : Nat) : Decidable (Leads depth s last) :=
  decidable_of_iff (Guarded still false s ∧ depthAfter depth (bracesOf s) = some last)
    ⟨fun both => ⟨both.1, both.2⟩, fun leads => ⟨leads.1, leads.2⟩⟩

namespace Leads

variable {depth middle last : Nat} {s t : Text}

theorem append (first : Leads depth s middle) (second : Leads middle t last) :
    Leads depth (s ++ t) last where
  guarded := first.guarded.append second.guarded
  depth := by
    rw [first.guarded.bracesOf_append, depthAfter_append, first.depth]
    exact second.depth

/-- Further open braces around a text stay open. -/
theorem deeper (leads : Leads depth s last) (outer : Nat) :
    Leads (depth + outer) s (last + outer) :=
  ⟨leads.guarded, depthAfter_add leads.depth outer⟩

/-- Characters that neither group nor need a backslash do not change the depth. -/
theorem of_loose (loose : ∀ c ∈ s, isLoose c = true) (noOpening : '\x7b' ∉ s)
    (noClosing : '\x7d' ∉ s) (depth : Nat) : Leads depth s depth where
  guarded := .of_loose loose
  depth := by
    rw [bracesOf_eq_nil loose noOpening noClosing]
    rfl

end Leads

namespace Tidy

variable {s t : Text}

theorem append (first : Tidy s) (second : Tidy t) : Tidy (s ++ t) := Leads.append first second

theorem group (inner : Tidy s) : Tidy (group s) := by
  have opening : Leads 0 ['\x7b'] 1 := by decide
  have closing : Leads 1 ['\x7d'] 0 := by decide
  exact (opening.append (inner.deeper 1)).append closing

/-- A command with a tidy argument is tidy, if its name is. -/
theorem command {name : Text} (named : Tidy ('\\' :: name)) (inner : Tidy s) :
    Tidy (command name s) :=
  named.append inner.group

end Tidy

/-- Tidy text of one line. -/
structure Neat (s : Text) : Prop where
  tidy : Tidy s
  oneLine : '\n' ∉ s

instance (s : Text) : Decidable (Neat s) :=
  decidable_of_iff (Tidy s ∧ '\n' ∉ s) ⟨fun both => ⟨both.1, both.2⟩, fun neat => ⟨neat.1, neat.2⟩⟩

namespace Neat

variable {s t : Text}

theorem append (first : Neat s) (second : Neat t) : Neat (s ++ t) where
  tidy := first.tidy.append second.tidy
  oneLine := by simp [first.oneLine, second.oneLine]

theorem group (inner : Neat s) : Neat (group s) where
  tidy := inner.tidy.group
  oneLine := by simp [Latex.group, inner.oneLine]

theorem command {name : Text} (named : Neat ('\\' :: name)) (inner : Neat s) :
    Neat (command name s) :=
  named.append inner.group

theorem join {sep : Text} (between : Neat sep) {pieces : List Text}
    (each : ∀ piece ∈ pieces, Neat piece) : Neat (join sep pieces) :=
  join_induction Neat ⟨⟨.nil, rfl⟩, List.not_mem_nil⟩ append between each

end Neat

end SlideDeck.Latex
