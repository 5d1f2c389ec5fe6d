import Mathlib.Algebra.Group.Nat.Even
import SlideDeck.Latex.Basic

/-!
# Escapes and comments by position

Whether a character is escaped can be told from what stands in front of it: it is if the number of
backslashes directly before it is odd (`slashesAtEnd`). A line is code up to its first percent sign
that is not escaped, and the braces of the code that are not escaped are the ones that group. Said
by positions, these are the *significant* braces of a line (`Significant`, `significantBraces`).

Reading a line from left to right needs to know about a character only whether it is escaped
(`escaping_concat`). So the reader of code and that of braces, which both go that way, find the
significant braces (`bracesOf_codeOf`), and what stands behind the percent sign makes no difference
to the code (`codeOf_append_comment`).
-/

set_option autoImplicit false

namespace SlideDeck.Latex

open SlideDeck

/-! ## Escapes -/

/-- How many backslashes end a text. -/
def slashesAtEnd (s : Text) : Nat := (s.reverse.takeWhile (· == '\\')).length

/-- Whether a character behind the text is escaped. -/
def escaping (s : Text) : Bool := decide (¬ Even (slashesAtEnd s))

theorem slashesAtEnd_concat (s : Text) (c : Char) :
    slashesAtEnd (s ++ [c]) = if c = '\\' then slashesAtEnd s + 1 else 0 := by
  by_cases slash : c = '\\' <;> simp [slashesAtEnd, slash]

theorem escaping_concat (s : Text) (c : Char) :
    escaping (s ++ [c]) = escapesNext (escaping s) c := by
  by_cases slash : c = '\\'
  · simp only [escaping, escapesNext, slashesAtEnd_concat, slash, if_true, Nat.even_add_one,
      decide_not, beq_self_eq_true, Bool.true_and, Bool.not_not]
  · simp [escaping, escapesNext, slashesAtEnd_concat, slash]

/-- Reading a text from left to right tells whether the character behind it is escaped. -/
theorem foldl_escapesNext (s t : Text) : t.foldl escapesNext (escaping s) = escaping (s ++ t) := by
  induction t generalizing s with
  | nil => rw [List.append_nil, List.foldl_nil]
  | cons c t ih =>
      rw [List.foldl_cons, ← escaping_concat, ih, List.append_assoc, List.singleton_append]

/-! ## Code -/

/-- No percent sign before the position begins a comment. -/
def Uncommented (s : Text) (position : Nat) : Prop :=
  ∀ earlier < position, s[earlier]? = some '%' → ¬ Even (slashesAtEnd (s.take earlier))

instance (s : Text) (position : Nat) : Decidable (Uncommented s position) :=
  inferInstanceAs (Decidable (∀ earlier < position, s[earlier]? = some '%' →
    ¬ Even (slashesAtEnd (s.take earlier))))

theorem codeFrom_append_comment (escaped : Bool) {code : Text}
    (starts : code.foldl escapesNext escaped = false) (first second : Text) :
    codeFrom escaped (code ++ '%' :: first) = codeFrom escaped (code ++ '%' :: second) := by
  induction code generalizing escaped with
  | nil =>
      obtain rfl : escaped = false := starts
      rfl
  | cons c code ih =>
      rw [List.cons_append, List.cons_append, codeFrom, codeFrom, ih _ starts]

/-- What a comment says makes no difference to the code. -/
theorem codeOf_append_comment {code : Text} (starts : Even (slashesAtEnd code))
    (first second : Text) :
    codeOf (code ++ '%' :: first) = codeOf (code ++ '%' :: second) := by
  refine codeFrom_append_comment false ?_ first second
  have begins : escaping [] = false := by decide
  rw [← begins, foldl_escapesNext, List.nil_append, begins]
  simpa [escaping] using starts

/-! ## Significant braces -/

/-- The brace that a character is, if it is one. -/
def Brace.of? (c : Char) : Option Brace :=
  if c = '\x7b' then some .opening else if c = '\x7d' then some .closing else none

/-- What stands at the position is neither escaped nor in a comment. -/
structure Significant (line : Text) (position : Nat) : Prop where
  uncommented : Uncommented line position
  unescaped : Even (slashesAtEnd (line.take position))

instance (line : Text) (position : Nat) : Decidable (Significant line position) :=
  decidable_of_iff (Uncommented line position ∧ Even (slashesAtEnd (line.take position)))
    ⟨fun all => ⟨all.1, all.2⟩, fun significant => ⟨significant.1, significant.2⟩⟩

/-- The brace at a position, if it is significant. -/
def significantBrace? (line : Text) : Char × Nat → Option Brace
  | (c, position) => if Significant line position then Brace.of? c else none

/-- The significant braces of a line, in order. -/
def significantBraces (line : Text) : List Brace :=
  line.zipIdx.filterMap (significantBrace? line)

theorem Uncommented.anti {line : Text} {first second : Nat} (uncommented : Uncommented line second)
    (le : first ≤ second) : Uncommented line first :=
  fun earlier before => uncommented earlier (Nat.lt_of_lt_of_le before le)

section Positions

variable {s front rest : Text} {c : Char}

theorem uncommented_succ_iff (whole : s = front ++ c :: rest) :
    Uncommented s (front.length + 1) ↔
      Uncommented s front.length ∧ (c = '%' → escaping front = true) := by
  have here : s[front.length]? = some c := by simp [whole]
  have before : s.take front.length = front := by rw [whole, List.take_left]
  simp only [Uncommented, Nat.forall_lt_succ_right, here, before, Option.some.injEq, escaping,
    decide_eq_true_eq]

/-- Where a comment begins, no more braces are significant. -/
theorem filterMap_commented {position : Nat} (commented : ¬ Uncommented s position) (rest : Text) :
    (rest.zipIdx position).filterMap (significantBrace? s) = [] := by
  rw [List.filterMap_eq_nil_iff]
  rintro ⟨c, later⟩ member
  have behind : position ≤ later := List.le_snd_of_mem_zipIdx member
  exact if_neg fun significant => commented (significant.uncommented.anti behind)

/-- The braces of the code of a part are the significant ones. The part stands behind `front`, in
which no comment begins. -/
theorem bracesFrom_codeFrom (whole : s = front ++ rest) (uncommented : Uncommented s front.length) :
    bracesFrom (escaping front) (codeFrom (escaping front) rest) =
      (rest.zipIdx front.length).filterMap (significantBrace? s) := by
  induction rest generalizing front with
  | nil => rfl
  | cons c rest ih =>
      have before : s.take front.length = front := by rw [whole, List.take_left]
      have significant : Significant s front.length ↔ escaping front = false := by
        rw [escaping, decide_eq_false_iff_not, not_not]
        exact ⟨fun here => before ▸ here.unescaped, fun even => ⟨uncommented, before.symm ▸ even⟩⟩
      have here : significantBrace? s (c, front.length) =
          if escaping front then none else Brace.of? c := by
        simp only [significantBrace?, significant]
        cases escaping front <;> rfl
      rw [List.zipIdx_cons, List.filterMap_cons, here, codeFrom]
      by_cases comment : c = '%' ∧ escaping front = false
      · obtain ⟨rfl, unescaped⟩ := comment
        have commented : ¬ Uncommented s (front.length + 1) := by
          rw [uncommented_succ_iff whole, unescaped]
          simp
        rw [filterMap_commented commented, unescaped]
        rfl
      · have goesOn : Uncommented s (front.length + 1) := by
          rw [uncommented_succ_iff whole]
          exact ⟨uncommented, fun percent => by simpa [percent] using comment⟩
        have parts : s = front ++ [c] ++ rest := by
          rw [whole, List.append_assoc]
          rfl
        have later := ih parts (by rwa [List.length_append])
        rw [escaping_concat, List.length_append] at later
        have code : (decide (c = '%') && !escaping front) = false := by simpa using comment
        rw [code, if_neg Bool.false_ne_true, bracesFrom, later]
        cases escaping front with
        | true => rfl
        | false =>
            simp only [Bool.false_eq_true, if_false, Brace.of?, List.length_singleton]
            split
            · rfl
            · split <;> rfl

end Positions

/-- **The braces that are counted on a line are the significant ones.** -/
theorem bracesOf_codeOf (line : Text) : bracesOf (codeOf line) = significantBraces line :=
  bracesFrom_codeFrom (List.nil_append line).symm fun _ beyond => absurd beyond (Nat.not_lt_zero _)

end SlideDeck.Latex
