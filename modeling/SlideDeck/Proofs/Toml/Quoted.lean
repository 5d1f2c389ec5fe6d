import SlideDeck.Toml.Quoted

/-!
# Quoted text is read as it was written

The writer shows a character of an escaping form in one of three ways (`shown_cases`): as an escape
with one letter, as one with a code, or as it is. The reader takes each of them for that character,
so by recursion on the text it reads what was written (`readBasic_escapeFrom`,
`readMultiBasic_escapeFrom`). In the forms over several lines marks belong to the text as long as
there are fewer than three in a row; the statements carry the marks that were passed already. A form
without escapes is chosen only for a text that it shows as it is (`formOf_cases`).

Together: a text in its form is read as the text, up to its closing mark (`readText_write`).
-/

set_option autoImplicit false

namespace SlideDeck.Toml

open SlideDeck.Text

attribute [local simp] readBasic readMultiBasic readMultiLiteral

/-! ## How a character is shown -/

/-- The code of a control character is read. -/
theorem coded?_fourDigits {n : Nat} (control : n < 0x20 ∨ n = 0x7F) :
    ∃ a b c d, fourDigits n = [a, b, c, d] ∧ coded? [a, b, c, d] = some (Char.ofNat n) := by
  have low : ∀ n < 0x20, (fourDigits n).length = 4 ∧
      coded? (fourDigits n) = some (Char.ofNat n) := by decide +kernel
  have delete : (fourDigits 0x7F).length = 4 ∧
      coded? (fourDigits 0x7F) = some (Char.ofNat 0x7F) := by decide +kernel
  have both : (fourDigits n).length = 4 ∧ coded? (fourDigits n) = some (Char.ofNat n) := by
    rcases control with small | rfl
    · exact low n small
    · exact delete
  match digits : fourDigits n, both with
  | [a, b, c, d], both => exact ⟨a, b, c, d, rfl, both.2⟩

/-- A character is shown as an escape with a letter, as one with a code, or as
it is. -/
theorem shown_cases (multiline : Bool) (c : Char) :
    (∃ letter, (escape? multiline c).getD [c] = ['\\', letter] ∧ escaped? letter = some c ∧
        letter ≠ 'u' ∧ letter ≠ 'U') ∨
      (∃ x y z t, (escape? multiline c).getD [c] = ['\\', 'u', x, y, z, t] ∧
        coded? [x, y, z, t] = some c) ∨
      (escape? multiline c).getD [c] = [c] ∧ c ≠ '\\' ∧ c ≠ '\r' ∧
        (isInline c = true ∨ multiline = true ∧ c = '\n') := by
  by_cases backspace : c = '\x08'
  · exact Or.inl ⟨'b', by simp [escape?, backspace], by simp [escaped?, backspace],
      by decide, by decide⟩
  by_cases tab : c = '\t'
  · exact Or.inl ⟨'t', by simp [escape?, tab], by simp [escaped?, tab], by decide, by decide⟩
  by_cases newline : c = '\n'
  · cases multiline with
    | false =>
        exact Or.inl ⟨'n', by simp [escape?, newline], by simp [escaped?, newline],
          by decide, by decide⟩
    | true =>
        exact Or.inr (Or.inr ⟨by simp [escape?, newline], by simp [newline], by simp [newline],
          by simp [newline]⟩)
  by_cases feed : c = '\x0c'
  · exact Or.inl ⟨'f', by simp [escape?, feed], by simp [escaped?, feed], by decide, by decide⟩
  by_cases back : c = '\r'
  · exact Or.inl ⟨'r', by simp [escape?, back], by simp [escaped?, back], by decide, by decide⟩
  by_cases backslash : c = '\\'
  · exact Or.inl ⟨'\\', by simp [escape?, backslash], by simp [escaped?, backslash, doubleMark],
      by decide, by decide⟩
  cases control : isControl c with
  | true =>
      have code : c.toNat < 0x20 ∨ c.toNat = 0x7F := by simpa [isControl] using control
      obtain ⟨x, y, z, t, digits, read⟩ := coded?_fourDigits code
      refine Or.inr (Or.inl ⟨x, y, z, t, ?_, by rw [read, Char.ofNat_toNat]⟩)
      simp [escape?, backspace, tab, newline, feed, back, backslash, control, digits]
  | false =>
      refine Or.inr (Or.inr ⟨?_, backslash, back, Or.inl (by simp [isInline, control])⟩)
      simp [escape?, backspace, tab, newline, feed, back, backslash, control]

/-! ## The escaping form on one line -/

theorem readBasic_letter {letter c : Char} (rest : Text) (read : escaped? letter = some c)
    (noCode : letter ≠ 'u') (noLongCode : letter ≠ 'U') :
    readBasic ('\\' :: letter :: rest) = after [c] (readBasic rest) := by
  rw [readBasic, read, Option.bind_some]
  · rintro x y z t rest' rfl
    contradiction
  · rintro x y z t p q r s rest' rfl
    contradiction

theorem readBasic_plain {c : Char} (rest : Text) (noEscape : c ≠ '\\') (noMark : c ≠ doubleMark)
    (visible : isInline c = true) : readBasic (c :: rest) = after [c] (readBasic rest) := by
  simp [noEscape, noMark, visible]

/-- A character that was shown is read. -/
theorem readBasic_shown {c : Char} (noMark : c ≠ doubleMark) (rest : Text) :
    readBasic ((escape? false c).getD [c] ++ rest) = after [c] (readBasic rest) := by
  rcases shown_cases false c with
    ⟨letter, shown, read, noCode, noLongCode⟩ | ⟨x, y, z, t, shown, read⟩ |
    ⟨shown, noEscape, -, visible⟩
  · rw [shown]
    exact readBasic_letter rest read noCode noLongCode
  · simp [shown, read]
  · rw [shown]
    exact readBasic_plain rest noEscape noMark (by simpa using visible)

theorem readBasic_escapeFrom (s rest : Text) :
    readBasic (escapeFrom false 0 s ++ doubleMark :: rest) = some (s, rest) := by
  induction s with
  | nil =>
      simp [escapeFrom, doubleMark]
  | cons c s ih =>
      by_cases mark : c = doubleMark
      · subst mark
        rw [escapeFrom, if_pos rfl, if_neg (by simp), List.cons_append, List.cons_append,
          readBasic_letter (c := doubleMark) _ (by decide) (by decide) (by decide), ih]
        rfl
      · rw [escapeFrom, if_neg mark, List.append_assoc, readBasic_shown mark, ih]
        rfl

/-! ## The form without escapes on one line -/

theorem readLiteral_append {s : Text} (noMark : singleMark ∉ s)
    (visible : ∀ c ∈ s, isInline c = true) (rest : Text) :
    readLiteral (s ++ singleMark :: rest) = some (s, rest) := by
  induction s with
  | nil => rw [List.nil_append, readLiteral, if_pos rfl]
  | cons c s ih =>
      rw [List.mem_cons, not_or] at noMark
      rw [List.forall_mem_cons] at visible
      rw [List.cons_append, readLiteral, if_neg (Ne.symm noMark.1), if_pos visible.1,
        ih noMark.2 visible.2]
      rfl

/-! ## Forms over several lines -/

theorem onMarks_of_few {mark : Char} {marks : Nat} (few : marks ≤ 2) (rest : Text)
    (more : Option (Text × Text)) :
    onMarks mark marks rest more = after (List.replicate marks mark) more := by
  rw [onMarks, if_pos (by omega)]

/-- Three marks behind those that belong to the text end it. -/
theorem onMarks_closing {mark : Char} {marks : Nat} (few : marks ≤ 2) (rest : Text)
    (more : Option (Text × Text)) :
    onMarks mark (marks + 3) rest more = some (List.replicate marks mark, rest) := by
  rw [onMarks, if_neg (by omega), if_pos (by omega), Nat.add_sub_cancel]

theorem readMultiBasic_letter {letter c : Char} {marks : Nat} (few : marks ≤ 2) (rest : Text)
    (read : escaped? letter = some c) (noCode : letter ≠ 'u') (noLongCode : letter ≠ 'U') :
    readMultiBasic false marks ('\\' :: letter :: rest) =
      after (List.replicate marks doubleMark) (after [c] (readMultiBasic false 0 rest)) := by
  rw [readMultiBasic, onMarks_of_few few, read]
  · rintro x y z t rest' rfl
    contradiction
  · rintro x y z t p q r s rest' rfl
    contradiction

theorem readMultiBasic_mark (marks : Nat) (rest : Text) :
    readMultiBasic false marks (doubleMark :: rest) = readMultiBasic false (marks + 1) rest := by
  simp [doubleMark]

theorem readMultiBasic_plain {c : Char} {marks : Nat} (few : marks ≤ 2) (rest : Text)
    (noEscape : c ≠ '\\') (noReturn : c ≠ '\r') (noMark : c ≠ doubleMark)
    (visible : isInline c = true ∨ c = '\n') :
    readMultiBasic false marks (c :: rest) =
      after (List.replicate marks doubleMark) (after [c] (readMultiBasic false 0 rest)) := by
  simp [noEscape, noReturn, noMark, visible, onMarks_of_few few]

theorem readMultiBasic_shown {c : Char} {marks : Nat} (few : marks ≤ 2) (noMark : c ≠ doubleMark)
    (rest : Text) :
    readMultiBasic false marks ((escape? true c).getD [c] ++ rest) =
      after (List.replicate marks doubleMark) (after [c] (readMultiBasic false 0 rest)) := by
  rcases shown_cases true c with
    ⟨letter, shown, read, noCode, noLongCode⟩ | ⟨x, y, z, t, shown, read⟩ |
    ⟨shown, noEscape, noReturn, visible⟩
  · rw [shown]
    exact readMultiBasic_letter few rest read noCode noLongCode
  · simp [shown, read, onMarks_of_few few]
  · rw [shown]
    exact readMultiBasic_plain few rest noEscape noReturn noMark (by simpa using visible)

/-- What is behind the closing marks is not read. -/
theorem readMultiBasic_closed {marks : Nat} (few : marks ≤ 2) (rest : Text) :
    readMultiBasic false (marks + 3) ('\n' :: rest) =
      some (List.replicate marks doubleMark, '\n' :: rest) := by
  simp [doubleMark, onMarks_closing few]

theorem readMultiBasic_escapeFrom (s rest : Text) {marks : Nat} (few : marks ≤ 2) :
    readMultiBasic false marks
        (escapeFrom true marks s ++ doubleMark :: doubleMark :: doubleMark :: '\n' :: rest) =
      some (List.replicate marks doubleMark ++ s, '\n' :: rest) := by
  induction s generalizing marks with
  | nil =>
      rw [escapeFrom, List.nil_append, readMultiBasic_mark, readMultiBasic_mark,
        readMultiBasic_mark, readMultiBasic_closed few, List.append_nil]
  | cons c s ih =>
      by_cases mark : c = doubleMark
      · subst mark
        by_cases fewer : marks < 2
        · rw [escapeFrom, if_pos rfl, if_pos (by simpa using fewer), List.cons_append,
            readMultiBasic_mark, ih (by omega), List.replicate_succ', List.append_assoc]
          rfl
        · rw [escapeFrom, if_pos rfl, if_neg (by simpa using fewer), List.cons_append,
            List.cons_append, readMultiBasic_letter (c := doubleMark) few _ (by decide) (by decide)
              (by decide), ih (by omega)]
          rfl
      · rw [escapeFrom, if_neg mark, List.append_assoc, readMultiBasic_shown few mark,
          ih (by omega)]
        rfl

theorem readMultiLiteral_mark (marks : Nat) (rest : Text) :
    readMultiLiteral marks (singleMark :: rest) = readMultiLiteral (marks + 1) rest := by
  simp [singleMark]

theorem readMultiLiteral_plain {c : Char} {marks : Nat} (few : marks ≤ 2) (rest : Text)
    (noReturn : c ≠ '\r') (noMark : c ≠ singleMark) (visible : isInline c = true ∨ c = '\n') :
    readMultiLiteral marks (c :: rest) =
      after (List.replicate marks singleMark) (after [c] (readMultiLiteral 0 rest)) := by
  simp [noReturn, noMark, visible, onMarks_of_few few]

/-- A character that needs no escape may stand on a line or ends it. -/
theorem isInline_or_newline {c : Char} (plain : needsEscape c = false) :
    isInline c = true ∨ c = '\n' := by
  simp only [needsEscape, Bool.and_eq_false_iff, bne_eq_false_iff_eq] at plain
  rcases plain with (plain | rfl) | newline
  · exact Or.inl (by simp [isInline, plain])
  · exact Or.inl rfl
  · exact Or.inr newline

theorem readMultiLiteral_append {s : Text} (visible : ∀ c ∈ s, needsEscape c = false) (rest : Text)
    {marks : Nat} (run : longestRunFrom singleMark marks s ≤ 2) :
    readMultiLiteral marks (s ++ singleMark :: singleMark :: singleMark :: '\n' :: rest) =
      some (List.replicate marks singleMark ++ s, '\n' :: rest) := by
  induction s generalizing marks with
  | nil =>
      have few : marks ≤ 2 := run
      rw [List.nil_append, readMultiLiteral_mark, readMultiLiteral_mark, readMultiLiteral_mark,
        readMultiLiteral, if_neg (by decide), onMarks_closing few, List.append_nil]
      simp
  | cons c s ih =>
      rw [List.forall_mem_cons] at visible
      rw [longestRunFrom] at run
      by_cases mark : c = singleMark
      · subst mark
        rw [if_pos rfl] at run
        rw [List.cons_append, readMultiLiteral_mark, ih visible.2 run, List.replicate_succ',
          List.append_assoc]
        rfl
      · rw [if_neg mark, Nat.max_le] at run
        have noReturn : c ≠ '\r' := by
          rintro rfl
          exact absurd visible.1 (by decide)
        rw [List.cons_append,
          readMultiLiteral_plain run.1 _ noReturn mark (isInline_or_newline visible.1),
          ih visible.2 run.2]
        rfl

/-! ## Choosing a form -/

/-- The form of a text has escapes, or shows the text as it is. -/
theorem formOf_cases (s : Text) :
    (formOf s).escaping = true ∨ (formOf s).suits s = true := by
  rw [formOf]
  cases found : Form.all.find? fun form => form.suits s with
  | none => exact Or.inl rfl
  | some form => exact Or.inr (List.find?_some (p := fun form : Form => form.suits s) found)

theorem le_longestRunFrom (mark : Char) (current : Nat) (s : Text) :
    current ≤ longestRunFrom mark current s := by
  induction s generalizing current with
  | nil => exact Nat.le_refl current
  | cons c s ih =>
      rw [longestRunFrom]
      split
      · exact Nat.le_of_succ_le (ih (current + 1))
      · exact Nat.le_max_left ..

theorem not_mem_of_longestRun {mark : Char} {s : Text} (noRun : longestRun mark s ≤ 0) :
    mark ∉ s := by
  rw [longestRun] at noRun
  induction s with
  | nil => exact List.not_mem_nil
  | cons c s ih =>
      rw [longestRunFrom] at noRun
      by_cases same : c = mark
      · rw [if_pos same] at noRun
        exact absurd (Nat.le_trans (le_longestRunFrom mark 1 s) noRun) (by decide)
      · rw [if_neg same, Nat.max_le] at noRun
        rw [List.mem_cons, not_or]
        exact ⟨Ne.symm same, ih noRun.2⟩

/-- What a form without escapes needs of a text. -/
theorem plain_of_suits {multiline : Bool} {s : Text}
    (suits : Form.suits ⟨false, multiline⟩ s = true) :
    (∀ c ∈ s, needsEscape c = false) ∧ (multiline = true ∨ '\n' ∉ s) ∧
      longestRun singleMark s ≤ if multiline then 2 else 0 := by
  simpa [Form.suits, and_assoc] using suits

/-! ## Reading a text in a form -/

/-- The first character of an escaping form is not the mark, unless the form allows it, and ends no
line, unless the text does. -/
theorem exists_escapeFrom_cons (multiline : Bool) (c : Char) (s : Text) :
    ∃ d t, escapeFrom multiline 0 (c :: s) = d :: t ∧ (multiline = false → d ≠ doubleMark) ∧
      (c ≠ '\n' → d ≠ '\n') ∧ d ≠ '\r' := by
  rw [escapeFrom]
  by_cases mark : c = doubleMark
  · subst mark
    cases multiline with
    | false => exact ⟨'\\', _, rfl, by decide, by decide, by decide⟩
    | true => exact ⟨doubleMark, _, rfl, by decide, by decide, by decide⟩
  · rw [if_neg mark]
    rcases shown_cases multiline c with
      ⟨letter, shown, -, -⟩ | ⟨x, y, z, t, shown, -⟩ | ⟨shown, -, noReturn, -⟩
    · exact ⟨'\\', _, by rw [shown]; rfl, fun _ => by decide, fun _ => by decide, by decide⟩
    · exact ⟨'\\', _, by rw [shown]; rfl, fun _ => by decide, fun _ => by decide, by decide⟩
    · exact ⟨c, _, by rw [shown]; rfl, fun _ => mark, id, noReturn⟩

/-- A text in quotes on one line does not look like one that goes over several lines. -/
theorem skip?_three_eq_none {mark : Char} {body rest : Text} (newline : mark ≠ '\n')
    (first : ∀ c ∈ body.head?, c ≠ mark) :
    skip? (List.replicate 3 mark) (mark :: (body ++ mark :: '\n' :: rest)) = none := by
  cases body with
  | nil => simp [List.replicate, skip?, newline]
  | cons c body => simp [List.replicate, skip?, Ne.symm (first c rfl)]

theorem skip?_other {mark other : Char} (differ : mark ≠ other) (rest : Text) :
    skip? (List.replicate 3 mark) (other :: rest) = none := by
  simp [List.replicate, skip?, differ]

/-- The newline in front of a text over several lines is dropped, and nothing else is. -/
theorem dropNewline_opening {s body : Text}
    (kept : '\n' ∉ s → ∃ d t, body = d :: t ∧ d ≠ '\n' ∧ d ≠ '\r') :
    dropNewline ((if s.contains '\n' then ['\n'] else []) ++ body) = body := by
  by_cases newline : '\n' ∈ s
  · rw [if_pos (by simpa using newline)]
    rfl
  · obtain ⟨d, t, rfl, noNewline, noReturn⟩ := kept newline
    rw [if_neg (by simpa using newline), List.nil_append, dropNewline, skipNewline?]
    · rfl
    · intro rest same
      exact noNewline (List.cons.inj same).1
    · intro rest same
      exact noReturn (List.cons.inj same).1

theorem readText_basic (s rest : Text) :
    readText (writeAs ⟨true, false⟩ s ++ '\n' :: rest) = some (s, '\n' :: rest) := by
  have written : writeAs ⟨true, false⟩ s ++ '\n' :: rest =
      doubleMark :: (escapeFrom false 0 s ++ doubleMark :: '\n' :: rest) := by
    simp [writeAs, Form.delimiter]
  have first : ∀ c ∈ (escapeFrom false 0 s).head?, c ≠ doubleMark := by
    cases s with
    | nil => simp [escapeFrom]
    | cons c s =>
        obtain ⟨d, t, whole, noMark, -⟩ := exists_escapeFrom_cons false c s
        simpa [whole] using noMark rfl
  rw [written, readText, skip?_three_eq_none (by decide) first, skip?_other (by decide)]
  exact readBasic_escapeFrom s ('\n' :: rest)

theorem readText_literal {s : Text} (suits : Form.suits ⟨false, false⟩ s = true) (rest : Text) :
    readText (writeAs ⟨false, false⟩ s ++ '\n' :: rest) = some (s, '\n' :: rest) := by
  obtain ⟨noEscape, oneLine, run⟩ := plain_of_suits suits
  have noMark := not_mem_of_longestRun run
  have written : writeAs ⟨false, false⟩ s ++ '\n' :: rest =
      singleMark :: (s ++ singleMark :: '\n' :: rest) := by
    simp [writeAs, Form.delimiter]
  have first : ∀ c ∈ s.head?, c ≠ singleMark := by
    rintro c member rfl
    exact noMark (List.mem_of_mem_head? member)
  have visible : ∀ c ∈ s, isInline c = true := by
    intro c member
    have noNewline : c ≠ '\n' := by
      rintro rfl
      exact oneLine.resolve_left (by decide) member
    exact (isInline_or_newline (noEscape c member)).resolve_right noNewline
  rw [written, readText, skip?_other (by decide), skip?_three_eq_none (by decide) first]
  exact readLiteral_append noMark visible ('\n' :: rest)

theorem readText_multiBasic (s rest : Text) :
    readText (writeAs ⟨true, true⟩ s ++ '\n' :: rest) = some (s, '\n' :: rest) := by
  have written : writeAs ⟨true, true⟩ s ++ '\n' :: rest =
      List.replicate 3 doubleMark ++ ((if s.contains '\n' then ['\n'] else []) ++
        (escapeFrom true 0 s ++ doubleMark :: doubleMark :: doubleMark :: '\n' :: rest)) := by
    simp [writeAs, Form.delimiter, List.replicate]
  rw [written, readText, skip?_eq_some_iff.mpr rfl]
  change readMultiBasic false 0 (dropNewline _) = _
  rw [dropNewline_opening, readMultiBasic_escapeFrom s rest (by decide)]
  · rfl
  · intro noNewline
    cases s with
    | nil => exact ⟨doubleMark, _, rfl, by decide, by decide⟩
    | cons c s =>
        obtain ⟨d, t, whole, -, newline, noReturn⟩ := exists_escapeFrom_cons true c s
        refine ⟨d, _, by rw [whole]; rfl, newline ?_, noReturn⟩
        rintro rfl
        exact noNewline List.mem_cons_self

theorem readText_multiLiteral {s : Text} (suits : Form.suits ⟨false, true⟩ s = true)
    (rest : Text) :
    readText (writeAs ⟨false, true⟩ s ++ '\n' :: rest) = some (s, '\n' :: rest) := by
  obtain ⟨noEscape, -, run⟩ := plain_of_suits suits
  have written : writeAs ⟨false, true⟩ s ++ '\n' :: rest =
      List.replicate 3 singleMark ++ ((if s.contains '\n' then ['\n'] else []) ++
        (s ++ singleMark :: singleMark :: singleMark :: '\n' :: rest)) := by
    simp [writeAs, Form.delimiter, List.replicate]
  have other : skip? (List.replicate 3 doubleMark) (List.replicate 3 singleMark ++
      ((if s.contains '\n' then ['\n'] else []) ++
        (s ++ singleMark :: singleMark :: singleMark :: '\n' :: rest))) = none :=
    skip?_other (by decide) _
  rw [written, readText, other, skip?_eq_some_iff.mpr rfl]
  change readMultiLiteral 0 (dropNewline _) = _
  rw [dropNewline_opening, readMultiLiteral_append noEscape rest run]
  · rfl
  · intro noNewline
    cases s with
    | nil => exact ⟨singleMark, _, rfl, by decide, by decide⟩
    | cons c s =>
        refine ⟨c, _, rfl, ?_, ?_⟩
        · rintro rfl
          exact noNewline List.mem_cons_self
        · rintro rfl
          exact absurd (noEscape _ List.mem_cons_self) (by decide)

/-- **A text that was written is read, up to its closing mark.** -/
theorem readText_write (s rest : Text) :
    readText (write s ++ '\n' :: rest) = some (s, '\n' :: rest) := by
  rw [write]
  rcases chosen : formOf s with ⟨_ | _, _ | _⟩
  · exact readText_literal (chosen ▸ (formOf_cases s).resolve_left (by simp [chosen])) rest
  · exact readText_multiLiteral (chosen ▸ (formOf_cases s).resolve_left (by simp [chosen])) rest
  · exact readText_basic s rest
  · exact readText_multiBasic s rest

end SlideDeck.Toml
