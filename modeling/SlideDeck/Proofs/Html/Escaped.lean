import SlideDeck.Proofs.Html.Line

/-!
# Escaped text on its way to the page

Escaped text comes back in two steps. Where symbols are converted, the commands that stand for a
character are read, and what is left of the escaping are backslashes in front of characters that are
no letters (`settled`). No command is found in such text (`commandless`), so the conversions between
leave it alone. Last come the escapes that are left, and each character is shown as the page wants
it (`shown`).

Both steps read one character after the other, whatever stands behind. So escaped text is decoded as
it was written (`fragment_escape`).
-/

set_option autoImplicit false

namespace SlideDeck.Html

open SlideDeck SlideDeck.Text SlideDeck.Latex

/-! ## Characters -/

/-- A character as the page shows it. -/
def showChar (c : Char) : Text := if c = '\\' then backslash else escapeMarkup c

/-- A text as the page shows it. -/
def shown (s : Text) : Text := s.flatMap showChar

/-- An escaped character once symbols are converted. -/
def settleChar (c : Char) : Text :=
  if c = '\\' then backslash else if backslashEscaped c then ['\\', c] else escapeAngle c

/-- An escaped text once symbols are converted. -/
def settled (s : Text) : Text := s.flatMap settleChar

/-- The characters that are not written as themselves everywhere. -/
def specialChars : Text := ['\\', '_', '&', '%', '$', '#', '\x7b', '\x7d', '~', '^', '<', '>']

section Chars

variable {c : Char}

theorem ne_of_not_mem_specialChars {d : Char} (plain : c ∉ specialChars)
    (special : d ∈ specialChars) :
    c ≠ d := fun same => plain (same ▸ special)

theorem backslashEscaped_of_not_mem (plain : c ∉ specialChars) : backslashEscaped c = false := by
  by_contra escaped
  simp only [backslashEscaped, Bool.not_eq_false, Bool.or_eq_true, beq_iff_eq] at escaped
  rcases escaped with (((((rfl | rfl) | rfl) | rfl) | rfl) | rfl) | rfl <;> exact plain (by decide)

theorem escapeAngle_of_not_mem (plain : c ∉ specialChars) : escapeAngle c = [c] := by
  rw [escapeAngle, if_neg (ne_of_not_mem_specialChars plain (by decide)),
    if_neg (ne_of_not_mem_specialChars plain (by decide))]

theorem escapeChar_of_not_mem (plain : c ∉ specialChars) : escapeChar c = [c] := by
  rw [escapeChar, if_neg (ne_of_not_mem_specialChars plain (by decide)),
    backslashEscaped_of_not_mem plain, if_neg Bool.false_ne_true,
    if_neg (ne_of_not_mem_specialChars plain (by decide)),
    if_neg (ne_of_not_mem_specialChars plain (by decide))]

theorem settleChar_of_not_mem (plain : c ∉ specialChars) : settleChar c = [c] := by
  rw [settleChar, if_neg (ne_of_not_mem_specialChars plain (by decide)),
    backslashEscaped_of_not_mem plain, if_neg Bool.false_ne_true, escapeAngle_of_not_mem plain]

theorem showChar_of_not_mem (plain : c ∉ specialChars) : showChar c = [c] := by
  rw [showChar, if_neg (ne_of_not_mem_specialChars plain (by decide)), escapeMarkup,
    if_neg (ne_of_not_mem_specialChars plain (by decide)), escapeAngle_of_not_mem plain]

end Chars

/-! ## Reading escapes -/

/-- What is converted in front of all texts is converted by itself. -/
theorem eq_of_append {convert : Text → Text} {s converted : Text}
    (append : ∀ t, convert (s ++ t) = converted ++ convert t) (nil : convert [] = []) :
    convert s = converted := by
  have whole := append []
  rwa [nil, List.append_nil, List.append_nil] at whole

/-- The commands that stand for a character, in the order in which they are converted. -/
def symbols : List (Text × Text) := [
  (symbol "textbackslash".toList, backslash), (symbol "textasciitilde".toList, ['~']),
  (symbol "textasciicircum".toList, ['^'])]

theorem convertSymbols_eq (s : Text) : convertSymbols s = replaceAll symbols s := rfl

theorem independent_symbols : Independent symbols := by decide

theorem independent_escapes : Independent escapes := by decide

theorem convertSymbols_append {written meant : Text} (reads : Reads symbols written meant)
    (t : Text) :
    convertSymbols (written ++ t) = meant ++ convertSymbols t :=
  replaceAll_append independent_symbols reads t

theorem resolveEscapes_append {written meant : Text} (reads : Reads escapes written meant)
    (t : Text) :
    resolveEscapes (written ++ t) = meant ++ resolveEscapes t :=
  replaceAll_append independent_escapes reads t

/-- What is written with a backslash is not read in a text without. -/
theorem reads_of_not_mem {entries : List (Text × Text)} {s : Text}
    (slash : ∀ entry ∈ entries, entry.1.head? = some '\\') (absent : '\\' ∉ s) :
    Reads entries s s := by
  refine .inr ⟨rfl, fun entry member => ?_⟩
  obtain ⟨name, same⟩ := List.head?_eq_some_iff.mp (slash entry member)
  rw [same]
  exact avoids_of_not_mem absent

theorem slash_not_mem_singleton {c : Char} (plain : c ∉ specialChars) : '\\' ∉ [c] := by
  rw [List.mem_singleton]
  exact Ne.symm (ne_of_not_mem_specialChars plain (by decide))

theorem reads_symbols (c : Char) : Reads symbols (escapeAngles (escapeChar c)) (settleChar c) := by
  by_cases special : c ∈ specialChars
  · have each : ∀ c ∈ specialChars, Reads symbols (escapeAngles (escapeChar c)) (settleChar c) := by
      decide
    exact each c special
  · have written : escapeAngles (escapeChar c) = [c] := by
      rw [escapeChar_of_not_mem special, escapeAngles, List.flatMap_singleton,
        escapeAngle_of_not_mem special]
    rw [written, settleChar_of_not_mem special]
    exact reads_of_not_mem (by decide) (slash_not_mem_singleton special)

theorem reads_escapes (c : Char) : Reads escapes (settleChar c) (showChar c) := by
  by_cases special : c ∈ specialChars
  · have each : ∀ c ∈ specialChars, Reads escapes (settleChar c) (showChar c) := by decide
    exact each c special
  · rw [settleChar_of_not_mem special, showChar_of_not_mem special]
    exact reads_of_not_mem (by decide) (slash_not_mem_singleton special)

theorem convertSymbols_escape_append (s t : Text) :
    convertSymbols (escapeAngles (escape s) ++ t) = settled s ++ convertSymbols t := by
  have whole : escapeAngles (escape s) = s.flatMap fun c => escapeAngles (escapeChar c) :=
    List.flatMap_assoc
  rw [whole, convertSymbols_eq, convertSymbols_eq]
  exact replaceAll_flatMap_append independent_symbols (fun c _ => reads_symbols c) t

theorem resolveEscapes_settled_append (s t : Text) :
    resolveEscapes (settled s ++ t) = shown s ++ resolveEscapes t :=
  replaceAll_flatMap_append independent_escapes (fun c _ => reads_escapes c) t

/-! ## Braces of escapes -/

/-- Whether no brace in the text groups, and the character behind it is not escaped. -/
def ungrouped : Bool → Text → Bool
  | escaped, [] => !escaped
  | escaped, c :: s => (!isBrace c || escaped) && ungrouped (c == '\\') s

theorem dropGroupBracesFrom_append_of_ungrouped {escaped : Bool} {s : Text}
    (quiet : ungrouped escaped s = true) (t : Text) :
    dropGroupBracesFrom escaped (s ++ t) = s ++ dropGroupBraces t := by
  induction s generalizing escaped with
  | nil =>
      cases escaped with
      | false => rfl
      | true => cases quiet
  | cons c s ih =>
      rw [ungrouped, Bool.and_eq_true] at quiet
      have stays : (isBrace c && !escaped) = false := by
        rcases Bool.or_eq_true_iff.mp quiet.1 with other | escaped
        · simp_all
        · simp [escaped]
      rw [List.cons_append, dropGroupBracesFrom, stays, ih quiet.2]
      rfl

theorem dropGroupBraces_append {s : Text} (quiet : ungrouped false s = true) (t : Text) :
    dropGroupBraces (s ++ t) = s ++ dropGroupBraces t :=
  dropGroupBracesFrom_append_of_ungrouped quiet t

theorem ungrouped_settleChar (c : Char) : ungrouped false (settleChar c) = true := by
  by_cases special : c ∈ specialChars
  · have each : ∀ c ∈ specialChars, ungrouped false (settleChar c) = true := by decide
    exact each c special
  · have noBrace : isBrace c = false := by
      simp [isBrace, ne_of_not_mem_specialChars special (show '\x7b' ∈ specialChars by decide),
        ne_of_not_mem_specialChars special (show '\x7d' ∈ specialChars by decide)]
    have noSlash : (c == '\\') = false :=
      beq_eq_false_iff_ne.mpr (ne_of_not_mem_specialChars special (by decide))
    rw [settleChar_of_not_mem special, ungrouped, noBrace, noSlash]
    rfl

/-- Escaped braces stay. -/
theorem dropGroupBraces_settled_append (s t : Text) :
    dropGroupBraces (settled s ++ t) = settled s ++ dropGroupBraces t := by
  induction s with
  | nil => rfl
  | cons c s ih =>
      have first := dropGroupBraces_append (ungrouped_settleChar c) (settled s ++ t)
      rw [ih] at first
      rw [settled, List.flatMap_cons, List.append_assoc, List.append_assoc]
      exact first

/-! ## Text without commands -/

theorem commandless_append {s t : Text} (first : commandless s = true)
    (second : commandless t = true) :
    commandless (s ++ t) = true := by
  induction s with
  | nil => exact second
  | cons c s ih =>
      rw [commandless, Bool.and_eq_true] at first
      rw [List.cons_append, commandless, ih first.2, Bool.and_true]
      cases s with
      | nil =>
          rw [List.head?_nil, Option.any_none, Bool.or_false] at first
          rw [first.1, Bool.true_or]
      | cons d s => exact first.1

theorem commandless_settled (s : Text) : commandless (settled s) = true := by
  induction s with
  | nil => rfl
  | cons c s ih =>
      refine commandless_append ?_ ih
      by_cases special : c ∈ specialChars
      · have each : ∀ c ∈ specialChars, commandless (settleChar c) = true := by decide
        exact each c special
      · have noSlash : (c != '\\') = true :=
          bne_iff_ne.mpr (ne_of_not_mem_specialChars special (by decide))
        rw [settleChar_of_not_mem special, commandless, noSlash]
        rfl

theorem isSome_commandName_of_isPrefix {literal t : Text}
    (command : (commandName? literal).isSome = true)
    (begins : literal <+: t) : (commandName? t).isSome = true := by
  obtain ⟨rest, rfl⟩ := begins
  unfold commandName? at command
  split at command
  · next c name =>
      split at command
      · next letter => simp [commandName?, letter]
      · cases command
  · cases command

/-- What looks for commands finds none in text without commands. -/
theorem silent_of_commandless {α : Type} {look : Text → Option α} {literals : List Text} {s : Text}
    (led : LedBy literals look)
    (commands : ∀ literal ∈ literals, (commandName? literal).isSome = true)
    (noCommand : commandless s = true) : Silent look s := by
  have silent := silent_commandName noCommand
  clear noCommand
  induction s with
  | nil => trivial
  | cons c s ih =>
      refine ⟨fun t => ?_, ih silent.2⟩
      by_contra answers
      obtain ⟨literal, member, begins⟩ := led _ answers
      have found := isSome_commandName_of_isPrefix (commands literal member) begins
      rw [silent.1 t] at found
      cases found

theorem convertInnermost_append {s : Text} (noCommand : commandless s = true) (t : Text) :
    convertInnermost (s ++ t) = s ++ convertInnermost t := by
  have silent : ∀ names tag, (∀ name ∈ names, (commandName? ('\\' :: name)).isSome = true) →
      Silent (spanCommand names tag) s := fun names tag commands =>
    silent_of_commandless (ledBy_spanCommand names tag) (List.forall_mem_map.mpr commands) noCommand
  have bold := silent ["textbf".toList] "strong".toList (by decide)
  have italic := silent ["textit".toList, "emph".toList] "em".toList (by decide)
  have code := silent ["texttt".toList] "code".toList (by decide)
  rw [convertInnermost, convertBold, bold.substitute_append, italic.substitute_append,
    code.substitute_append]
  rfl

/-- Text without commands holds no emphasis. -/
theorem convertEmphasis_append {s : Text} (noCommand : commandless s = true) (t : Text) :
    convertEmphasis (s ++ t) = s ++ convertEmphasis t := by
  simp only [convertEmphasis, repeated, convertInnermost_append noCommand]

/-- What the commands begin with that are dropped before all others. -/
def layoutStarts : List Text :=
  centering ++ sizes.map ('\\' :: ·) ++ [beginEnvironment "tikzpicture".toList]

/-- Removes the commands with arguments, and before these what centers text, sizes and pictures. -/
def dropArguments (s : Text) : Text :=
  remove commandWithArgument? (substitute picture? (remove sizeCommand? (removeAny centering s)))

theorem dropArguments_eq {s : Text} (silent : ∀ literal ∈ layoutStarts, Silent (skip? literal) s) :
    dropArguments s = remove commandWithArgument? s := by
  rw [layoutStarts, List.forall_mem_append, List.forall_mem_append, List.forall_mem_map] at silent
  obtain ⟨⟨center, size⟩, picture⟩ := silent
  have centered : removeAny centering s = s := ((Silent.findSome? center).map _).substitute_eq_self
  have sized : remove sizeCommand? s = s :=
    ((Silent.findSome? fun name member => (size name member).bind _).map _).substitute_eq_self
  have pictured : substitute picture? s = s :=
    ((List.forall_mem_singleton.mp picture).bind _).substitute_eq_self
  rw [dropArguments, centered, sized, pictured]

/-- Without such a command, the others are dropped: first those with an argument. -/
theorem dropCommands_eq {s : Text} (silent : ∀ literal ∈ layoutStarts, Silent (skip? literal) s) :
    dropCommands s = remove commandName? (remove commandWithArgument? s) :=
  congrArg (remove commandName?) (dropArguments_eq silent)

theorem silent_layoutStarts {s : Text} (noCommand : commandless s = true) :
    ∀ literal ∈ layoutStarts, Silent (skip? literal) s := by
  intro literal member
  have commands : ∀ literal ∈ layoutStarts, (commandName? literal).isSome = true := by decide
  exact silent_of_commandless (LedBy.skip literal)
    (List.forall_mem_singleton.mpr (commands literal member)) noCommand

theorem dropArguments_of_commandless {s : Text} (noCommand : commandless s = true) :
    dropArguments s = s :=
  (dropArguments_eq (silent_layoutStarts noCommand)).trans
    (silent_dropsArgument noCommand).substitute_eq_self

/-- Nothing is dropped from text without commands. -/
theorem dropCommands_of_commandless {s : Text} (noCommand : commandless s = true) :
    dropCommands s = s := by
  have named : remove commandName? s = s :=
    ((silent_commandName noCommand).map _).substitute_eq_self
  exact (congrArg (remove commandName?) (dropArguments_of_commandless noCommand)).trans named

/-! ## Lines -/

theorem collapseGaps_of_not_mem {s : Text} (oneLine : '\n' ∉ s) : collapseGaps s = s := by
  refine substitute_eq_self fun c cs part => gap?_of_ne ?_ cs
  rintro rfl
  exact oneLine (part.subset List.mem_cons_self)

/-- What is shown for special characters is fixed, and all others are shown as themselves. -/
theorem mem_shown {d : Char} {s : Text} (member : d ∈ shown s) :
    d ∈ shown specialChars ∨ d ∈ s ∧ d ∉ specialChars := by
  obtain ⟨c, inside, written⟩ := List.mem_flatMap.mp member
  by_cases special : c ∈ specialChars
  · exact .inl (List.mem_flatMap.mpr ⟨c, special, written⟩)
  · rw [showChar_of_not_mem special, List.mem_singleton] at written
    exact .inr (written ▸ ⟨inside, special⟩)

theorem newline_not_mem_shown {s : Text} (oneLine : '\n' ∉ s) : '\n' ∉ shown s := by
  intro member
  rcases mem_shown member with fixed | ⟨inside, -⟩
  · exact absurd fixed (by decide)
  · exact oneLine inside

theorem keepsLiteral_escapeChar : KeepsLiteral '[' "fragile]".toList escapeChar := by
  intro c
  by_cases special : c ∈ specialChars
  · have each : ∀ c ∈ specialChars, escapeChar c = [c] ∨ c ∉ "[fragile]".toList ∧
        ((escapeChar c).head? = some '\\' ∧ '[' ∉ (escapeChar c).tail) := by decide
    refine (each c special).imp_right fun ⟨absent, first, tail⟩ =>
      ⟨absent, '\\', _, ?_, by decide, tail⟩
    obtain ⟨rest, same⟩ := List.head?_eq_some_iff.mp first
    rw [same]
    rfl
  · exact .inl (escapeChar_of_not_mem special)

theorem replace_fragile_escape (s : Text) :
    replace "[fragile]".toList [] (escape s) = escape (replace "[fragile]".toList [] s) :=
  keepsLiteral_escapeChar.replace_flatMap [] s

/-- **Escaped text is decoded as it was written:** the page shows each character of the text,
without the blanks at its ends. Only the text `[fragile]` is lost, since it might be the option of a
frame. -/
theorem fragment_escape {t : Text} (oneLine : '\n' ∉ t) :
    fragment (escape t) = trim (shown (replace "[fragile]".toList [] t)) := by
  have taken := replace_fragile_escape t
  have still : '\n' ∉ replace "[fragile]".toList [] t := not_mem_replace oneLine List.not_mem_nil
  generalize replace "[fragile]".toList [] t = s at taken still ⊢
  have noCommand := commandless_settled s
  have converted : emphasized (escape s) = settled s := by
    rw [emphasized, eq_of_append (convertSymbols_escape_append s) rfl,
      eq_of_append (convertEmphasis_append noCommand) rfl]
  have ungrouped := eq_of_append (dropGroupBraces_settled_append s) rfl
  have resolved := eq_of_append (resolveEscapes_settled_append s) rfl
  rw [fragment_line (Inline.formatted_escape s 0) (Inline.not_mem_escape (by decide) still) taken,
    converted, dropCommands_of_commandless noCommand, ungrouped, resolved,
    collapseGaps_of_not_mem (newline_not_mem_shown still)]

theorem fragment_escape_specials :
    '\n' ∉ " a\\b \x7b_\x7d ~^ <i> & \\textbf\x7b[fragile]$5\x7d 100%#".toList ∧
      fragment (escape " a\\b \x7b_\x7d ~^ <i> & \\textbf\x7b[fragile]$5\x7d 100%#".toList) =
        "a&#92;b \x7b_\x7d ~^ &lt;i&gt; &amp; &#92;textbf\x7b$5\x7d 100%#".toList :=
  ⟨by decide, (fragment_escape (by decide)).trans (by decide)⟩

end SlideDeck.Html
