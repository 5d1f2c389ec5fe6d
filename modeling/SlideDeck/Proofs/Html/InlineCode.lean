import SlideDeck.Proofs.Html.Escaped

/-!
# Inline code on its way to the page

Formatting makes the text between backquotes the escaped argument of a command, and the exporter
makes that command an element. It looks for the end of the argument at the next brace, whether a
backslash stands in front of that brace or not. So the first brace of the code decides what comes
out:

* without braces, the page shows the code as an element;
* an opening brace hides the end of the argument: no element is made, and the code is shown as text;
* a closing brace is taken for the end of the argument: the element ends there, the backslash in
  front of the brace is shown, and the brace is lost.

So the code is the text of an element exactly when it holds no braces.
-/

set_option autoImplicit false

namespace SlideDeck

open SlideDeck.Text SlideDeck.Latex

/-! ## Formatting code -/

namespace Inline

variable {s : Text}

/-- Whether something that sanitizing replaces or drops may begin with the character. -/
def isSanitized (c : Char) : Bool :=
  isEmoji c || emojiReplacements.any fun entry => entry.1.head? == some c

theorem sanitize_eq_self (plain : ∀ c ∈ s, isSanitized c = false) : sanitize s = s := by
  have kept : replaceEmoji s = s := by
    rw [replaceEmoji]
    refine List.foldlRecOn (motive := fun t => t = s) emojiReplacements _ rfl ?_
    rintro t rfl entry member
    have begins : ∀ entry ∈ emojiReplacements, entry.1.head?.isSome = true := by decide
    obtain ⟨c, first⟩ := Option.isSome_iff_exists.mp (begins entry member)
    obtain ⟨rest, same⟩ := List.head?_eq_some_iff.mp first
    refine replace_eq_self _ fun occurs => ?_
    have inside : c ∈ t := occurs.subset (same ▸ List.mem_cons_self)
    have known : (emojiReplacements.any fun entry => entry.1.head? == some c) = true :=
      List.any_eq_true.mpr ⟨entry, member, beq_iff_eq.mpr first⟩
    have clean := plain c inside
    rw [isSanitized, known, Bool.or_true] at clean
    cases clean
  rw [sanitize, kept]
  refine List.filter_eq_self.mpr fun c member => ?_
  have clean := plain c member
  rw [isSanitized, Bool.or_eq_false_iff] at clean
  rw [clean.1]
  rfl

theorem spansFrom_length (s : Text) : spansFrom s.length s = [] := by
  induction s with
  | nil => rfl
  | cons c s ih => exact ih

/-- Text between backquotes is the argument of a command, and nothing in it is emphasized. -/
theorem format_code (nonempty : s ≠ []) (absent : backquote ∉ s)
    (plain : ∀ c ∈ s, isSanitized c = false) :
    format (backquote :: (s ++ [backquote])) = command "texttt".toList (escape s) := by
  have clean : sanitize (backquote :: (s ++ [backquote])) = backquote :: (s ++ [backquote]) := by
    refine sanitize_eq_self fun c member => ?_
    simp only [List.mem_cons, List.mem_append, List.not_mem_nil, or_false] at member
    rcases member with rfl | member | rfl
    · decide
    · exact plain c member
    · decide
  have found : codeSpan? (s ++ [backquote]) = some (s, []) := by
    obtain ⟨c, t, rfl⟩ := List.exists_cons_of_ne_nil nonempty
    rw [codeSpan?, splitOnce_append absent]
  have parts : spans (backquote :: (s ++ [backquote])) = [.code s] := by
    rw [spans, spansFrom, if_pos rfl, found]
    exact congrArg (Span.code s :: ·) (spansFrom_length _)
  rw [format, clean, parts]
  exact List.append_nil _

end Inline

namespace Html

/-! ## The first brace -/

/-- The command of code, up to its argument. -/
def codeStart : Text := "\\texttt\x7b".toList

/-- The command of code once symbols are converted. -/
def settledCode (c : Text) : Text := codeStart ++ (settled c ++ ['\x7d'])

theorem isBrace_of_mem_settled {c : Text} (noBrace : ∀ d ∈ c, isBrace d = false) :
    ∀ d ∈ settled c, isBrace d = false := by
  intro d member
  obtain ⟨e, inside, written⟩ := List.mem_flatMap.mp member
  by_cases special : e ∈ specialChars
  · have each : ∀ e ∈ specialChars, isBrace e = true ∨ ∀ d ∈ settleChar e, isBrace d = false := by
      decide
    rcases each e special with brace | braceless
    · rw [noBrace e inside] at brace
      cases brace
    · exact braceless d written
  · rw [settleChar_of_not_mem special, List.mem_singleton] at written
    exact written ▸ noBrace e inside

/-- A text has no braces, or a first one. -/
theorem exists_first_brace (c : Text) : (∀ d ∈ c, isBrace d = false) ∨
    ∃ x b y, c = x ++ b :: y ∧ (∀ d ∈ x, isBrace d = false) ∧ isBrace b = true := by
  induction c with
  | nil => exact .inl (List.forall_mem_nil _)
  | cons d c ih =>
      cases brace : isBrace d with
      | true => exact .inr ⟨[], d, c, rfl, List.forall_mem_nil _, brace⟩
      | false =>
          rcases ih with braceless | ⟨x, b, y, rfl, braceless, first⟩
          · exact .inl (List.forall_mem_cons.mpr ⟨brace, braceless⟩)
          · exact .inr ⟨d :: x, b, y, rfl, List.forall_mem_cons.mpr ⟨brace, braceless⟩, first⟩

theorem settled_append (x y : Text) : settled (x ++ y) = settled x ++ settled y :=
  List.flatMap_append

section Innermost

variable {c x : Text}

theorem innermost?_settled (braceless : ∀ d ∈ c, isBrace d = false) :
    innermost? ('\x7b' :: (settled c ++ ['\x7d'])) = some (settled c, []) := by
  rw [innermost?_append (isBrace_of_mem_settled braceless)]
  exact congrArg some (Prod.ext (List.append_nil _) rfl)

/-- An escaped opening brace is taken for the beginning of an argument inside. -/
theorem innermost?_settled_opening (braceless : ∀ d ∈ x, isBrace d = false) (y : Text) :
    innermost? ('\x7b' :: (settled (x ++ '\x7b' :: y) ++ ['\x7d'])) = none := by
  rw [settled_append, List.append_assoc, innermost?_append (isBrace_of_mem_settled braceless)]
  rfl

/-- An escaped closing brace is taken for the end of the argument. -/
theorem innermost?_settled_closing (braceless : ∀ d ∈ x, isBrace d = false) (y : Text) :
    innermost? ('\x7b' :: (settled (x ++ '\x7d' :: y) ++ ['\x7d'])) =
      some (settled x ++ ['\\'], settled y ++ ['\x7d']) := by
  rw [settled_append, List.append_assoc, innermost?_append (isBrace_of_mem_settled braceless)]
  rfl

end Innermost

/-! ## The element of code -/

theorem convertSymbols_code (c : Text) :
    convertSymbols (escapeAngles (command "texttt".toList (escape c))) = settledCode c := by
  have whole : escapeAngles (command "texttt".toList (escape c)) =
      codeStart ++ (escapeAngles (escape c) ++ ['\x7d']) := by
    simp only [command, group, escapeAngles, List.flatMap_append]
    rfl
  have start : Reads symbols codeStart codeStart := .inr ⟨rfl, by decide⟩
  rw [whole, convertSymbols_append start, convertSymbols_escape_append]
  rfl

/-- A round of conversions goes up to the argument of code. -/
theorem convertInnermost_codeStart {t : Text} (noCommand : commandless t = true) :
    convertInnermost (codeStart ++ t) =
      substitute (spanCommand ["texttt".toList] "code".toList) (codeStart ++ t) := by
  have commands :
      ∀ {names : List Text}, (∀ name ∈ names, (commandName? ('\\' :: name)).isSome = true) →
      ∀ literal ∈ names.map ('\\' :: ·), (commandName? literal).isSome = true :=
    fun each => List.forall_mem_map.mpr each
  have bold : Silent (spanCommand ["textbf".toList] "strong".toList) (codeStart ++ t) :=
    .append (silent_spanCommand (by decide))
      (silent_of_commandless (ledBy_spanCommand _ _) (commands (by decide)) noCommand)
  have italic :
      Silent (spanCommand ["textit".toList, "emph".toList] "em".toList) (codeStart ++ t) :=
    .append (silent_spanCommand (by decide))
      (silent_of_commandless (ledBy_spanCommand _ _) (commands (by decide)) noCommand)
  rw [convertInnermost, convertBold, bold.substitute_eq_self, italic.substitute_eq_self]

theorem spanCommand_codeStart (t : Text) :
    spanCommand ["texttt".toList] "code".toList (codeStart ++ t) =
      (innermost? ('\x7b' :: t)).map fun (body, behind) => (element "code".toList body, behind) :=
  have apart : ∀ other ∈ ([] : List Text), apart ('\\' :: other) codeStart = true :=
    List.forall_mem_nil _
  spanCommand_command apart _ t

theorem commandless_settled_append (c : Text) {t : Text} (noCommand : commandless t = true) :
    commandless (settled c ++ t) = true :=
  commandless_append (commandless_settled c) noCommand

/-- Without an end of the argument, the command stays. -/
theorem convertEmphasis_code_of_none {t : Text} (noCommand : commandless t = true)
    (unclosed : innermost? ('\x7b' :: t) = none) :
    convertEmphasis (codeStart ++ t) = codeStart ++ t := by
  have found := spanCommand_codeStart t
  rw [unclosed] at found
  have behind : Silent (spanCommand ["texttt".toList] "code".toList) ("texttt\x7b".toList ++ t) :=
    .append (silent_spanCommand (by decide))
      (silent_of_commandless (ledBy_spanCommand _ _) (by decide) noCommand)
  have round : convertInnermost (codeStart ++ t) = codeStart ++ t := by
    rw [convertInnermost_codeStart noCommand]
    exact (substitute_cons_of_none found).trans (congrArg ('\\' :: ·) behind.substitute_eq_self)
  simp only [convertEmphasis, repeated, round]

/-- With an end of the argument, the command becomes an element. -/
theorem convertEmphasis_code {body behind t : Text} (noCommand : commandless t = true)
    (closed : innermost? ('\x7b' :: t) = some (body, behind))
    (still : commandless (element "code".toList body ++ behind) = true) :
    convertEmphasis (codeStart ++ t) = element "code".toList body ++ behind := by
  have found := spanCommand_codeStart t
  rw [closed] at found
  have whole := (List.cons.inj (innermost?_eq_some closed)).2
  have part : behind <:+ "texttt\x7b".toList ++ t := by
    rw [whole]
    exact ⟨"texttt\x7b".toList ++ (body ++ ['\x7d']), by simp⟩
  have later : Silent (spanCommand ["texttt".toList] "code".toList) behind := by
    refine (silent_of_commandless (s := t) (ledBy_spanCommand _ _) (by decide)
      noCommand).of_isSuffix ?_
    rw [whole]
    exact ⟨body ++ ['\x7d'], by simp⟩
  have round : convertInnermost (codeStart ++ t) = element "code".toList body ++ behind := by
    rw [convertInnermost_codeStart noCommand]
    exact (substitute_cons_of_some found part).trans (congrArg (_ ++ ·) later.substitute_eq_self)
  have rounds :
      convertInnermost (element "code".toList body ++ behind) =
        element "code".toList body ++ behind :=
    eq_of_append (convertInnermost_append still) rfl
  simp only [convertEmphasis, repeated, round, rounds]

/-! ## What comes out -/

/-- The ends of an element of code: an escaped closing brace leaves its backslash. -/
def codeEnds : List Text := [closeTag "code".toList, '\\' :: closeTag "code".toList]

/-- What may stand behind an element of code: the brace that should have ended the argument. -/
def codeTails : List Text := [[], ['\x7d']]

section Finish

variable {ending tail : Text}

theorem commandless_element (isEnding : ending ∈ codeEnds) (isTail : tail ∈ codeTails)
    (x y : Text) :
    commandless
      (openTag "code".toList ++ (settled x ++ (ending ++ (settled y ++ tail)))) = true := by
  have ends : ∀ ending ∈ codeEnds, commandless ending = true := by decide
  have tails : ∀ tail ∈ codeTails, commandless tail = true := by decide
  have start : commandless (openTag "code".toList) = true := by decide
  exact commandless_append start (commandless_settled_append x
    (commandless_append (ends ending isEnding) (commandless_settled_append y (tails tail isTail))))

/-- The tags of code stay, and the code in them is shown. -/
theorem finish_element (isEnding : ending ∈ codeEnds) (isTail : tail ∈ codeTails) (x y : Text) :
    resolveEscapes (dropGroupBraces (dropCommands
        (openTag "code".toList ++ (settled x ++ (ending ++ (settled y ++ tail)))))) =
      openTag "code".toList ++ (shown x ++ (ending ++ shown y)) := by
  have dropped := dropCommands_of_commandless (commandless_element isEnding isTail x y)
  have quiet : ∀ ending ∈ codeEnds, ungrouped false ending = true := by decide
  have start : ungrouped false (openTag "code".toList) = true := by decide
  have gone : ∀ tail ∈ codeTails, dropGroupBraces tail = [] := by decide
  have reads : ∀ part ∈ openTag "code".toList :: codeEnds, Reads escapes part part := by decide
  rw [List.forall_mem_cons] at reads
  have last : resolveEscapes (settled y ++ []) = shown y := by
    rw [resolveEscapes_settled_append]
    exact List.append_nil _
  rw [dropped, dropGroupBraces_append start, dropGroupBraces_settled_append,
    dropGroupBraces_append (quiet ending isEnding), dropGroupBraces_settled_append,
    gone tail isTail, resolveEscapes_append reads.1, resolveEscapes_settled_append,
    resolveEscapes_append (reads.2 ending isEnding), last]

/-- What is found at the front goes. -/
theorem remove_append_of_some {look : Text → Option Text} {word rest : Text}
    (found : look (word ++ rest) = some rest) (nonempty : word ≠ []) :
    remove look (word ++ rest) = remove look rest := by
  refine (substitute_append_of_some ?_ nonempty).trans (List.nil_append _)
  rw [found]
  rfl

/-- The command of code goes when its argument has no end. -/
theorem finish_codeStart {c : Text}
    (unclosed : innermost? ('\x7b' :: (settled c ++ ['\x7d'])) = none) :
    resolveEscapes (dropGroupBraces (dropCommands (settledCode c))) = shown c := by
  have still : commandless (settled c ++ ['\x7d']) = true :=
    commandless_settled_append c (by decide)
  have layout : ∀ literal ∈ layoutStarts, Silent (skip? literal) (settledCode c) := by
    intro literal member
    have apart : ∀ literal ∈ layoutStarts, avoids literal codeStart = true := by decide
    exact (silent_skip (apart literal member)).append (silent_layoutStarts still literal member)
  have behind : Silent dropsArgument ("texttt\x7b".toList ++ (settled c ++ ['\x7d'])) :=
    silent_dropsArgument (commandless_append (by decide) still)
  have argued : remove commandWithArgument? (settledCode c) = settledCode c := by
    have known : "texttt".toList ∈ Inline.styleNames := by decide
    have looked := dropsArgument_style known (settled c ++ ['\x7d'])
    rw [unclosed] at looked
    exact (substitute_cons_of_none looked).trans (congrArg ('\\' :: ·) behind.substitute_eq_self)
  have bare : Silent commandName? ('\x7b' :: (settled c ++ ['\x7d'])) :=
    silent_commandName (commandless_append (s := ['\x7b']) (by decide) still)
  have named : remove commandName? (settledCode c) = '\x7b' :: (settled c ++ ['\x7d']) := by
    have found : commandName? ("\\texttt".toList ++ '\x7b' :: (settled c ++ ['\x7d'])) =
        some ('\x7b' :: (settled c ++ ['\x7d'])) := rfl
    exact (remove_append_of_some found (by decide)).trans (bare.map _).substitute_eq_self
  have ungrouped : dropGroupBraces ('\x7b' :: (settled c ++ ['\x7d'])) = settled c := by
    have inner := dropGroupBraces_settled_append c ['\x7d']
    exact inner.trans (List.append_nil _)
  rw [dropCommands_eq layout, argued, named, ungrouped]
  exact eq_of_append (resolveEscapes_settled_append c) rfl

end Finish

/-! ## Code without braces, and with -/

/-- Text that may stand between backquotes: it is not empty, in one line, and nothing in it is taken
for something else before it is formatted or converted. -/
structure IsCode (c : Text) : Prop where
  nonempty : c ≠ []
  unquoted : Inline.backquote ∉ c
  oneLine : '\n' ∉ c
  unsanitized : ∀ d ∈ c, Inline.isSanitized d = false
  notFragile : ¬ "[fragile]".toList <:+: c

/-- What the exporter makes of a text between backquotes. -/
def exported (c : Text) : Text :=
  fragment (Inline.format (Inline.backquote :: (c ++ [Inline.backquote])))

section Code

variable {c x y : Text}

theorem replace_fragile_command {s : Text} (kept : replace "[fragile]".toList [] s = s) :
    replace "[fragile]".toList [] (command "texttt".toList s) = command "texttt".toList s := by
  have start : avoids "[fragile]".toList codeStart = true := by decide
  have ends :
      replace "[fragile]".toList [] (s ++ ['\x7d']) = replace "[fragile]".toList [] s ++ ['\x7d'] :=
    replace_append_cons (by decide) [] s []
  have whole : command "texttt".toList s = codeStart ++ (s ++ ['\x7d']) := rfl
  rw [whole, replace_append_of_avoids start, ends, kept]

theorem exported_eq (code : IsCode c) :
    exported c = trim (collapseGaps (resolveEscapes (dropGroupBraces (dropCommands
      (convertEmphasis (settledCode c)))))) := by
  have formatted : Inline.Formatted 0 (command "texttt".toList (escape c)) 0 :=
    (Inline.formatted_escape c 0).style (by decide)
  have oneLine : '\n' ∉ command "texttt".toList (escape c) :=
    Inline.not_mem_style (by decide) (by decide) (Inline.not_mem_escape (by decide) code.oneLine)
  have kept : replace "[fragile]".toList [] (escape c) = escape c := by
    rw [replace_fragile_escape, replace_eq_self [] code.notFragile]
  rw [exported, Inline.format_code code.nonempty code.unquoted code.unsanitized,
    fragment_line formatted oneLine (replace_fragile_command kept), emphasized, convertSymbols_code]

/-- **Code without braces** is the text of an element. -/
theorem exported_of_braceless (code : IsCode c) (braceless : ∀ d ∈ c, isBrace d = false) :
    exported c = element "code".toList (shown c) := by
  have isEnding : closeTag "code".toList ∈ codeEnds := List.mem_cons_self
  have isTail : [] ∈ codeTails := List.mem_cons_self
  have whole : element "code".toList (settled c) ++ [] =
      openTag "code".toList ++ (settled c ++ (closeTag "code".toList ++ (settled [] ++ []))) := by
    simp [element, settled]
  have emphasized := convertEmphasis_code (commandless_settled_append c (by decide))
    (innermost?_settled braceless) (whole ▸ commandless_element isEnding isTail c [])
  have oneLine : '\n' ∉ element "code".toList (shown c) := by
    simp only [element, List.mem_append, not_or]
    exact ⟨⟨by decide, newline_not_mem_shown code.oneLine⟩, by decide⟩
  have finished := finish_element isEnding isTail c []
  rw [← whole, ← emphasized] at finished
  have shape : openTag "code".toList ++ (shown c ++ (closeTag "code".toList ++ shown [])) =
      element "code".toList (shown c) := by
    simp [element, shown]
  rw [shape] at finished
  have between : trim (element "code".toList (shown c)) = element "code".toList (shown c) := by
    have ends : element "code".toList (shown c) =
        '<' :: ("code>".toList ++ shown c ++ "</code".toList ++ ['>']) := by
      simp [element, openTag, closeTag]
    rw [ends]
    exact trim_between (by decide) (by decide) _
  rw [exported_eq code, settledCode, finished, collapseGaps_of_not_mem oneLine, between]

/-- Code in which an opening brace comes first is shown as text. -/
theorem exported_of_opening (code : IsCode (x ++ '\x7b' :: y))
    (braceless : ∀ d ∈ x, isBrace d = false) :
    exported (x ++ '\x7b' :: y) = trim (shown (x ++ '\x7b' :: y)) := by
  have unclosed := innermost?_settled_opening braceless y
  have emphasized := convertEmphasis_code_of_none
    (commandless_settled_append (x ++ '\x7b' :: y) (by decide)) unclosed
  rw [exported_eq code, settledCode, emphasized]
  exact congrArg trim ((congrArg collapseGaps (finish_codeStart unclosed)).trans
    (collapseGaps_of_not_mem (newline_not_mem_shown code.oneLine)))

/-- Code in which a closing brace comes first loses it, and is no code behind it. -/
theorem exported_of_closing (code : IsCode (x ++ '\x7d' :: y))
    (braceless : ∀ d ∈ x, isBrace d = false) :
    exported (x ++ '\x7d' :: y) =
      trim (openTag "code".toList ++ (shown x ++ ('\\' :: closeTag "code".toList ++ shown y))) := by
  have isEnding : '\\' :: closeTag "code".toList ∈ codeEnds :=
    List.mem_cons_of_mem _ List.mem_cons_self
  have isTail : ['\x7d'] ∈ codeTails := List.mem_cons_of_mem _ List.mem_cons_self
  have whole : element "code".toList (settled x ++ ['\\']) ++ (settled y ++ ['\x7d']) =
      openTag "code".toList ++
        (settled x ++ ('\\' :: closeTag "code".toList ++ (settled y ++ ['\x7d']))) := by
    simp [element]
  have emphasized :=
    convertEmphasis_code (commandless_settled_append (x ++ '\x7d' :: y) (by decide))
    (innermost?_settled_closing braceless y) (whole ▸ commandless_element isEnding isTail x y)
  have finished := finish_element isEnding isTail x y
  rw [← whole, ← emphasized] at finished
  have oneLine : '\n' ∉ x ∧ '\n' ∉ '\x7d' :: y := by simpa using code.oneLine
  have still :
      '\n' ∉ openTag "code".toList ++ (shown x ++ ('\\' :: closeTag "code".toList ++ shown y)) := by
    simp only [List.mem_append, not_or]
    exact ⟨by decide, newline_not_mem_shown oneLine.1, by decide,
      newline_not_mem_shown fun inside => oneLine.2 (List.mem_cons_of_mem _ inside)⟩
  rw [exported_eq code, settledCode, finished, collapseGaps_of_not_mem still]

/-- **Inline code is the text of an element exactly when it holds no braces.** -/
theorem exported_eq_element_iff (code : IsCode c) :
    exported c = element "code".toList (shown c) ↔ ∀ d ∈ c, isBrace d = false := by
  refine ⟨fun same => ?_, exported_of_braceless code⟩
  rcases exists_first_brace c with braceless | ⟨x, b, y, rfl, braceless, brace⟩
  · exact braceless
  · simp only [isBrace, Bool.or_eq_true, beq_iff_eq] at brace
    rcases brace with rfl | rfl
    · -- There is no tag.
      rw [exported_of_opening code braceless] at same
      have member : '<' ∈ trim (shown (x ++ '\x7b' :: y)) := same ▸ List.mem_cons_self
      rcases mem_shown (mem_of_mem_trim member) with fixed | ⟨-, plain⟩
      · exact absurd fixed (by decide)
      · exact absurd (by decide) plain
    · -- There is a backslash, which is never shown as itself.
      rw [exported_of_closing code braceless] at same
      have visible : isBlank '\\' = false := by decide
      have member : '\\' ∈ element "code".toList (shown (x ++ '\x7d' :: y)) :=
        same ▸ mem_trim visible (by simp)
      simp only [element, List.mem_append] at member
      rcases member with (start | inside) | ends
      · exact absurd start (by decide)
      · rcases mem_shown inside with fixed | ⟨-, plain⟩
        · exact absurd fixed (by decide)
        · exact absurd (by decide) plain
      · exact absurd ends (by decide)

end Code

theorem exported_eq_element_iff_specials :
    IsCode "a_b\\c <d> & [e] 5%".toList ∧ exported "a_b\\c <d> & [e] 5%".toList =
      "<code>a_b&#92;c &lt;d&gt; &amp; [e] 5%</code>".toList := by
  have code : IsCode "a_b\\c <d> & [e] 5%".toList :=
    ⟨by decide, by decide, by decide, by decide, by decide⟩
  have shows : element "code".toList (shown "a_b\\c <d> & [e] 5%".toList) =
      "<code>a_b&#92;c &lt;d&gt; &amp; [e] 5%</code>".toList := by decide
  exact ⟨code, ((exported_eq_element_iff code).mpr (by decide)).trans shows⟩

/-- A brace alone is no code on the page, and a closing one is lost. -/
theorem exported_brace :
    (IsCode "\x7b".toList ∧ exported "\x7b".toList = "\x7b".toList ∧
      element "code".toList (shown "\x7b".toList) = "<code>\x7b</code>".toList) ∧
    (IsCode "a\x7db".toList ∧ exported "a\x7db".toList = "<code>a\\</code>b".toList ∧
      element "code".toList (shown "a\x7db".toList) = "<code>a\x7db</code>".toList) :=
  ⟨⟨⟨by decide, by decide, by decide, by decide, by decide⟩, by decide +kernel, by decide⟩,
    ⟨by decide, by decide, by decide, by decide, by decide⟩, by decide +kernel, by decide⟩

end Html

end SlideDeck
