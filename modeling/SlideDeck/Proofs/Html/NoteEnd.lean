import SlideDeck.Html.Deck
import SlideDeck.Proofs.Html.Emphasis
import SlideDeck.Proofs.Latex.Depth
import SlideDeck.Proofs.Latex.Escaping
import SlideDeck.Proofs.Text.Lines

/-!
# Where a note ends

The note behind a frame ends at the closing brace that has no partner in it. The reader of decks
does not count a brace with a backslash directly before it, so the braces that it counts in the text
of a note are its *bare* ones (`bareBraces`). It reads the text as the note just if these are
balanced and the text does not end in a backslash, which would hide the closing brace
(`notes_eq_iff`). Otherwise it stops before or goes on behind, and then the page shows another text:
converting bold commands never makes two texts the same of which one is a proper beginning of the
other (`length_convertBold_lt`).

The check of braces counts the backslashes instead, and does not count a brace behind an odd number
of them. The two agree as long as no brace stands behind two backslashes (`bracesOf_lines_eq`). At
the end of a line, or of a note, they do not: the backslashes that break a line hide the brace
behind them (`notes_ne_of_break`).
-/

set_option autoImplicit false

namespace SlideDeck.Deck

open SlideDeck SlideDeck.Text SlideDeck.Latex

/-! ## Bare braces -/

/-- The braces of a text without a backslash directly before them; `escaped` tells whether one
stands before the text. -/
def bareBracesFrom (escaped : Bool) : Text → List Brace
  | [] => []
  | c :: cs =>
    let rest := bareBracesFrom (c == '\\') cs
    if escaped then rest
    else if c = '\x7b' then .opening :: rest
    else if c = '\x7d' then .closing :: rest
    else rest

/-- The braces of a text without a backslash directly before them. -/
def bareBraces (s : Text) : List Brace := bareBracesFrom false s

/-- Whether a backslash stands directly behind the text, or before it if there is none. -/
def slashed (escaped : Bool) (s : Text) : Bool := s.getLast?.elim escaped (· == '\\')

theorem slashed_cons (escaped : Bool) (c : Char) (s : Text) :
    slashed escaped (c :: s) = slashed (c == '\\') s := by
  rw [slashed, slashed, List.getLast?_cons]
  cases s.getLast? <;> rfl

/-- The reader goes through a text whose bare braces lead from one depth to another. -/
theorem balancedFrom_append {escaped : Bool} {depth last : Nat} {note : Text}
    (leads : depthAfter depth (bareBracesFrom escaped note) = some last) (t : Text) :
    balancedFrom escaped depth (note ++ t) =
      (balancedFrom (slashed escaped note) last t).map (note ++ ·) := by
  induction note generalizing escaped depth with
  | nil =>
      cases leads
      exact (Option.map_id' ..).symm
  | cons c note ih =>
      rw [slashed_cons]
      have goesOn : depthAfter depth (bareBracesFrom (c == '\\') note) = some last →
          (balancedFrom (c == '\\') depth (note ++ t)).map (c :: ·) =
            (balancedFrom (slashed (c == '\\') note) last t).map (c :: note ++ ·) := by
        intro leads
        rw [ih leads, Option.map_map]
        rfl
      cases escaped with
      | true => simpa [balancedFrom] using goesOn leads
      | false =>
          by_cases opening : c = '\x7b'
          · subst opening
            have leads : depthAfter (depth + 1) (bareBracesFrom false note) = some last := leads
            have here : balancedFrom false depth ('\x7b' :: (note ++ t)) =
                (balancedFrom false (depth + 1) (note ++ t)).map ('\x7b' :: ·) := rfl
            rw [List.cons_append, here, ih leads, Option.map_map]
            rfl
          · by_cases closing : c = '\x7d'
            · subst closing
              cases depth with
              | zero => cases leads
              | succ depth =>
                  have leads : depthAfter depth (bareBracesFrom false note) = some last := leads
                  have here : balancedFrom false (depth + 1) ('\x7d' :: (note ++ t)) =
                      (balancedFrom false depth (note ++ t)).map ('\x7d' :: ·) := rfl
                  rw [List.cons_append, here, ih leads, Option.map_map]
                  rfl
            · have leads : depthAfter depth (bareBracesFrom (c == '\\') note) = some last := by
                simpa [bareBracesFrom, opening, closing] using leads
              simpa [balancedFrom, opening, closing] using goesOn leads

/-- Where the bare braces of a text fall below the outermost level, the reader stops. -/
theorem balancedFrom_of_none {escaped : Bool} {depth : Nat} {note : Text}
    (falls : depthAfter depth (bareBracesFrom escaped note) = none) (t : Text) :
    ∃ read more, note = read ++ '\x7d' :: more ∧
      balancedFrom escaped depth (note ++ t) = some read := by
  induction note generalizing escaped depth with
  | nil => cases falls
  | cons c note ih =>
      have goesOn : ∀ (escaped' : Bool) (depth' : Nat),
          depthAfter depth' (bareBracesFrom escaped' note) = none →
          balancedFrom escaped depth (c :: (note ++ t)) =
            (balancedFrom escaped' depth' (note ++ t)).map (c :: ·) →
          ∃ read more, c :: note = read ++ '\x7d' :: more ∧
            balancedFrom escaped depth (c :: note ++ t) = some read := by
        intro _ _ falls here
        obtain ⟨read, more, whole, same⟩ := ih falls
        exact ⟨c :: read, more, congrArg (c :: ·) whole, by rw [List.cons_append, here, same]; rfl⟩
      cases escaped with
      | true =>
          exact goesOn (c == '\\') depth falls (by simp [balancedFrom])
      | false =>
          by_cases opening : c = '\x7b'
          · subst opening
            exact goesOn false (depth + 1) falls rfl
          · by_cases closing : c = '\x7d'
            · subst closing
              cases depth with
              | zero => exact ⟨[], note, rfl, rfl⟩
              | succ depth => exact goesOn false depth falls rfl
            · have later : depthAfter depth (bareBracesFrom (c == '\\') note) = none := by
                simpa [bareBracesFrom, opening, closing] using falls
              exact goesOn _ depth later (by simp [balancedFrom, opening, closing])

/-- A closing brace that is hidden, or that has a partner, is passed. -/
theorem closing_passed {escaped : Bool} {depth : Nat} (counts : ¬ (depth = 0 ∧ escaped = false))
    {rest read : Text} (passed : balancedFrom escaped depth ('\x7d' :: rest) = some read) :
    ∃ more, read = '\x7d' :: more := by
  have step : ∃ inner, balancedFrom escaped depth ('\x7d' :: rest) =
      (balancedFrom false inner rest).map ('\x7d' :: ·) := by
    cases escaped with
    | true => exact ⟨depth, by simp [balancedFrom]⟩
    | false =>
        cases depth with
        | zero => exact absurd ⟨rfl, rfl⟩ counts
        | succ depth => exact ⟨depth, rfl⟩
  obtain ⟨inner, same⟩ := step
  rw [same] at passed
  obtain ⟨more, -, rfl⟩ := Option.map_eq_some_iff.mp passed
  exact ⟨more, rfl⟩

/-- The reader reads a text in braces as it is, just if its bare braces are balanced and no
backslash hides the closing one. Otherwise it stops in front of it or goes on behind it. -/
theorem balancedFrom_closing (note rest : Text) :
    (Balanced (bareBraces note) ∧ slashed false note = false ∧
        balancedFrom false 0 (note ++ '\x7d' :: rest) = some note) ∨
      (¬ (Balanced (bareBraces note) ∧ slashed false note = false) ∧
        ∀ read, balancedFrom false 0 (note ++ '\x7d' :: rest) = some read →
          (∃ more, note = read ++ '\x7d' :: more) ∨ ∃ more, read = note ++ '\x7d' :: more) := by
  cases ends : depthAfter 0 (bareBraces note) with
  | none =>
      obtain ⟨stopped, more, whole, same⟩ := balancedFrom_of_none ends ('\x7d' :: rest)
      refine .inr ⟨fun both => ?_, fun read found => .inl ?_⟩
      · have balanced := both.1
        rw [Latex.Balanced, ends] at balanced
        cases balanced
      · rw [same] at found
        cases found
        exact ⟨more, whole⟩
  | some last =>
      have through := balancedFrom_append ends ('\x7d' :: rest)
      by_cases closes : last = 0 ∧ slashed false note = false
      · obtain ⟨rfl, open_⟩ := closes
        refine .inl ⟨ends, open_, ?_⟩
        rw [through, open_]
        exact congrArg some (List.append_nil note)
      · refine .inr ⟨fun both => closes ⟨?_, both.2⟩, fun read found => .inr ?_⟩
        · have balanced := both.1
          rw [Latex.Balanced, ends] at balanced
          exact Option.some.inj balanced
        · rw [through] at found
          obtain ⟨behind, passed, rfl⟩ := Option.map_eq_some_iff.mp found
          obtain ⟨more, rfl⟩ := closing_passed closes passed
          exact ⟨more, rfl⟩

/-! ## Other texts, other pages -/

/-- A visible character behind a text is not trimmed away. -/
theorem exists_trim_append_cons {c : Char} (visible : isBlank c = false) (s t : Text) :
    ∃ d rest, trim (s ++ c :: t) = trim s ++ d :: rest := by
  by_cases blank : trimStart s = []
  · refine ⟨c, trimEnd t, ?_⟩
    rw [trim, trim, trimStart_append_of_eq_nil blank, trimStart_cons visible,
      trimEnd_cons visible, blank]
    rfl
  · obtain ⟨blanks, whole, -⟩ := exists_blanks_trimEnd (trimStart s)
    have kept : trimEnd (c :: t) ≠ [] := by simp [trimEnd_cons visible]
    have parts : trim (s ++ c :: t) = trim s ++ (blanks ++ c :: trimEnd t) := by
      rw [trim, trimStart_append blank, trimEnd_append_of_ne_nil _ kept, trimEnd_cons visible, trim,
        ← List.append_assoc, ← whole]
    obtain ⟨d, rest, same⟩ :=
      List.exists_cons_of_ne_nil (List.append_ne_nil_of_right_ne_nil blanks
        (List.cons_ne_nil c (trimEnd t)))
    exact ⟨d, rest, by rw [parts, same]⟩

section Bold

variable {s t : Text}

/-- What a bold command begins with. -/
def boldStart : Text := '\\' :: ("textbf".toList ++ ['\x7b'])

/-- The parts of a bold command. -/
theorem bold_eq_some {written rest : Text}
    (matched : Html.spanCommand ["textbf".toList] "strong".toList s = some (written, rest)) :
    ∃ body, s = boldStart ++ (body ++ '\x7d' :: rest) ∧ ∀ c ∈ body, Html.isBrace c = false := by
  obtain ⟨name, known, argument, body, skipped, inner, -⟩ := Html.spanCommand_eq_some matched
  rw [List.mem_singleton.mp known] at skipped
  refine ⟨body, ?_, Html.isBrace_of_innermost? inner⟩
  rw [skip?_eq_some_iff.mp skipped, Html.innermost?_eq_some inner, boldStart]
  simp only [List.cons_append, List.append_assoc, List.nil_append]

theorem spanCommand_bold {body : Text} (noBrace : ∀ c ∈ body, Html.isBrace c = false)
    (rest : Text) :
    Html.spanCommand ["textbf".toList] "strong".toList (boldStart ++ (body ++ '\x7d' :: rest)) =
      some (Html.element "strong".toList body, rest) := by
  have inner : Html.innermost? ('\x7b' :: '\x7d' :: rest) = some ([], rest) := rfl
  rw [boldStart, Html.spanCommand_command (List.forall_mem_nil _), Html.innermost?_append noBrace,
    inner]
  exact congrArg (fun body => some (Html.element "strong".toList body, rest)) (List.append_nil body)

/-- A bold command becomes an element. -/
theorem convertBold_command {body : Text} (noBrace : ∀ c ∈ body, Html.isBrace c = false)
    (rest : Text) :
    Html.convertBold (boldStart ++ (body ++ '\x7d' :: rest)) =
      Html.element "strong".toList body ++ Html.convertBold rest := by
  have whole : boldStart ++ (body ++ '\x7d' :: rest) = boldStart ++ (body ++ ['\x7d']) ++ rest := by
    simp only [List.append_assoc, List.singleton_append]
  have found := spanCommand_bold noBrace rest
  rw [whole] at found ⊢
  exact substitute_append_of_some found (List.cons_ne_nil _ _)

theorem length_boldStart : boldStart.length = 8 := rfl

theorem length_element_strong (body : Text) :
    (Html.element "strong".toList body).length = body.length + 17 := by
  have opening : (Html.openTag "strong".toList).length = 8 := rfl
  have closing : (Html.closeTag "strong".toList).length = 9 := rfl
  rw [Html.element, List.length_append, List.length_append, opening, closing]
  omega

/-- Converting makes no text shorter. -/
theorem length_le_convertBold (s : Text) : s.length ≤ (Html.convertBold s).length := by
  induction s using pass_induction (Html.spanCommand ["textbf".toList] "strong".toList) with
  | nil => exact Nat.zero_le _
  | quiet c s unmatched ih =>
      rw [Html.convertBold, substitute_cons_of_none unmatched]
      exact Nat.succ_le_succ ih
  | found c s written rest found ih =>
      obtain ⟨body, whole, noBrace⟩ := bold_eq_some found
      have later := ih ((Html.keeps_spanCommand (by decide) (by decide)).isSuffix found)
      rw [whole, convertBold_command noBrace]
      simp only [List.length_append, List.length_cons, length_boldStart, length_element_strong]
      omega

/-- A text without closing braces holds no command. -/
theorem convertBold_eq_self (noClosing : '\x7d' ∉ s) : Html.convertBold s = s := by
  refine substitute_eq_self fun c cs part => ?_
  cases matched : Html.spanCommand ["textbf".toList] "strong".toList (c :: cs) with
  | none => rfl
  | some found =>
      obtain ⟨body, whole, -⟩ := bold_eq_some matched
      exact absurd (part.subset (by rw [whole]; simp)) noClosing

/-- A command that is found only with more behind the text reaches beyond the end of the text. -/
theorem exists_beyond_of_bold {t body rest : Text} (noBrace : ∀ c ∈ body, Html.isBrace c = false)
    (whole : s ++ t = boldStart ++ (body ++ '\x7d' :: rest))
    (quiet : Html.spanCommand ["textbf".toList] "strong".toList s = none) :
    ∃ behind, boldStart ++ body = s ++ behind := by
  rw [← List.append_assoc] at whole
  rcases List.append_eq_append_iff.mp whole with ⟨behind, same, -⟩ | ⟨between, same, rest⟩
  · exact ⟨behind, same⟩
  · cases between with
    | nil => exact ⟨[], by rw [same]; simp⟩
    | cons e between =>
        obtain ⟨rfl, -⟩ := List.cons.inj rest
        rw [same, List.append_assoc, spanCommand_bold noBrace] at quiet
        cases quiet

/-- **Converting keeps proper beginnings shorter.** A command in the beginning is passed as a whole;
one that goes beyond the end of the beginning leaves that as it is. -/
theorem length_convertBold_lt (s : Text) (c : Char) (t : Text) :
    (Html.convertBold s).length < (Html.convertBold (s ++ c :: t)).length := by
  induction s using pass_induction (Html.spanCommand ["textbf".toList] "strong".toList) with
  | nil => exact Nat.lt_of_lt_of_le (Nat.succ_pos t.length) (length_le_convertBold (c :: t))
  | found d s written rest found ih =>
      have later := ih ((Html.keeps_spanCommand (by decide) (by decide)).isSuffix found)
      obtain ⟨body, whole, noBrace⟩ := bold_eq_some found
      have longer : d :: s ++ c :: t = boldStart ++ (body ++ '\x7d' :: (rest ++ c :: t)) := by
        rw [whole]
        simp only [List.append_assoc, List.cons_append]
      rw [longer, whole, convertBold_command noBrace, convertBold_command noBrace,
        List.length_append, List.length_append]
      omega
  | quiet d s unmatched ih =>
      cases longer : Html.spanCommand ["textbf".toList] "strong".toList (d :: s ++ c :: t) with
      | none =>
          rw [List.cons_append] at longer ⊢
          rw [Html.convertBold, Html.convertBold, substitute_cons_of_none unmatched,
            substitute_cons_of_none longer]
          exact Nat.succ_lt_succ ih
      | some found =>
          obtain ⟨body, whole, noBrace⟩ := bold_eq_some longer
          obtain ⟨behind, same⟩ := exists_beyond_of_bold noBrace whole unmatched
          have noClosing : '\x7d' ∉ boldStart ++ body := by
            rw [List.mem_append, not_or]
            exact ⟨by decide, fun member => absurd (noBrace _ member) (by decide)⟩
          have alone : Html.convertBold (d :: s) = d :: s := convertBold_eq_self fun member =>
            noClosing (same ▸ List.mem_append_left behind member)
          have shorter := congrArg List.length same
          simp only [List.length_append, length_boldStart] at shorter
          rw [alone, whole, convertBold_command noBrace, List.length_append, length_element_strong]
          omega

end Bold

/-! ## Counted backslashes -/

/-- No brace stands behind two backslashes. -/
def Undoubled (s : Text) : Prop :=
  ∀ brace ∈ ['\x7b', '\x7d'], ¬ ['\\', '\\', brace] <:+: s

instance (s : Text) : Decidable (Undoubled s) :=
  decidable_of_iff (∀ brace ∈ ['\x7b', '\x7d'], includes ['\\', '\\', brace] s = false)
    (forall₂_congr fun brace _ => by rw [← includes_iff, Bool.not_eq_true])

theorem Undoubled.of_isInfix {s t : Text} (undoubled : Undoubled s) (part : t <:+: s) :
    Undoubled t :=
  fun brace member occurs => undoubled brace member (occurs.trans part)

theorem bareBracesFrom_cons (escaped : Bool) (c : Char) (s : Text) :
    bareBracesFrom escaped (c :: s) =
      (if escaped then none else Brace.of? c).toList ++ bareBracesFrom (c == '\\') s := by
  rw [bareBracesFrom, Brace.of?]
  split
  · rfl
  · split
    · rfl
    · split <;> rfl

theorem bracesFrom_cons (escaped : Bool) (c : Char) (s : Text) :
    bracesFrom escaped (c :: s) =
      (if escaped then none else Brace.of? c).toList ++ bracesFrom (escapesNext escaped c) s := by
  rw [bracesFrom, Brace.of?]
  split
  · rfl
  · split
    · rfl
    · split <;> rfl

/-- The text with the backslash that stands before it. -/
def behindSlash (behind : Bool) (s : Text) : Text := if behind then '\\' :: s else s

/-- On a line without braces behind two backslashes the two ways to read escapes find the same
braces. They differ about a character behind an even number of backslashes, and there stands no
brace. -/
theorem bracesFrom_eq_bareBracesFrom {escaped behind : Bool} {s : Text}
    (undoubled : Undoubled (behindSlash behind s))
    (state : escaped = behind ∨
      escaped = false ∧ behind = true ∧ ∀ c ∈ s.head?, Brace.of? c = none) :
    bracesFrom escaped s = bareBracesFrom behind s := by
  induction s generalizing escaped behind with
  | nil => rfl
  | cons c s ih =>
      have part : behindSlash (c == '\\') s <:+ behindSlash behind (c :: s) := by
        have whole : c :: s <:+ behindSlash behind (c :: s) := by
          cases behind with
          | true => exact List.suffix_cons _ _
          | false => exact List.suffix_rfl
        refine List.IsSuffix.trans ?_ whole
        by_cases slash : c = '\\'
        · subst slash
          exact List.suffix_rfl
        · rw [beq_eq_false_iff_ne.mpr slash]
          exact List.suffix_cons _ _
      have onward := undoubled.of_isInfix part.isInfix
      rw [bracesFrom_cons, bareBracesFrom_cons]
      rcases state with rfl | ⟨rfl, rfl, braceless⟩
      · refine congrArg (_ ++ ·) (ih onward ?_)
        cases escaped with
        | false => exact .inl (Bool.and_true _)
        | true =>
            have unescaped : escapesNext true c = false := Bool.and_false _
            rw [unescaped]
            cases slash : c == '\\' with
            | false => exact .inl rfl
            | true =>
                refine .inr ⟨rfl, rfl, fun d first => ?_⟩
                obtain ⟨rest, rfl⟩ := List.head?_eq_some_iff.mp first
                obtain rfl := beq_iff_eq.mp slash
                have begins : ∀ brace ∈ ['\x7b', '\x7d'], d ≠ brace := by
                  rintro brace member rfl
                  exact undoubled d member ⟨[], rest, rfl⟩
                simp only [List.forall_mem_cons] at begins
                rw [Brace.of?, if_neg begins.1, if_neg begins.2.1]
      · have here : Brace.of? c = none := braceless c rfl
        rw [here]
        exact ih onward (.inl (Bool.and_true _))

section Lines

theorem bareBracesFrom_append (escaped : Bool) (s t : Text) :
    bareBracesFrom escaped (s ++ t) =
      bareBracesFrom escaped s ++ bareBracesFrom (slashed escaped s) t := by
  induction s generalizing escaped with
  | nil => rfl
  | cons c s ih =>
      rw [slashed_cons, List.cons_append, bareBracesFrom_cons, bareBracesFrom_cons, ih,
        List.append_assoc]

theorem bareBraces_dropReturn (s : Text) : bareBraces (dropReturn s) = bareBraces s := by
  rcases eq_dropReturn_or s with same | same
  · rw [same]
  · have braceless : ∀ escaped, bareBracesFrom escaped ['\r'] = [] :=
      fun escaped => by cases escaped <;> rfl
    rw [← congrArg bareBraces same, bareBraces, bareBraces, bareBracesFrom_append, braceless,
      List.append_nil]

/-- The bare braces of a text are those of its pieces between line ends. -/
theorem bareBracesFrom_splitAt {escaped : Bool} {s piece : Text} {pieces : List Text}
    (cut : splitAt '\n' s = piece :: pieces) :
    bareBracesFrom escaped s = bareBracesFrom escaped piece ++ pieces.flatMap bareBraces := by
  induction s generalizing escaped piece pieces with
  | nil =>
      cases cut
      rfl
  | cons c s ih =>
      obtain ⟨first, others, later⟩ := List.exists_cons_of_ne_nil (splitAt_ne_nil '\n' s)
      rw [bareBracesFrom_cons, ih later]
      by_cases newline : c = '\n'
      · subst newline
        have whole : splitAt '\n' ('\n' :: s) = [] :: first :: others := by simp [splitAt, later]
        rw [whole] at cut
        cases cut
        cases escaped <;> rfl
      · have whole : splitAt '\n' (c :: s) = (c :: first) :: others := by
          simp [splitAt, later, newline]
        rw [whole] at cut
        cases cut
        rw [bareBracesFrom_cons, List.append_assoc]

theorem flatMap_linesOfPieces (pieces : List Text) :
    (linesOfPieces pieces).flatMap bareBraces = pieces.flatMap bareBraces := by
  fun_induction linesOfPieces pieces with
  | case1 => rfl
  | case2 last empty =>
      rw [List.isEmpty_iff.mp empty]
      rfl
  | case3 last _ => rfl
  | case4 piece next pieces ih =>
      rw [List.flatMap_cons, List.flatMap_cons, ih, bareBraces_dropReturn]

/-- The bare braces of a text are those of its lines. -/
theorem bareBraces_lines (s : Text) : (lines s).flatMap bareBraces = bareBraces s := by
  obtain ⟨piece, pieces, cut⟩ := List.exists_cons_of_ne_nil (splitAt_ne_nil '\n' s)
  rw [lines, flatMap_linesOfPieces, cut, bareBraces, bareBracesFrom_splitAt cut]
  rfl

end Lines

theorem codeFrom_eq_self {escaped : Bool} {s : Text} (uncommented : '%' ∉ s) :
    codeFrom escaped s = s := by
  induction s generalizing escaped with
  | nil => rfl
  | cons c s ih =>
      rw [List.mem_cons, not_or] at uncommented
      simp [codeFrom, Ne.symm uncommented.1, ih uncommented.2]

/-- **Where the two agree.** In a text without comments and without braces behind two backslashes
the braces that are counted on its lines are the bare ones. -/
theorem bracesOf_lines_eq {note : Text} (uncommented : '%' ∉ note) (undoubled : Undoubled note) :
    ((lines note).flatMap fun line => bracesOf (codeOf line)) = bareBraces note := by
  rw [← bareBraces_lines note]
  refine List.flatMap_congr fun line member => ?_
  have part : line <:+: note := isInfix_of_mem_lines member
  have code : codeOf line = line :=
    codeFrom_eq_self fun percent => uncommented (part.subset percent)
  rw [code, bracesOf, bareBraces]
  exact bracesFrom_eq_bareBracesFrom (undoubled.of_isInfix part) (.inl rfl)

/-! ## The note of a slide -/

section Read

variable {source gap between note rest : Text} {frame : Frame} {i : Nat}

theorem noteStart?_note (blank : ∀ c ∈ gap, isBlank c = true)
    (blank' : ∀ c ∈ between, isBlank c = true)
    (s : Text) :
    noteStart? (gap ++ ("\\note".toList ++ (between ++ '\x7b' :: s))) = some s := by
  have command : "\\note".toList = '\\' :: "note".toList := rfl
  have start : trimStart (gap ++ ("\\note".toList ++ (between ++ '\x7b' :: s))) =
      "\\note".toList ++ (between ++ '\x7b' :: s) := by
    rw [trimStart, List.dropWhile_append_of_pos blank]
    rfl
  have behind : trimStart (between ++ '\x7b' :: s) = '\x7b' :: s := by
    rw [trimStart, List.dropWhile_append_of_pos blank']
    rfl
  rw [noteStart?, start, skip?_eq_some_iff.mpr rfl, Option.bind_some, behind]
  rfl

/-- What a slide has for notes when its frame is followed by one. -/
theorem notes_of_framesOf
    (found : (framesOf source)[i]? = some (frame,
      gap ++ ("\\note".toList ++ (between ++ '\x7b' :: rest))))
    (blank : ∀ c ∈ gap, isBlank c = true) (blank' : ∀ c ∈ between, isBlank c = true) :
    (read source).slides[i]?.bind DeckSlide.notes =
      (balancedFrom false 0 rest).map fun text => noteHtml (trim text) := by
  have slide : (read source).slides[i]? = (framesOf source)[i]?.map fun pair =>
      slideOf pair.1 pair.2 := List.getElem?_map ..
  have notes : ∀ behind, (slideOf frame behind).notes = (note? behind).map noteHtml := fun _ => rfl
  rw [slide, found, Option.map_some, Option.bind_some, notes, note?, noteStart?_note blank blank',
    Option.bind_some, Option.map_map]
  rfl

/-- A text that goes on behind another with a closing brace is shown as a longer one. -/
theorem noteHtml_trim_ne (s t : Text) :
    noteHtml (trim s) ≠ noteHtml (trim (s ++ '\x7d' :: t)) := by
  intro same
  obtain ⟨c, more, longer⟩ := exists_trim_append_cons (show isBlank '\x7d' = false by decide) s t
  have shorter := length_convertBold_lt (trim s) c more
  rw [longer] at same
  exact Nat.lt_irrefl _ (congrArg List.length same ▸ shorter)

/-- **Where the reader finds the end of a note.** -/
theorem notes_eq_iff
    (found : (framesOf source)[i]? =
      some (frame, gap ++ ("\\note".toList ++ (between ++ '\x7b' :: (note ++ '\x7d' :: rest)))))
    (blank : ∀ c ∈ gap, isBlank c = true) (blank' : ∀ c ∈ between, isBlank c = true)
    (uncommented : '%' ∉ note)
    (balanced : Balanced ((lines note).flatMap fun line => bracesOf (codeOf line))) :
    ((read source).slides[i]?.bind DeckSlide.notes = some (noteHtml (trim note)) ↔
        Balanced (bareBraces note) ∧ note.getLast? ≠ some '\\') ∧
      (Undoubled note → note.getLast? ≠ some '\\' →
        (read source).slides[i]?.bind DeckSlide.notes = some (noteHtml (trim note))) := by
  have unslashed : slashed false note = false ↔ note.getLast? ≠ some '\\' := by
    rw [slashed]
    cases note.getLast? <;> simp
  have equal : (read source).slides[i]?.bind DeckSlide.notes = some (noteHtml (trim note)) ↔
      Balanced (bareBraces note) ∧ note.getLast? ≠ some '\\' := by
    rw [notes_of_framesOf found blank blank', ← unslashed]
    rcases balancedFrom_closing note rest with ⟨bare, closes, same⟩ | ⟨other, reads⟩
    · rw [same]
      exact ⟨fun _ => ⟨bare, closes⟩, fun _ => rfl⟩
    · refine ⟨fun shown => ?_, fun both => absurd both other⟩
      obtain ⟨read, passed, same⟩ := Option.map_eq_some_iff.mp shown
      rcases reads read passed with ⟨more, rfl⟩ | ⟨more, rfl⟩
      · exact absurd same (noteHtml_trim_ne read more)
      · exact absurd same.symm (noteHtml_trim_ne note more)
  refine ⟨equal, fun undoubled last => equal.mpr ⟨?_, last⟩⟩
  rw [← bracesOf_lines_eq uncommented undoubled]
  exact balanced

/-- A note with an escaped brace, a bold command and a line break that is not at its end. -/
theorem notes_eq_iff_bold :
    (read ("\\begin\x7bframe\x7d\x7bA\x7d\n\\end\x7bframe\x7d\n\\note ".toList ++
        "\x7ba \\\x7b\\textbf\x7bb\x7d\\\\\nc \x7d".toList)).slides[0]?.bind DeckSlide.notes =
      some (noteHtml "a \\\x7b\\textbf\x7bb\x7d\\\\\nc".toList) := by
  have found : (framesOf ("\\begin\x7bframe\x7d\x7bA\x7d\n\\end\x7bframe\x7d\n\\note ".toList ++
        "\x7ba \\\x7b\\textbf\x7bb\x7d\\\\\nc \x7d".toList))[0]? =
      some (⟨['A'], []⟩, ['\n'] ++ ("\\note".toList ++
        ([' '] ++ '\x7b' :: ("a \\\x7b\\textbf\x7bb\x7d\\\\\nc ".toList ++ '\x7d' :: [])))) := by
    decide +kernel
  exact (notes_eq_iff found (by decide) (by decide) (by decide) (by decide +kernel)).2
    (by decide +kernel) (by decide)

end Read

/-- A note that ends in a line break is not read. -/
theorem notes_ne_of_break :
    ¬ ∀ (source gap between note rest : Text) (frame : Frame) (i : Nat),
      (framesOf source)[i]? =
          some (frame, gap ++ ("\\note".toList ++
            (between ++ '\x7b' :: (note ++ '\x7d' :: rest)))) →
        (∀ c ∈ gap, isBlank c = true) → (∀ c ∈ between, isBlank c = true) → '%' ∉ note →
        Balanced ((lines note).flatMap fun line => bracesOf (codeOf line)) →
        (read source).slides[i]?.bind DeckSlide.notes = some (noteHtml (trim note)) := by
  intro equal
  have same := equal "\\begin\x7bframe\x7d\x7bA\x7d\n\\end\x7bframe\x7d\n\\note\x7ba\\\\\x7d".toList
    ['\n'] [] "a\\\\".toList [] ⟨['A'], []⟩ 0 (by decide +kernel) (by decide)
      (by decide) (by decide)
    (by decide +kernel)
  revert same
  decide +kernel

end SlideDeck.Deck
