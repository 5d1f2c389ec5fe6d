import SlideDeck.Proofs.Html.Entity
import SlideDeck.Proofs.Html.Listing
import SlideDeck.Proofs.Html.Marked
import SlideDeck.Proofs.Text.Trim

/-!
# No markup from outside

The exporter turns the body of a frame into HTML by some twenty conversions over the
whole text. The first of them makes entities of all angle brackets. From then on the
text is marked (`Marked`), and every conversion keeps it so: what it removes, cuts or
puts in never ends inside a tag. In the fragment that comes out, every angle bracket
therefore belongs to a tag that the exporter wrote, whatever the body was
(`fragment_angles_in_tags`).
-/

set_option autoImplicit false

namespace SlideDeck.Html

open SlideDeck SlideDeck.Text

/-! ## Steps over a list -/

/-- A fold keeps a text marked if each of its steps does. -/
theorem Marked.foldl {α : Type} {step : Text → α → Text} {entries : List α}
    (each : ∀ entry ∈ entries, ∀ s, Marked s → Marked (step s entry)) {s : Text}
    (marked : Marked s) : Marked (entries.foldl step s) := by
  induction entries generalizing s with
  | nil => exact marked
  | cons entry entries ih =>
      rw [List.forall_mem_cons] at each
      exact ih each.2 (each.1 s marked)

theorem Marked.unlines {ls : List Text} (each : ∀ line ∈ ls, Marked line) :
    Marked (Text.unlines ls) :=
  join_induction Marked .nil .append (.cons_neutral (by decide) .nil) each

/-! ## Elements and entities -/

theorem Marked.element {name body : Text} (member : name ∈ elementNames) (marked : Marked body) :
    Marked (element name body) :=
  ((Marked.of_tag (.opening member)).append marked).append (.of_tag (.closing member))

theorem Marked.escapeAngles (s : Text) : Marked (escapeAngles s) :=
  .of_plain (angles_not_mem_escapeAngles s).1 (angles_not_mem_escapeAngles s).2

/-- Escaped code has no angle brackets, whatever the code. -/
theorem Marked.escapeCode (s : Text) : Marked (escapeCode s) := by
  refine .of_plain (fun member => ?_) fun member => ?_
  all_goals obtain ⟨c, -, here⟩ := List.mem_flatMap.mp member
  · exact (angles_not_mem_escapeMarkup c).1 here
  · exact (angles_not_mem_escapeMarkup c).2 here

/-! ## Lists -/

theorem Marked.convertEnvironments {s : Text} (marked : Marked s) :
    Marked (convertEnvironments s) := by
  have fits : ∀ names ∈ listEnvironments,
      isHarmless (Latex.beginEnvironment names.1) = true ∧
        isHarmless (Latex.endEnvironment names.1) = true ∧ names.2 ∈ elementNames := by decide
  refine marked.foldl fun names member s marked => ?_
  obtain ⟨begins, ends, known⟩ := fits names member
  exact (marked.replace begins (.of_tag (.opening known))).replace ends (.of_tag (.closing known))

theorem isBlank_less : isBlank '<' = false := by decide

theorem keeps_itemCommand : Keeps itemCommand := by
  intro s replacement rest matched
  obtain ⟨behind, skipped, found⟩ := Option.bind_eq_some_iff.mp matched
  split at found
  · cases found
    obtain ⟨c, cs, rfl, neutral, cut⟩ := keepsRest_skip (by decide) skipped
    exact ⟨c, cs, rfl, neutral, cut.trans (.dropWhile isBlank_less _),
      fun _ => .of_tag (.opening (by decide))⟩
  · cases found

theorem Marked.convertItems {s : Text} (marked : Marked s) : Marked (convertItems s) :=
  marked.substitute keeps_itemCommand

/-- The pieces between neutral characters are marked. -/
theorem Marked.pieces {sep : Char} (neutral : isNeutral sep = true) {pieces : List Text}
    (marked : Marked (join [sep] pieces)) : ∀ piece ∈ pieces, Marked piece := by
  induction pieces with
  | nil => simp
  | cons piece rest ih =>
      cases rest with
      | nil => simpa [join] using marked
      | cons next rest =>
          have marked : Marked (piece ++ sep :: join [sep] (next :: rest)) := by
            simpa [join] using marked
          obtain ⟨first, second⟩ := marked.split neutral
          exact List.forall_mem_cons.mpr ⟨first, ih second⟩

theorem Marked.dropReturn {s : Text} (marked : Marked s) : Marked (dropReturn s) := by
  have front : ∃ used, s = Text.dropReturn s ++ used ∧ '>' ∉ used := by
    clear marked
    fun_induction Text.dropReturn s with
    | case1 => exact ⟨[], rfl, by simp⟩
    | case2 => exact ⟨['\r'], rfl, by decide⟩
    | case3 c cs _ ih =>
        obtain ⟨used, whole, noGreater⟩ := ih
        exact ⟨used, congrArg (c :: ·) whole, noGreater⟩
  obtain ⟨used, whole, noGreater⟩ := front
  rw [whole] at marked
  exact marked.front noGreater

theorem Marked.lines {s : Text} (marked : Marked s) : ∀ line ∈ Text.lines s, Marked line := by
  have pieces := Marked.pieces (by decide) ((join_splitAt '\n' s).symm ▸ marked)
  unfold Text.lines
  generalize Text.splitAt '\n' s = ps at pieces
  fun_induction linesOfPieces ps with
  | case1 => simp
  | case2 => simp
  | case3 last _ => simpa using pieces
  | case4 piece next rest ih =>
      rw [List.forall_mem_cons] at pieces ⊢
      exact ⟨pieces.1.dropReturn, ih pieces.2⟩

theorem ListMark.step_eq (mark : ListMark) (opened : List Bool) :
    (mark.step opened).1 = [] ∨ (mark.step opened).1 = [closeTag "li".toList] := by
  cases mark with
  | opensList => exact .inl rfl
  | item => cases opened with
    | nil => exact .inl rfl
    | cons itemOpen outer => cases itemOpen <;> simp [ListMark.step]
  | closesList => cases opened with
    | nil => exact .inl rfl
    | cons itemOpen outer => cases itemOpen <;> simp [ListMark.step]
  | none => exact .inl rfl

theorem marked_closeItemsFrom {opened : List Bool} {ls : List Text}
    (each : ∀ line ∈ ls, Marked line) : ∀ line ∈ closeItemsFrom opened ls, Marked line := by
  induction ls generalizing opened with
  | nil => simp [closeItemsFrom]
  | cons line rest ih =>
      rw [List.forall_mem_cons] at each
      rw [closeItemsFrom]
      simp only [List.forall_mem_append, List.forall_mem_cons]
      refine ⟨?_, each.1, ih each.2⟩
      rcases (ListMark.of line).step_eq opened with before | before
      · simp [before]
      · simpa [before] using Marked.of_tag (.closing (by decide))

theorem Marked.closeItems {s : Text} (marked : Marked s) : Marked (closeItems s) :=
  .unlines (marked_closeItemsFrom marked.lines)

/-! ## Symbols and emphasis -/

theorem Marked.convertSymbols {s : Text} (marked : Marked s) : Marked (convertSymbols s) := by
  have backslashes : Marked (Text.replace (Latex.symbol "textbackslash".toList) backslash s) :=
    marked.replace (by decide) (.of_plain (by decide) (by decide))
  have tildes := backslashes.replace
    (show isHarmless (Latex.symbol "textasciitilde".toList) = true by decide)
    (show Marked ['~'] from .of_plain (by decide) (by decide))
  exact tildes.replace (by decide) (.of_plain (by decide) (by decide))

/-- What stands between innermost braces, and what stands behind them. -/
theorem innermost?_eq_some {s body behind : Text} (found : innermost? s = some (body, behind)) :
    s = '\x7b' :: (body ++ '\x7d' :: behind) := by
  unfold innermost? at found
  split at found
  · next rest =>
      split at found
      · next behind' ends =>
          cases found
          have whole := List.takeWhile_append_dropWhile (p := fun c => !isBrace c) (l := rest)
          rw [ends] at whole
          rw [whole]
      · cases found
  · cases found

/-- Behind innermost braces. -/
theorem Behind.innermost {s body behind : Text} (found : innermost? s = some (body, behind)) :
    Behind s behind ∧ (Marked s → Marked body) := by
  rw [innermost?_eq_some found]
  refine ⟨⟨?_, fun marked => ?_⟩, fun marked => ?_⟩
  · exact (List.suffix_cons ..).trans
      ((List.suffix_append ..).trans (List.suffix_cons ..))
  · exact ((marked.of_cons_neutral (by decide)).split (by decide)).2
  · exact ((marked.of_cons_neutral (by decide)).split (by decide)).1

/-- The name of a command of emphasis, and its argument between innermost braces. -/
theorem spanCommand_eq_some {names : List Text} {tag s replacement rest : Text}
    (matched : spanCommand names tag s = some (replacement, rest)) :
    ∃ name ∈ names, ∃ argument body, skip? ('\\' :: name) s = some argument ∧
      innermost? argument = some (body, rest) ∧ replacement = element tag body := by
  obtain ⟨name, known, found⟩ := List.exists_of_findSome?_eq_some matched
  obtain ⟨argument, skipped, found⟩ := Option.bind_eq_some_iff.mp found
  obtain ⟨⟨body, behind⟩, inner, same⟩ := Option.map_eq_some_iff.mp found
  cases same
  exact ⟨name, known, argument, body, skipped, inner, rfl⟩

theorem keeps_spanCommand {names : List Text} {tag : Text}
    (harmless : ∀ name ∈ names, isHarmless ('\\' :: name) = true) (member : tag ∈ elementNames) :
    Keeps (spanCommand names tag) := by
  intro s replacement rest matched
  obtain ⟨name, known, argument, body, skipped, inner, rfl⟩ := spanCommand_eq_some matched
  obtain ⟨c, cs, rfl, neutral, cut⟩ := keepsRest_skip (harmless name known) skipped
  obtain ⟨behindCut, bodyMarked⟩ := Behind.innermost inner
  exact ⟨c, cs, rfl, neutral, cut.trans behindCut,
    fun marked => .element member (bodyMarked (cut.marked marked))⟩

theorem Marked.convertBold {s : Text} (marked : Marked s) : Marked (convertBold s) :=
  marked.substitute (keeps_spanCommand (by decide) (by decide))

theorem Marked.convertInnermost {s : Text} (marked : Marked s) : Marked (convertInnermost s) :=
  (marked.convertBold.substitute (keeps_spanCommand (by decide) (by decide))).substitute
    (keeps_spanCommand (by decide) (by decide))

theorem Marked.convertEmphasis {s : Text} (marked : Marked s) : Marked (convertEmphasis s) := by
  unfold Html.convertEmphasis
  generalize 4 = levels
  induction levels generalizing s with
  | zero => exact marked
  | succ levels ih => exact ih marked.convertInnermost

/-- Up to the listings, the text is marked. -/
theorem marked_convertMarkup (s : Text) : Marked (convertMarkup s) := by
  have plain : Marked (Text.replace "[fragile]".toList [] (escapeAngles s)) :=
    (Marked.escapeAngles s).replace (by decide) .nil
  exact plain.convertEnvironments.convertItems.closeItems.convertSymbols.convertEmphasis

/-! ## Listings -/

theorem isLower_toLower {c : Char} (letter : c.isAlpha = true) : c.toLower.isLower = true := by
  unfold Char.toLower
  split
  · next upper =>
      refine Bool.and_eq_true_iff.mpr ⟨decide_eq_true ?_, decide_eq_true ?_⟩
      all_goals
        simp only [ge_iff_le, UInt32.le_iff_toNat_le, UInt32.toNat_add] at upper ⊢
        simp at upper ⊢
        omega
  · next notUpper =>
      rcases Bool.or_eq_true_iff.mp letter with upper | lower
      · exact absurd (of_decide_eq_true upper) notUpper
      · exact lower

theorem isLanguageMark_toLower {c : Char} (language : isLanguageChar c = true) :
    isLanguageMark c.toLower = true := by
  simp only [isLanguageChar, Bool.or_eq_true, beq_iff_eq] at language
  rcases language with (letter | rfl) | rfl
  · simp [isLanguageMark, isLower_toLower letter]
  · decide
  · decide

/-- The opening tag of code is one of the tags of the exporter, with a language or
without. -/
theorem isTag_code (options : Option Text) :
    IsTag (openTag ("code".toList ++ languageClass options)) := by
  unfold languageClass
  cases found : options.bind languageOf? with
  | none => exact .opening (by decide)
  | some name =>
      obtain ⟨text, -, search⟩ := Option.bind_eq_some_iff.mp found
      obtain ⟨-, rest, -, seen⟩ := exists_of_find?_eq_some search
      obtain ⟨behind, -, named⟩ := Option.bind_eq_some_iff.mp seen
      simp only [Option.ite_none_left_eq_some, Option.some.injEq, List.isEmpty_iff] at named
      obtain ⟨nonempty, rfl⟩ := named
      have marks : ∀ c ∈ lowerAscii (behind.takeWhile isLanguageChar), isLanguageMark c = true := ?_
      · exact .language (by simpa [lowerAscii] using nonempty) marks
      intro c member
      obtain ⟨d, inside, rfl⟩ := List.mem_map.mp member
      exact isLanguageMark_toLower (List.mem_takeWhile_imp inside)

/-- The attributes of code do not end its tag. -/
theorem greater_not_mem_languageClass (options : Option Text) : '>' ∉ languageClass options := by
  obtain ⟨inner, whole, chars⟩ := (isTag_code options).shape
  have same : "code".toList ++ languageClass options = inner :=
    List.append_cancel_right (List.cons.inj whole).2
  intro member
  have inTag := chars '>' (same ▸ List.mem_append_right _ member)
  exact absurd inTag (by decide)

theorem marked_codeBlock (options : Option Text) (code : Text) :
    Marked (codeBlock options code) :=
  .element (by decide) (((Marked.of_tag (isTag_code options)).append (.escapeCode code)).append
    (.of_tag (.closing (by decide))))

theorem keepsRest_skipAny {literals : List Text}
    (harmless : ∀ literal ∈ literals, isHarmless literal = true) :
    KeepsRest (skipAny? literals) := by
  intro s rest skipped
  obtain ⟨literal, member, found⟩ := List.exists_of_findSome?_eq_some skipped
  exact keepsRest_skip (harmless literal member) found

/-- Behind the next neutral character. -/
theorem Behind.splitOnce {sep : Char} {s before after : Text} (neutral : isNeutral sep = true)
    (cut : splitOnce sep s = some (before, after)) : Behind s after := by
  obtain ⟨rfl, -⟩ := splitOnce_eq_some cut
  have harmless : isHarmless [sep] = true := by simp [isHarmless, neutral]
  exact .middle harmless

theorem Behind.bracketed {s options rest : Text}
    (found : Latex.bracketed? s = some (options, rest)) :
    Behind s rest := by
  unfold Latex.bracketed? at found
  split at found
  · exact (Behind.cons (by decide)).trans (.splitOnce (by decide) found)
  · cases found

theorem Behind.listingBody {s code rest : Text} (found : listingBody? s = some (code, rest)) :
    Behind s rest := by
  have harmless : ∀ literal ∈ codeEnvironments.map Latex.endEnvironment,
      isHarmless literal = true := by decide
  obtain ⟨front, literal, member, rfl⟩ := listingBody?_eq_some found
  exact .middle (harmless literal member)

theorem listingTail_keeps {s block rest : Text} (found : listingTail? s = some (block, rest)) :
    Behind s rest ∧ Marked block := by
  rcases Option.or_eq_some_iff.mp found with withOptions | ⟨-, without⟩
  · obtain ⟨⟨options, behind⟩, bracketed, body⟩ := Option.bind_eq_some_iff.mp withOptions
    obtain ⟨⟨code, last⟩, read, same⟩ := Option.map_eq_some_iff.mp body
    cases same
    exact ⟨(Behind.bracketed bracketed).trans (.listingBody read), marked_codeBlock _ _⟩
  · obtain ⟨⟨code, last⟩, read, same⟩ := Option.map_eq_some_iff.mp without
    cases same
    exact ⟨.listingBody read, marked_codeBlock _ _⟩

theorem keeps_listing : Keeps listing? := by
  intro s block rest matched
  obtain ⟨tail, skipped, found⟩ := Option.bind_eq_some_iff.mp matched
  obtain ⟨c, cs, rfl, neutral, cut⟩ := keepsRest_skipAny (by decide) skipped
  obtain ⟨behind, marked⟩ := listingTail_keeps found
  exact ⟨c, cs, rfl, neutral, cut.trans behind, fun _ => marked⟩

theorem angle_not_mem_ofNat (n : Nat) : '<' ∉ Text.ofNat n ∧ '>' ∉ Text.ofNat n := by
  have digit : ∀ c ∈ Text.ofNat n, c.isDigit = true := fun c member =>
    Nat.isDigit_of_mem_toDigits (by decide) (by decide) member
  exact ⟨fun member => absurd (digit _ member) (by decide),
    fun member => absurd (digit _ member) (by decide)⟩

theorem marked_marker (index : Nat) : Marked (marker index) := by
  obtain ⟨noLess, noGreater⟩ := angle_not_mem_ofNat index
  exact .cons_neutral (by decide)
    ((Marked.of_plain noLess noGreater).append (.cons_neutral (by decide) .nil))

theorem isHarmless_marker (index : Nat) : isHarmless (marker index) = true := by
  have noLess := (angle_not_mem_ofNat index).1
  have neutral : isNeutral markerChar = true := by decide
  have differ : '<' ≠ markerChar := by decide
  simp [isHarmless, marker, neutral, noLess, differ]

/-- Taking the listings out leaves a marked text and marked elements. -/
theorem marked_takeListingsFrom (index : Nat) {s : Text} (marked : Marked s) :
    Marked (takeListingsFrom index 0 s).1 ∧
      ∀ block ∈ (takeListingsFrom index 0 s).2, Marked block := by
  induction marked using Marked.pass_induction keeps_listing generalizing index with
  | nil => exact ⟨.nil, by simp [takeListingsFrom]⟩
  | quiet c s notLess notGreater rest unmatched ih =>
      rw [takeListingsFrom_cons_of_none unmatched]
      obtain ⟨text, blocks⟩ := ih index
      exact ⟨.char notLess notGreater text, blocks⟩
  | found c s block rest _ _ found isRest element ih =>
      rw [takeListingsFrom_cons_of_some found isRest, List.forall_mem_cons]
      obtain ⟨text, blocks⟩ := ih (index + 1)
      exact ⟨(marked_marker index).append text, element, blocks⟩
  | tag t s isTag rest ih =>
      rw [takeListingsFrom_append_of_quiet
        fun c member => keeps_listing.quiet (isTag.not_neutral member)]
      obtain ⟨text, blocks⟩ := ih index
      exact ⟨.tag isTag text, blocks⟩

theorem marked_putListingsFrom {index : Nat} {s : Text} {blocks : List Text} (marked : Marked s)
    (each : ∀ block ∈ blocks, Marked block) : Marked (putListingsFrom index s blocks) := by
  induction blocks generalizing index s with
  | nil => exact marked
  | cons block blocks ih =>
      rw [List.forall_mem_cons] at each
      exact ih (marked.replace (isHarmless_marker index) each.1) each.2

/-! ## Comments -/

theorem dropCommentsFrom_inside {escaped : Bool} {s t : Text} (oneLine : '\n' ∉ s) :
    dropCommentsFrom escaped true (s ++ t) =
      dropCommentsFrom (if s = [] then escaped else false) true t := by
  induction s generalizing escaped with
  | nil => simp
  | cons c s ih =>
      rw [List.mem_cons, not_or] at oneLine
      rw [List.cons_append, dropCommentsFrom, if_neg (Ne.symm oneLine.1), if_pos rfl, ih oneLine.2]
      simp

/-- A part without comments and line ends stays. -/
theorem dropCommentsFrom_outside (escaped : Bool) {s t : Text} (quiet : '%' ∉ s)
    (oneLine : '\n' ∉ s) :
    ∃ behind, dropCommentsFrom escaped false (s ++ t) = s ++ dropCommentsFrom behind false t := by
  induction s generalizing escaped with
  | nil => exact ⟨escaped, rfl⟩
  | cons c s ih =>
      rw [List.mem_cons, not_or] at quiet oneLine
      obtain ⟨behind, same⟩ := ih (c == '\\') quiet.2 oneLine.2
      refine ⟨behind, ?_⟩
      rw [List.cons_append, dropCommentsFrom, if_neg (Ne.symm oneLine.1)]
      simp [Ne.symm quiet.1, same]

theorem Marked.dropCommentsFrom {escaped inside : Bool} {s : Text} (marked : Marked s) :
    Marked (dropCommentsFrom escaped inside s) := by
  induction marked generalizing escaped inside with
  | nil => exact .nil
  | @char c s notLess notGreater _ ih =>
      rw [Html.dropCommentsFrom]
      split
      · exact .char notLess notGreater ih
      · split
        · exact ih
        · split
          · exact ih
          · exact .char notLess notGreater ih
  | @tag t s isTag _ ih =>
      have oneLine : '\n' ∉ t := fun member => absurd (isTag.not_neutral member) (by decide)
      have quiet : '%' ∉ t := fun member => absurd (isTag.not_neutral member) (by decide)
      cases inside with
      | true =>
          rw [dropCommentsFrom_inside oneLine]
          exact ih
      | false =>
          obtain ⟨behind, same⟩ := dropCommentsFrom_outside escaped (t := s) quiet oneLine
          rw [same]
          exact .tag isTag ih

/-! ## Tables -/

theorem Marked.removeAny {literals : List Text}
    (harmless : ∀ literal ∈ literals, isHarmless literal = true) {s : Text} (marked : Marked s) :
    Marked (removeAny literals s) :=
  marked.substitute (KeepsRest.remove (keepsRest_skipAny harmless))

theorem Marked.trim {s : Text} (marked : Marked s) : Marked (trim s) := by
  have start : Marked (trimStart s) := (Behind.dropWhile isBlank_less s).marked marked
  obtain ⟨blanks, whole, areBlank⟩ := exists_blanks_trimEnd (trimStart s)
  rw [whole] at start
  refine start.front fun member => ?_
  exact absurd (areBlank _ member) (by decide)

theorem splitCellsFrom_ne_nil (previous : Char) (s : Text) : splitCellsFrom previous s ≠ [] := by
  cases s with
  | nil => simp [splitCellsFrom]
  | cons c cs =>
      rw [splitCellsFrom]
      split
      · simp
      · split <;> simp

/-- The cells of a row with ampersands between them are the row. -/
theorem join_splitCellsFrom (previous : Char) (s : Text) :
    join ['&'] (splitCellsFrom previous s) = s := by
  induction s generalizing previous with
  | nil => rfl
  | cons c cs ih =>
      obtain ⟨cell, cells, found⟩ := List.exists_cons_of_ne_nil (splitCellsFrom_ne_nil c cs)
      have whole := ih c
      rw [splitCellsFrom, found]
      rw [found] at whole
      split
      · next ends =>
          simp only [Bool.and_eq_true, decide_eq_true_eq] at ends
          simp [join, whole, ends.1]
      · cases cells <;> simp_all [join]

theorem Marked.splitCells {s : Text} (marked : Marked s) : ∀ cell ∈ splitCells s, Marked cell :=
  .pieces (by decide) ((join_splitCellsFrom _ s).symm ▸ marked)

theorem marked_rowElement {cell row : Text} (member : cell ∈ elementNames) (marked : Marked row) :
    Marked (rowElement cell row) := by
  refine .element (by decide) ?_
  rw [List.flatMap_def]
  refine .flatten fun piece isPiece => ?_
  obtain ⟨content, isCell, rfl⟩ := List.mem_map.mp isPiece
  exact .element member (marked.splitCells content isCell).trim

theorem marked_rowElements {cell part : Text} (member : cell ∈ elementNames)
    (marked : Marked part) : ∀ row ∈ rowElements cell part, Marked row := by
  intro element isElement
  obtain ⟨row, isRow, rfl⟩ := List.mem_map.mp isElement
  obtain ⟨piece, isPiece, rfl⟩ := List.mem_map.mp (List.mem_filter.mp isRow).1
  exact marked_rowElement member
    (marked.splitOnText (by decide) piece isPiece).trim

theorem marked_partElements {parts : List Text} (each : ∀ part ∈ parts, Marked part) :
    ∀ row ∈ partElements parts, Marked row := by
  match parts with
  | [] => simp [partElements]
  | [part] => exact marked_rowElements (by decide) (each part (by simp))
  | header :: next :: rest =>
      rw [List.forall_mem_cons] at each
      intro row member
      rcases List.mem_append.mp member with inHeader | inData
      · exact marked_rowElements (by decide) each.1 row inHeader
      · obtain ⟨part, isPart, inPart⟩ := List.mem_flatMap.mp inData
        exact marked_rowElements (by decide) (each.2 part isPart) row inPart

theorem marked_tableElement {body : Text} (marked : Marked body) : Marked (tableElement body) := by
  have parts :=
    (Marked.removeAny (show ∀ rule ∈ tableRules, isHarmless rule = true by decide)
      marked).splitOnText
    (show isHarmless middleRule = true by decide)
  have rows := Marked.unlines (marked_partElements parts)
  have opened := Marked.of_tag (.opening (show "table".toList ∈ elementNames by decide))
  have closed := Marked.of_tag (.closing (show "table".toList ∈ elementNames by decide))
  exact (opened.append (.cons_neutral (by decide) rows)).append
    (.cons_neutral (by decide) closed)

/-- The text before and behind the first occurrence of a harmless text. -/
theorem Behind.occurrence {literal s before after : Text} (harmless : isHarmless literal = true)
    (found : splitOnText? literal s = some (before, after)) :
    Behind s after ∧ (Marked s → Marked before) := by
  rw [splitOnText?_eq_some found]
  refine ⟨.middle harmless, fun marked => ?_⟩
  obtain ⟨c, cs, rfl, neutral, -⟩ := exists_of_isHarmless harmless
  exact (marked.split neutral).1

theorem Behind.braced {s argument rest : Text} (found : Latex.braced? s = some (argument, rest)) :
    Behind s rest := by
  unfold Latex.braced? at found
  split at found
  · exact (Behind.cons (by decide)).trans (.splitOnce (by decide) found)
  · cases found

theorem keeps_tabular : Keeps tabular? := by
  intro s replacement rest matched
  obtain ⟨spec, skipped, found⟩ := Option.bind_eq_some_iff.mp matched
  obtain ⟨⟨columns, content⟩, braced, found⟩ := Option.bind_eq_some_iff.mp found
  obtain ⟨⟨body, behind⟩, split, same⟩ := Option.map_eq_some_iff.mp found
  cases same
  obtain ⟨c, cs, rfl, neutral, cut⟩ := keepsRest_skip (by decide) skipped
  obtain ⟨ending, bodyMarked⟩ := Behind.occurrence (by decide) split
  have start := cut.trans (.braced braced)
  exact ⟨c, cs, rfl, neutral, start.trans ending,
    fun marked => marked_tableElement (bodyMarked (start.marked marked))⟩

theorem Marked.convertTables {s : Text} (marked : Marked s) : Marked (convertTables s) :=
  marked.substitute keeps_tabular

/-! ## Commands, braces and escapes -/

theorem sizeCommand?_eq_some {s rest : Text} (found : sizeCommand? s = some rest) :
    ∃ name ∈ sizes, skip? ('\\' :: name) s = some rest := by
  obtain ⟨name, member, found⟩ := List.exists_of_findSome?_eq_some found
  obtain ⟨behind, skipped, found⟩ := Option.bind_eq_some_iff.mp found
  split at found
  · cases found
    exact ⟨name, member, skipped⟩
  · cases found

theorem keepsRest_sizeCommand : KeepsRest sizeCommand? := by
  intro s rest found
  obtain ⟨name, member, skipped⟩ := sizeCommand?_eq_some found
  have harmless : ∀ name ∈ sizes, isHarmless ('\\' :: name) = true := by decide
  exact keepsRest_skip (harmless name member) skipped

theorem keeps_picture : Keeps picture? := by
  intro s replacement rest matched
  obtain ⟨body, skipped, found⟩ := Option.bind_eq_some_iff.mp matched
  obtain ⟨⟨inside, behind⟩, split, same⟩ := Option.map_eq_some_iff.mp found
  cases same
  obtain ⟨c, cs, rfl, neutral, cut⟩ := keepsRest_skip (by decide) skipped
  obtain ⟨ending, -⟩ := Behind.occurrence (by decide) split
  have plain : Marked "[Diagram: see the compiled PDF]".toList :=
    .of_plain (by decide) (by decide)
  exact ⟨c, cs, rfl, neutral, cut.trans ending,
    fun _ => .element (by decide) (.element (by decide) plain)⟩

theorem exists_withoutStar (s : Text) : ∃ star, star ⊆ ['*'] ∧ s = star ++ withoutStar s := by
  unfold withoutStar
  split
  · exact ⟨['*'], List.Subset.refl _, rfl⟩
  · exact ⟨[], List.nil_subset _, rfl⟩

/-- The name of a command is of letters, and a star may end it. -/
theorem commandName?_eq_some {s rest : Text} (found : commandName? s = some rest) :
    ∃ c behind star, s = '\\' :: c :: (behind ++ star ++ rest) ∧
      (∀ d ∈ c :: behind, d.isAlpha = true) ∧ star ⊆ ['*'] := by
  unfold commandName? at found
  split at found
  · next c t =>
      split at found
      · next letter =>
          cases found
          obtain ⟨star, part, cut⟩ := exists_withoutStar (t.dropWhile Char.isAlpha)
          refine ⟨c, t.takeWhile Char.isAlpha, star, ?_, ?_, part⟩
          · rw [List.append_assoc, ← cut, List.takeWhile_append_dropWhile]
          · exact List.forall_mem_cons.mpr ⟨letter, fun d member => List.mem_takeWhile_imp member⟩
      · cases found
  · cases found

theorem less_not_mem_of_commandName {c : Char} {behind star : Text}
    (letters : ∀ d ∈ c :: behind, d.isAlpha = true) (part : star ⊆ ['*']) :
    '<' ∉ c :: (behind ++ star) := by
  rw [← List.cons_append, List.mem_append, not_or]
  exact ⟨fun member => absurd (letters _ member) (by decide),
    fun member => absurd (part member) (by decide)⟩

theorem keepsRest_commandName : KeepsRest commandName? := by
  intro s rest found
  obtain ⟨c, behind, star, rfl, letters, part⟩ := commandName?_eq_some found
  exact ⟨'\\', _, rfl, by decide, .append (less_not_mem_of_commandName letters part)⟩

theorem Behind.dropBracketed (s : Text) : Behind s (Latex.dropBracketed s) := by
  unfold Latex.dropBracketed
  split
  · next found => exact .bracketed found
  · exact .refl s

theorem keepsRest_commandWithArgument : KeepsRest commandWithArgument? := by
  intro s rest found
  obtain ⟨behind, named, found⟩ := Option.bind_eq_some_iff.mp found
  obtain ⟨⟨body, last⟩, inner, same⟩ := Option.map_eq_some_iff.mp found
  cases same
  obtain ⟨c, cs, rfl, neutral, cut⟩ := keepsRest_commandName named
  exact ⟨c, cs, rfl, neutral,
    (cut.trans (.dropBracketed _)).trans (Behind.innermost inner).1⟩

theorem Marked.dropCommands {s : Text} (marked : Marked s) : Marked (dropCommands s) := by
  have uncentered :=
    Marked.removeAny (show ∀ text ∈ centering, isHarmless text = true by decide) marked
  have unsized := uncentered.substitute keepsRest_sizeCommand.remove
  have undrawn := unsized.substitute keeps_picture
  exact (undrawn.substitute keepsRest_commandWithArgument.remove).substitute
    keepsRest_commandName.remove

theorem dropGroupBracesFrom_append (escaped : Bool) {s t : Text}
    (noBraces : ∀ c ∈ s, isBrace c = false) :
    ∃ behind, dropGroupBracesFrom escaped (s ++ t) = s ++ dropGroupBracesFrom behind t := by
  induction s generalizing escaped with
  | nil => exact ⟨escaped, rfl⟩
  | cons c s ih =>
      rw [List.forall_mem_cons] at noBraces
      obtain ⟨behind, same⟩ := ih (c == '\\') noBraces.2
      exact ⟨behind, by simp [dropGroupBracesFrom, noBraces.1, same]⟩

/-- A tag holds no braces. -/
theorem IsTag.isBrace_eq_false {t : Text} (isTag : IsTag t) : ∀ c ∈ t, isBrace c = false := by
  intro c member
  have inTag := isTag.not_neutral member
  by_contra brace
  simp only [isBrace, Bool.or_eq_true, beq_iff_eq, Bool.not_eq_false] at brace
  rcases brace with rfl | rfl <;> exact absurd inTag (by decide)

theorem Marked.dropGroupBracesFrom (escaped : Bool) {s : Text} (marked : Marked s) :
    Marked (dropGroupBracesFrom escaped s) := by
  induction marked generalizing escaped with
  | nil => exact .nil
  | char notLess notGreater _ ih =>
      rw [Html.dropGroupBracesFrom]
      split
      · exact ih _
      · exact .char notLess notGreater (ih _)
  | @tag t s isTag _ ih =>
      obtain ⟨behind, same⟩ := dropGroupBracesFrom_append escaped (t := s) isTag.isBrace_eq_false
      rw [same]
      exact .tag isTag (ih _)

theorem Marked.resolveEscapes {s : Text} (marked : Marked s) : Marked (resolveEscapes s) := by
  have fits : ∀ entry ∈ escapes, isHarmless entry.1 = true ∧ '<' ∉ entry.2 ∧ '>' ∉ entry.2 := by
    decide
  refine marked.foldl fun entry member s marked => ?_
  obtain ⟨harmless, noLess, noGreater⟩ := fits entry member
  exact marked.replace harmless (.of_plain noLess noGreater)

/-- A gap begins with a newline and has another one among the blanks behind it. -/
theorem gap?_eq_some {s replacement rest : Text} (matched : gap? s = some (replacement, rest)) :
    ∃ behind, s = '\n' :: behind ∧ '\n' ∈ behind.takeWhile isGapChar ∧
      replacement = ['\n', '\n'] ∧ rest = behind.dropWhile isGapChar := by
  unfold gap? at matched
  split at matched
  · next behind =>
      split at matched
      · next gap =>
          cases matched
          exact ⟨behind, rfl, gap, rfl, rfl⟩
      · cases matched
  · cases matched

theorem gap?_of_ne {c : Char} (other : c ≠ '\n') (s : Text) : gap? (c :: s) = none := by
  unfold gap?
  split
  · next same => exact absurd (List.cons.inj same).1 other
  · rfl

theorem keeps_gap : Keeps gap? := by
  intro s replacement rest matched
  obtain ⟨behind, rfl, -, rfl, rfl⟩ := gap?_eq_some matched
  exact ⟨'\n', behind, rfl, by decide, .dropWhile (by decide) _,
    fun _ => .of_plain (by decide) (by decide)⟩

theorem Marked.convertRest {s : Text} (marked : Marked s) : Marked (convertRest s) := by
  have tables : Marked (Html.convertTables (dropComments s)) :=
    marked.dropCommentsFrom.convertTables
  have breaks := tables.replace (show isHarmless rowEnd = true by decide) (.of_tag .lineBreak)
  have bare := breaks.dropCommands.dropGroupBracesFrom false
  exact bare.resolveEscapes.substitute keeps_gap

/-! ## The main result -/

theorem fragment_eq (body : Text) :
    fragment body =
      putListings (trim (convertRest (takeListings (convertMarkup body)).1))
        (takeListings (convertMarkup body)).2 := by
  rw [fragment]

/-- A fragment is marked, whatever the body was. -/
theorem marked_fragment (body : Text) : Marked (fragment body) := by
  have ⟨text, blocks⟩ := marked_takeListingsFrom 0 (marked_convertMarkup body)
  rw [fragment_eq]
  exact marked_putListingsFrom text.convertRest.trim blocks

/-- **The exporter lets no markup through.** In the fragment of any body every `<` begins
one of the tags that the exporter writes, and every `>` ends one. -/
theorem fragment_angles_in_tags (body before after : Text) :
    (fragment body = before ++ '<' :: after → ∃ tag, IsTag tag ∧ tag <+: '<' :: after) ∧
    (fragment body = before ++ '>' :: after → ∃ tag, IsTag tag ∧ tag <:+ before ++ ['>']) := by
  have marked := marked_fragment body
  constructor
  · intro whole
    rw [whole] at marked
    exact marked.tag_of_less
  · intro whole
    rw [whole] at marked
    exact marked.tag_of_greater

/-- An item whose text is an angle bracket. -/
theorem fragment_angles_in_item :
    fragment "\\item <".toList = [] ++ '<' :: "li>&lt;".toList ∧
    (∃ tag, IsTag tag ∧ tag <+: '<' :: "li>&lt;".toList) ∧
    fragment "\\item <".toList = "<li".toList ++ '>' :: "&lt;".toList ∧
    ∃ tag, IsTag tag ∧ tag <:+ "<li".toList ++ ['>'] := by
  have whole : fragment "\\item <".toList = "<li>&lt;".toList := by decide +kernel
  exact ⟨whole, (fragment_angles_in_tags _ [] _).1 whole, whole,
    (fragment_angles_in_tags _ "<li".toList _).2 whole⟩

end SlideDeck.Html
