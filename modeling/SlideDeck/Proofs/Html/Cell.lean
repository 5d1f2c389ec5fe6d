import SlideDeck.Proofs.Html.Finish

/-!
# Formatted text by itself

A formatted text may have several lines. Before its symbols and its emphasis are converted, it loses
what looks like the option of a frame, and the carriage returns in front of its newlines (`bare`).
So its fragment is what the last conversions leave of it, trimmed (`fragment_formatted`).

In a cell of a table the text is trimmed in front of the last conversions and not behind them
(`cellHtml`). But for the blanks around it, that is its fragment (`trim_cellHtml`).
-/

set_option autoImplicit false

namespace SlideDeck

open SlideDeck.Text SlideDeck.Latex

/-! ## Ends of lines -/

namespace Text

/-- The text with a newline alone at the end of each line. -/
def plainEnds (s : Text) : Text := replace "\r\n".toList ['\n'] s

/-- A line loses the carriage return in front of its newline. -/
theorem plainEnds_line {line : Text} (oneLine : '\n' ∉ line) (t : Text) :
    plainEnds (line ++ '\n' :: t) = dropReturn line ++ '\n' :: plainEnds t := by
  have passes : ∀ {c d : Char} {u : Text}, c ≠ '\r' ∨ d ≠ '\n' →
      plainEnds (c :: d :: u) = c :: plainEnds (d :: u) := by
    intro c d u other
    refine replace_cons _ fun begins => ?_
    obtain ⟨same, later⟩ := List.cons_prefix_cons.mp begins
    obtain ⟨next, -⟩ := List.cons_prefix_cons.mp later
    exact other.elim (fun other => other same.symm) fun other => other next.symm
  induction line with
  | nil =>
      refine replace_cons _ fun begins => ?_
      exact absurd (List.cons_prefix_cons.mp begins).1 (by decide)
  | cons c line ih =>
      rw [List.mem_cons, not_or] at oneLine
      have later := ih oneLine.2
      cases line with
      | nil =>
          by_cases returned : c = '\r'
          · subst returned
            exact replace_append_self '\r' ['\n'] ['\n'] t
          · have kept : dropReturn [c] = [c] := dropReturn_append_singleton [] returned
            have first : plainEnds (c :: '\n' :: t) = c :: plainEnds ('\n' :: t) :=
              passes (.inl returned)
            rw [kept, List.singleton_append, first]
            exact congrArg (c :: ·) later
      | cons d line =>
          have notNewline : d ≠ '\n' := by
            rintro rfl
            exact oneLine.2 List.mem_cons_self
          have first :
              plainEnds (c :: d :: (line ++ '\n' :: t)) =
                c :: plainEnds (d :: (line ++ '\n' :: t)) :=
            passes (.inr notNewline)
          have whole : dropReturn (c :: d :: line) = c :: dropReturn (d :: line) :=
            dropReturn_append [c] (List.cons_ne_nil d line)
          rw [whole]
          exact first.trans (congrArg (c :: ·) later)

/-- A text without newlines stays. -/
theorem plainEnds_of_not_mem {line : Text} (oneLine : '\n' ∉ line) : plainEnds line = line :=
  replace_eq_self _ fun occurs => oneLine (occurs.subset (by decide))

theorem plainEnds_unlines {pieces : List Text} (each : ∀ piece ∈ pieces, '\n' ∉ piece) :
    ∃ back, plainEnds (unlines pieces) = unlines (linesOfPieces pieces) ++ back ∧
      ∀ c ∈ back, isBlank c = true := by
  induction pieces with
  | nil => exact ⟨[], rfl, List.forall_mem_nil _⟩
  | cons piece pieces ih =>
      rw [List.forall_mem_cons] at each
      cases pieces with
      | nil =>
          have read : unlines (linesOfPieces [piece]) = piece := by
            rw [linesOfPieces]
            split
            · next empty => rw [List.isEmpty_iff.mp empty]; rfl
            · rfl
          refine ⟨[], ?_, List.forall_mem_nil _⟩
          rw [read, List.append_nil]
          exact plainEnds_of_not_mem each.1
      | cons next pieces =>
          obtain ⟨back, same, areBlank⟩ := ih each.2
          rw [unlines_cons_cons, plainEnds_line each.1, same, linesOfPieces]
          cases linesOfPieces (next :: pieces) with
          | nil => exact ⟨'\n' :: back, rfl, List.forall_mem_cons.mpr ⟨by decide, areBlank⟩⟩
          | cons first later =>
              refine ⟨back, ?_, areBlank⟩
              rw [unlines_cons_cons, List.append_assoc]
              rfl

/-- **Reading the lines of a text leaves plain ends of lines**, and takes a newline at its end. -/
theorem exists_plainEnds_eq (s : Text) :
    ∃ back, plainEnds s = unlines (lines s) ++ back ∧ ∀ c ∈ back, isBlank c = true := by
  have whole : unlines (splitAt '\n' s) = s := join_splitAt '\n' s
  have each : ∀ piece ∈ splitAt '\n' s, '\n' ∉ piece :=
    fun piece member => not_mem_of_mem_splitAt member
  have read := plainEnds_unlines each
  rwa [whole] at read

/-- Behind the last line of a text stands no newline. -/
theorem unlines_lines {c : Char} (visible : isBlank c = false) (s : Text) :
    unlines (lines (s ++ [c])) = plainEnds (s ++ [c]) := by
  have absent : c ∉ "\r\n".toList := fun member =>
    absurd visible (by rw [(by decide : ∀ d ∈ "\r\n".toList, isBlank d = true) c member]; decide)
  have ends : plainEnds (s ++ [c]) = plainEnds s ++ [c] := (BreaksAt.replace absent ['\n']).concat s
  obtain ⟨back, same, areBlank⟩ := exists_plainEnds_eq (s ++ [c])
  rcases List.eq_nil_or_concat back with rfl | ⟨front, d, whole⟩
  · rw [same, List.append_nil]
  · rw [List.concat_eq_append] at whole
    subst whole
    rw [ends, ← List.append_assoc] at same
    obtain rfl : c = d := (List.cons.inj (List.append_inj' same rfl).2).1
    rw [areBlank c (by simp)] at visible
    cases visible

end Text

namespace Html

/-! ## What is left of a formatted text -/

/-- What is left of a formatted text when its symbols and its emphasis are converted: what looks
like the option of a frame goes, and so do the carriage returns in front of its newlines. -/
def bare (s : Text) : Text := plainEnds (replace "[fragile]".toList [] s)

section Formatted

variable {s : Text}

theorem formatted_bare (formatted : Inline.Formatted 0 s 0) : Inline.Formatted 0 (bare s) 0 :=
  (formatted.remove_plain (by decide) (by decide)).replace_plain (by decide) (by decide) (by decide)

/-- Angle brackets do not meet the ends of lines. -/
theorem plainEnds_escapeAngles (s : Text) :
    plainEnds (escapeAngles s) = escapeAngles (plainEnds s) :=
  (keepsLiteral_angles (by decide) (by decide)).replace_flatMap ['\n'] s

/-- In formatted text, the ends of environments are none. -/
theorem convertEnds_escapeAngles (formatted : Inline.Formatted 0 s 0) :
    convertEnds (escapeAngles s) = escapeAngles (replace "[fragile]".toList [] s) := by
  have taken : replace "[fragile]".toList [] (escapeAngles s) =
      escapeAngles (replace "[fragile]".toList [] s) :=
        keepsLiteral_escapeAngle.replace_flatMap [] s
  have left : Inline.Formatted 0 (replace "[fragile]".toList [] s) 0 :=
    formatted.remove_plain (by decide) (by decide)
  rw [convertEnds, taken]
  exact convertEnvironments_of_calm (calm_escapeAngles left.leads.guarded.calm)

/-- Where there are no tags, closing the items reads the lines. -/
theorem closeItems_escapeAngles (s : Text) :
    closeItems (escapeAngles s) = unlines (lines (escapeAngles s)) := by
  rw [closeItems, closeItemsFrom_of_not_mem fun line member inside =>
    (angles_not_mem_escapeAngles s).1 ((isInfix_of_mem_lines member).subset inside)]

/-- The conversions of symbols and emphasis leave blanks behind a strand. -/
theorem convertEmphasis_convertSymbols_append {t blanks : Text} (strand : Strand 0 t)
    (areBlank : ∀ c ∈ blanks, isBlank c = true) :
    convertEmphasis (convertSymbols (t ++ blanks)) =
      convertEmphasis (convertSymbols t) ++ blanks := by
  have noSlash := slash_not_mem_blanks areBlank
  have symbols : convertSymbols blanks = blanks := by
    have kept : ∀ name replacement, replace (symbol name) replacement blanks = blanks :=
      fun name replacement =>
      replace_eq_self _ fun occurs => noSlash (occurs.subset (by simp [symbol, command]))
    rw [convertSymbols, kept, kept, kept]
  have emphasis : convertEmphasis blanks = blanks :=
    eq_of_append (convertEmphasis_append (commandless_of_not_mem noSlash)) rfl
  rw [weaves_convertSymbols.append strand, weaves_convertEmphasis.append
    (weaves_convertSymbols.strand strand), symbols, emphasis]

/-- A strand has neither comments nor tables nor ends of rows. -/
theorem fragment_of_strand {body : Text} (strand : Strand 0 (convertMarkup body)) :
    fragment body = trim (finish (convertMarkup body)) := by
  have put : ∀ t, putListings t [] = t := fun t => rfl
  rw [fragment_eq, strand.takeListings_eq, put]
  dsimp only
  rw [convertRest_eq, strand.dropComments_eq_self, strand.convertTables_eq_self,
    strand.replace_rowEnd]

/-- **Formatted text as a fragment**, in however many lines. -/
theorem fragment_formatted (formatted : Inline.Formatted 0 s 0) :
    fragment s = trim (finish (emphasized (bare s))) := by
  have whole : Strand 0 (escapeAngles (bare s)) := .of_formatted (formatted_bare formatted)
  have left : Strand 0 (escapeAngles (replace "[fragile]".toList [] s)) :=
    .of_formatted (formatted.remove_plain (by decide) (by decide))
  obtain ⟨back, same, areBlank⟩ :=
    exists_plainEnds_eq (escapeAngles (replace "[fragile]".toList [] s))
  rw [plainEnds_escapeAngles, ← closeItems_escapeAngles] at same
  generalize closed : closeItems (escapeAngles (replace "[fragile]".toList [] s)) = t at same
  have strand : Strand 0 t := (same ▸ whole).front areBlank
  have marked : convertMarkup s = convertEmphasis (convertSymbols t) := by
    have prepared : closeItems (convertItems (convertEnds (escapeAngles s))) = t := by
      rw [convertEnds_escapeAngles formatted, convertItems,
        left.silent_itemCommand.substitute_eq_self, closed]
    exact congrArg (fun t => convertEmphasis (convertSymbols t)) prepared
  have ready : Strand 0 (convertEmphasis (convertSymbols t)) :=
    weaves_convertEmphasis.strand (weaves_convertSymbols.strand strand)
  have ends : emphasized (bare s) = convertEmphasis (convertSymbols t) ++ back := by
    rw [emphasized, bare, same, convertEmphasis_convertSymbols_append strand areBlank]
  calc fragment s
      = trim (finish (convertEmphasis (convertSymbols t))) := by
        rw [← marked] at ready ⊢
        exact fragment_of_strand ready
    _ = trim (finish (trim (emphasized (bare s)))) := by
        rw [ends, trim_append_of_blanks _ areBlank, trim_finish_trim ready]
    _ = trim (finish (emphasized (bare s))) :=
      trim_finish_trim (strand_emphasized (formatted_bare formatted))

/-! ## Cells -/

/-- A formatted text as it stands in a cell of a table. -/
def cellHtml (s : Text) : Text := finish (trim (emphasized (bare s)))

/-- **But for the blanks around it, a cell shows what its text does by itself.** -/
theorem trim_cellHtml (formatted : Inline.Formatted 0 s 0) : trim (cellHtml s) = fragment s := by
  rw [cellHtml, trim_finish_trim (strand_emphasized (formatted_bare formatted)),
    fragment_formatted formatted]

end Formatted

end Html

end SlideDeck
