import Mathlib.Computability.Language
import SlideDeck.Proofs.Text.Lines
import SlideDeck.Slide.Table

/-!
# The separator row of a table

The row between the header and the data of a table is recognized by a pattern, and the cells of a
row are found by cutting it at its pipes. The two agree: a line is a separator row just if it has
cells and each of them is of dashes (`isSeparator_iff`).

The machine that reads the row is in no cell but the current one. Within a cell it reads what
trimming leaves of it (`run_cell`), and behind a pipe it begins again (`run_cell_append_pipe`). What
it accepts is the pattern, written as a language (`isSeparator_iff_mem_separatorRow`). The outer
pipes are the difficulty of both: a line is trimmed before it is read, so that an outer cell is
empty just if its pipe stands at the very end of the line.
-/

set_option autoImplicit false

namespace SlideDeck.Table

open SlideDeck SlideDeck.Text Computability

/-! ## The pattern -/

/-- One character. -/
def single (c : Char) : Language Char := {[c]}

/-- A word of the language, or nothing. -/
def optional (l : Language Char) : Language Char := 1 + l

/-- Any number of blanks. -/
def blanks : Language Char := {s | ∀ c ∈ s, isBlank c = true}

/-- Any number of dashes, and an optional colon behind them. -/
def dashTail : Language Char := (single '-')∗ * optional (single ':')

/-- One or more dashes with an optional colon at either end. -/
def dashCell : Language Char := optional (single ':') * (single '-' * dashTail)

/-- Such dashes with blanks around them. -/
def paddedCell : Language Char := blanks * dashCell * blanks

/-- One or more of these with a pipe between each two, and an optional pipe behind the last. -/
def cellRow : Language Char := (paddedCell * single '|')∗ * (paddedCell * optional (single '|'))

/-- The same with an optional pipe in front of the first. -/
def separatorRow : Language Char := optional (single '|') * cellRow

theorem nil_mem_optional {l : Language Char} : [] ∈ optional l := .inl rfl

theorem cons_mem_optional {c d : Char} {s : Text} :
    c :: s ∈ optional (single d) ↔ c = d ∧ s = [] := by
  constructor
  · rintro (empty | one)
    · cases empty
    · cases one
      exact ⟨rfl, rfl⟩
  · rintro ⟨rfl, rfl⟩
    exact .inr rfl

theorem nil_not_mem_single_mul {d : Char} {l : Language Char} : [] ∉ single d * l := by
  rintro ⟨_, rfl, rest, -, whole⟩
  cases whole

theorem cons_mem_single_mul {c d : Char} {s : Text} {l : Language Char} :
    c :: s ∈ single d * l ↔ c = d ∧ s ∈ l := by
  constructor
  · rintro ⟨_, rfl, rest, member, whole⟩
    obtain ⟨rfl, rfl⟩ := List.cons.inj whole
    exact ⟨rfl, member⟩
  · rintro ⟨rfl, member⟩
    exact ⟨[c], rfl, s, member, rfl⟩

theorem optional_mul (l m : Language Char) : optional l * m = m + l * m := by
  rw [optional, add_mul, one_mul]

/-! ## Dashes -/

/-- Behind a dash there may be more. -/
theorem dashTail_eq : dashTail = optional (single ':') + single '-' * dashTail := by
  rw [dashTail]
  nth_rewrite 1 [← Language.one_add_self_mul_kstar_eq_kstar]
  rw [add_mul, one_mul, mul_assoc]

theorem nil_mem_dashTail : [] ∈ dashTail := by
  rw [dashTail_eq]
  exact .inl nil_mem_optional

theorem cons_mem_dashTail {c : Char} {s : Text} :
    c :: s ∈ dashTail ↔ c = ':' ∧ s = [] ∨ c = '-' ∧ s ∈ dashTail := by
  conv_lhs => rw [dashTail_eq]
  exact or_congr cons_mem_optional cons_mem_single_mul

theorem nil_not_mem_dashCell : [] ∉ dashCell := by
  rw [dashCell, optional_mul]
  rintro (dash | colon)
  · exact nil_not_mem_single_mul dash
  · exact nil_not_mem_single_mul colon

theorem cons_mem_dashCell {c : Char} {s : Text} :
    c :: s ∈ dashCell ↔ c = '-' ∧ s ∈ dashTail ∨ c = ':' ∧ s ∈ single '-' * dashTail := by
  rw [dashCell, optional_mul]
  exact or_congr cons_mem_single_mul cons_mem_single_mul

theorem dash_or_colon_of_mem_dashTail {s : Text} (member : s ∈ dashTail) :
    ∀ c ∈ s, c = '-' ∨ c = ':' := by
  induction s with
  | nil => simp
  | cons c s ih =>
      rw [List.forall_mem_cons]
      rcases cons_mem_dashTail.mp member with ⟨rfl, rfl⟩ | ⟨rfl, later⟩
      · simp
      · exact ⟨.inl rfl, ih later⟩

theorem dash_or_colon_of_mem_dashCell {s : Text} (member : s ∈ dashCell) :
    ∀ c ∈ s, c = '-' ∨ c = ':' := by
  cases s with
  | nil => simp
  | cons c s =>
      rw [List.forall_mem_cons]
      rcases cons_mem_dashCell.mp member with ⟨rfl, later⟩ | ⟨rfl, later⟩
      · exact ⟨.inl rfl, dash_or_colon_of_mem_dashTail later⟩
      · refine ⟨.inr rfl, ?_⟩
        cases s with
        | nil => simp
        | cons d s =>
            obtain ⟨rfl, tail⟩ := cons_mem_single_mul.mp later
            rw [List.forall_mem_cons]
            exact ⟨.inl rfl, dash_or_colon_of_mem_dashTail tail⟩

/-- Dashes are visible, so trimming finds them between the blanks. -/
theorem mem_paddedCell_iff {s : Text} : s ∈ paddedCell ↔ trim s ∈ dashCell := by
  constructor
  · rintro ⟨_, ⟨front, areBlank, cell, member, rfl⟩, back, alsoBlank, rfl⟩
    have visible : ∀ c ∈ cell, isBlank c = false := by
      intro c inside
      rcases dash_or_colon_of_mem_dashCell member c inside with rfl | rfl <;> decide
    rwa [trim_append_of_blanks _ alsoBlank, trim_blanks_append areBlank, trim_of_visible visible]
  · intro member
    obtain ⟨front, back, whole, areBlank, alsoBlank⟩ := exists_blanks_trim s
    rw [← List.append_assoc] at whole
    exact ⟨_, ⟨front, areBlank, trim s, member, rfl⟩, back, alsoBlank, whole.symm⟩

theorem not_mem_of_mem_paddedCell {s : Text} (member : s ∈ paddedCell) : '|' ∉ s := by
  intro pipe
  have kept := mem_trim (by decide) pipe
  rcases dash_or_colon_of_mem_dashCell (mem_paddedCell_iff.mp member) _ kept with same | same
  · cases same
  · cases same

/-! ## Reading a cell -/

namespace SeparatorState

section Cell

variable {s : Text}

/-- Behind the dashes of a cell only blanks may follow. -/
theorem run_closed (noPipe : '|' ∉ s) : closed.run s = true ↔ trimEnd s = [] := by
  induction s with
  | nil => exact iff_of_true rfl rfl
  | cons c s ih =>
      rw [List.mem_cons, not_or] at noPipe
      cases blank : isBlank c with
      | true => simp [run, step, blank, ih noPipe.2, trimEnd_eq_nil_iff]
      | false => simp [run, step, blank, Ne.symm noPipe.1, trimEnd_cons blank]

/-- Among the dashes more of them may follow, and then a colon. -/
theorem run_dashes (noPipe : '|' ∉ s) : dashes.run s = true ↔ trimEnd s ∈ dashTail := by
  induction s with
  | nil => exact iff_of_true rfl nil_mem_dashTail
  | cons c s ih =>
      rw [List.mem_cons, not_or] at noPipe
      by_cases dash : c = '-'
      · subst dash
        rw [trimEnd_cons (by decide), cons_mem_dashTail]
        simpa [run, step] using ih noPipe.2
      · by_cases colon : c = ':'
        · subst colon
          rw [trimEnd_cons (by decide), cons_mem_dashTail]
          simpa [run, step] using run_closed noPipe.2
        · cases blank : isBlank c with
          | false =>
              rw [trimEnd_cons blank, cons_mem_dashTail]
              simp [run, step, dash, colon, blank, Ne.symm noPipe.1]
          | true =>
              have behind : dashes.run (c :: s) = closed.run s := by simp [run, step, dash, blank]
              rw [behind, run_closed noPipe.2]
              -- the blank is trimmed only if nothing but blanks stands behind it
              by_cases empty : trimEnd s = []
              · have gone : trimEnd (c :: s) = [] := by simp [trimEnd, empty, blank]
                exact iff_of_true empty (gone ▸ nil_mem_dashTail)
              · rw [trimEnd_cons_of_ne_nil c empty, cons_mem_dashTail]
                simp [dash, colon, empty]

/-- Behind the first colon the dashes have to come. -/
theorem run_colon (noPipe : '|' ∉ s) : colon.run s = true ↔ trimEnd s ∈ single '-' * dashTail := by
  cases s with
  | nil => exact iff_of_false (by decide) nil_not_mem_single_mul
  | cons c s =>
      rw [List.mem_cons, not_or] at noPipe
      by_cases dash : c = '-'
      · subst dash
        rw [trimEnd_cons (by decide), cons_mem_single_mul]
        simpa [run, step] using run_dashes noPipe.2
      · have refused : colon.run (c :: s) = false := by simp [run, step, dash]
        rw [refused]
        refine iff_of_false Bool.false_ne_true fun member => ?_
        cases kept : trimEnd (c :: s) with
        | nil => exact nil_not_mem_single_mul (kept ▸ member)
        | cons d rest =>
            have begins := trimEnd_isPrefix (c :: s)
            rw [kept] at member begins
            obtain ⟨rfl, -⟩ := List.cons_prefix_cons.mp begins
            exact dash (cons_mem_single_mul.mp member).1

/-- **A cell is read as its trimmed text.** -/
theorem run_cell (noPipe : '|' ∉ s) : cell.run s = true ↔ trim s ∈ dashCell := by
  induction s with
  | nil => exact iff_of_false (by decide) nil_not_mem_dashCell
  | cons c s ih =>
      rw [List.mem_cons, not_or] at noPipe
      cases blank : isBlank c with
      | true =>
          rw [trim_cons_of_blank blank]
          simpa [run, step, enterCell, blank] using ih noPipe.2
      | false =>
          rw [trim, trimStart_cons blank, trimEnd_cons blank, cons_mem_dashCell]
          by_cases colon : c = ':'
          · subst colon
            simpa [run, step, enterCell, blank] using run_colon noPipe.2
          · by_cases dash : c = '-'
            · subst dash
              simpa [run, step, enterCell, blank] using run_dashes noPipe.2
            · simp [run, step, enterCell, blank, colon, dash]

end Cell

/-! ## From cell to cell -/

/-- Whether the machine is in a cell. -/
def isInner : SeparatorState → Bool
  | cell | colon | dashes | closed => true
  | start | pipe => false

theorem isInner_of_step {state next : SeparatorState} {c : Char} (inner : state.isInner = true)
    (other : c ≠ '|') (stepped : state.step c = some next) : next.isInner = true := by
  cases state <;> cases inner <;> grind [step, enterCell, isInner]

/-- Only a pipe leads out of a cell, and only where the row could end. -/
theorem run_append_pipe {state : SeparatorState} (inner : state.isInner = true) {s : Text}
    (noPipe : '|' ∉ s) (t : Text) :
    state.run (s ++ '|' :: t) = (state.run s && pipe.run t) := by
  induction s generalizing state with
  | nil =>
      have visible : isBlank '|' = false := by decide
      cases state <;> cases inner <;> simp [run, step, enterCell, accepts, visible]
  | cons c s ih =>
      rw [List.mem_cons, not_or] at noPipe
      rw [List.cons_append, run, run]
      cases stepped : state.step c with
      | none => rfl
      | some next => exact ih (isInner_of_step inner (Ne.symm noPipe.1) stepped) noPipe.2

/-- Behind a pipe the row ends, or a cell comes. -/
theorem run_pipe {t : Text} : pipe.run t = true ↔ t = [] ∨ cell.run t = true := by
  cases t with
  | nil => simp [run, accepts]
  | cons c t => simp [run, step]

theorem run_cell_append_pipe {s : Text} (noPipe : '|' ∉ s) (t : Text) :
    cell.run (s ++ '|' :: t) = true ↔ trim s ∈ dashCell ∧ (t = [] ∨ cell.run t = true) := by
  rw [run_append_pipe rfl noPipe, Bool.and_eq_true, run_cell noPipe, run_pipe]

/-- A pipe at the front is passed over. -/
theorem run_start_pipe (t : Text) : start.run ('|' :: t) = cell.run t := by simp [run, step]

/-- Otherwise the row begins with a cell. -/
theorem run_start {c : Char} (other : c ≠ '|') (t : Text) :
    start.run (c :: t) = cell.run (c :: t) := by
  simp [run, step, other]

end SeparatorState

open SeparatorState

theorem join_cons_cons (sep : Char) (piece next : Text) (pieces : List Text) :
    join [sep] (piece :: next :: pieces) = piece ++ sep :: join [sep] (next :: pieces) := by
  simp [join]

/-! ## The machine and the pattern -/

theorem run_cell_of_mem_cellRow {s : Text} (member : s ∈ cellRow) : cell.run s = true := by
  obtain ⟨_, ⟨parts, rfl, each⟩, _, ⟨last, isCell, closing, isClosing, rfl⟩, rfl⟩ := member
  have ends : cell.run (last ++ closing) = true := by
    have noPipe := not_mem_of_mem_paddedCell isCell
    rcases isClosing with rfl | rfl
    · rw [List.append_nil, run_cell noPipe]
      exact mem_paddedCell_iff.mp isCell
    · exact (run_cell_append_pipe noPipe []).mpr ⟨mem_paddedCell_iff.mp isCell, .inl rfl⟩
  induction parts with
  | nil => exact ends
  | cons part parts ih =>
      rw [List.forall_mem_cons] at each
      obtain ⟨piece, isCell, _, rfl, rfl⟩ := each.1
      have later := ih each.2
      have noPipe := not_mem_of_mem_paddedCell isCell
      change cell.run ((piece ++ ['|'] ++ parts.flatten) ++ (last ++ closing)) = true
      rw [List.append_assoc, List.append_assoc, List.singleton_append, run_cell_append_pipe noPipe]
      exact ⟨mem_paddedCell_iff.mp isCell, .inr later⟩

theorem join_mem_cellRow {pieces : List Text} (nonempty : pieces ≠ [])
    (noPipe : ∀ piece ∈ pieces, '|' ∉ piece) (accepted : cell.run (join ['|'] pieces) = true) :
    join ['|'] pieces ∈ cellRow := by
  induction pieces with
  | nil => exact absurd rfl nonempty
  | cons piece pieces ih =>
      rw [List.forall_mem_cons] at noPipe
      cases pieces with
      | nil =>
          have isCell := mem_paddedCell_iff.mpr ((run_cell noPipe.1).mp accepted)
          exact ⟨[], Language.nil_mem_kstar _, _, ⟨piece, isCell, [], nil_mem_optional, rfl⟩,
            List.append_nil piece⟩
      | cons next pieces =>
          rw [join_cons_cons, run_cell_append_pipe noPipe.1] at accepted
          have isCell := mem_paddedCell_iff.mpr accepted.1
          rw [join_cons_cons]
          rcases accepted.2 with empty | accepted
          · rw [empty]
            exact ⟨[], Language.nil_mem_kstar _, _, ⟨piece, isCell, ['|'], .inr rfl, rfl⟩, rfl⟩
          · obtain ⟨_, ⟨parts, rfl, each⟩, last, isLast, same⟩ :=
              ih (List.cons_ne_nil _ _) noPipe.2 accepted
            refine ⟨_, ⟨(piece ++ ['|']) :: parts, rfl, ?_⟩, last, isLast, ?_⟩
            · exact List.forall_mem_cons.mpr ⟨⟨piece, isCell, ['|'], rfl, rfl⟩, each⟩
            · rw [← same]
              change (piece ++ ['|'] ++ parts.flatten) ++ last = _
              rw [List.append_assoc, List.append_assoc, List.singleton_append]

theorem run_cell_iff_mem_cellRow {s : Text} : cell.run s = true ↔ s ∈ cellRow := by
  refine ⟨fun accepted => ?_, run_cell_of_mem_cellRow⟩
  rw [← join_splitAt '|' s] at accepted ⊢
  exact join_mem_cellRow (splitAt_ne_nil '|' s) (fun _ => not_mem_of_mem_splitAt) accepted

/-- **The machine accepts the pattern**, and nothing else. -/
theorem isSeparator_iff_mem_separatorRow (line : Text) :
    isSeparator line = true ↔ trim line ∈ separatorRow := by
  have split : ∀ s, s ∈ separatorRow ↔ s ∈ cellRow ∨ s ∈ single '|' * cellRow := by
    intro s
    rw [separatorRow, optional_mul]
    rfl
  rw [isSeparator, split, ← run_cell_iff_mem_cellRow]
  cases trim line with
  | nil => exact iff_of_false (by decide) (not_or.mpr ⟨by decide, nil_not_mem_single_mul⟩)
  | cons c s =>
      rw [cons_mem_single_mul, ← run_cell_iff_mem_cellRow]
      by_cases pipe : c = '|'
      · subst pipe
        have refused : cell.run ('|' :: s) = false := rfl
        simp [run_start_pipe, refused]
      · simp [run_start pipe, pipe]

/-! ## The machine and the cells -/

theorem dropEmptyLast_cons_cons (cell next : Text) (cells : List Text) :
    dropEmptyLast (cell :: next :: cells) = cell :: dropEmptyLast (next :: cells) := by
  rw [dropEmptyLast.eq_def]
  split <;> simp_all

theorem dropEmptyLast_cons_eq_nil_iff {cell : Text} {cells : List Text} :
    dropEmptyLast (cell :: cells) = [] ↔ cell = [] ∧ cells = [] := by
  cases cells with
  | nil => cases cell <;> simp [dropEmptyLast]
  | cons next cells => simp [dropEmptyLast_cons_cons]

/-- The machine accepts pieces with pipes between them just if all are cells of dashes, but for
an empty last one behind others. -/
theorem run_cell_join {pieces : List Text} (noPipe : ∀ piece ∈ pieces, '|' ∉ piece)
    (ended : ∀ last ∈ pieces.getLast?, trim last = [] → last = []) :
    cell.run (join ['|'] pieces) = true ↔
      dropEmptyLast (pieces.map trim) ≠ [] ∧
        ∀ cell ∈ dropEmptyLast (pieces.map trim), cell ∈ dashCell := by
  induction pieces with
  | nil => simp [join, run, accepts, dropEmptyLast]
  | cons piece pieces ih =>
      rw [List.forall_mem_cons] at noPipe
      cases pieces with
      | nil =>
          rw [join, run_cell noPipe.1]
          cases kept : trim piece with
          | nil => simp [dropEmptyLast, kept, nil_not_mem_dashCell]
          | cons c rest => simp [dropEmptyLast, kept]
      | cons next pieces =>
          have later := ih noPipe.2 (by simpa using ended)
          have nothing : join ['|'] (next :: pieces) = [] ↔
              dropEmptyLast ((next :: pieces).map trim) = [] := by
            rw [join_eq_nil_iff (by simp), List.map_cons, dropEmptyLast_cons_eq_nil_iff,
              List.map_eq_nil_iff]
            refine and_congr_left fun alone => ⟨fun empty => by rw [empty]; rfl, ?_⟩
            subst alone
            exact ended next (by simp)
          have cells : dropEmptyLast ((piece :: next :: pieces).map trim) =
              trim piece :: dropEmptyLast ((next :: pieces).map trim) := dropEmptyLast_cons_cons ..
          rw [join_cons_cons, run_cell_append_pipe noPipe.1, later, nothing, cells,
            List.forall_mem_cons]
          cases dropEmptyLast ((next :: pieces).map trim) <;> simp

/-- The rest of a trimmed line, read from a cell on. -/
theorem run_cell_iff (front : Text) {s : Text} (trimmed : trim (front ++ s) = front ++ s) :
    cell.run s = true ↔ dropEmptyLast ((splitAt '|' s).map trim) ≠ [] ∧
      ∀ cell ∈ dropEmptyLast ((splitAt '|' s).map trim), cell ∈ dashCell := by
  rw [← run_cell_join fun _ => not_mem_of_mem_splitAt, join_splitAt]
  intro last isLast blank
  obtain ⟨before, rfl⟩ := isSuffix_of_mem_getLast? isLast
  rw [← List.append_assoc] at trimmed
  exact eq_nil_of_trim_append trimmed blank

/-- **A line is a separator row just if it has cells and each of them is of dashes.** -/
theorem isSeparator_iff (line : Text) :
    isSeparator line = true ↔ cellsOf line ≠ [] ∧ ∀ cell ∈ cellsOf line, cell ∈ dashCell := by
  have trimmed := trim_trim line
  rw [isSeparator, cellsOf]
  cases whole : trim line with
  | nil => exact iff_of_false (by decide) fun both => both.1 rfl
  | cons c s =>
      rw [whole] at trimmed
      by_cases pipe : c = '|'
      · -- the piece in front of the first pipe is no cell
        subst pipe
        have cells : dropEmptyFirst ((splitAt '|' ('|' :: s)).map trim) =
            (splitAt '|' s).map trim := rfl
        rw [run_start_pipe, cells]
        exact run_cell_iff ['|'] trimmed
      · -- the first piece begins with a visible character
        have visible := isBlank_of_trim_eq_self trimmed
        have cells : dropEmptyFirst ((splitAt '|' (c :: s)).map trim) =
            (splitAt '|' (c :: s)).map trim := by
          obtain ⟨piece, pieces, cut⟩ := List.exists_cons_of_ne_nil (splitAt_ne_nil '|' s)
          have first : trim (c :: piece) = c :: trimEnd piece := by
            rw [trim, trimStart_cons visible, trimEnd_cons visible]
          simp [splitAt, pipe, cut, first, dropEmptyFirst]
        rw [run_start pipe, cells]
        exact run_cell_iff [] trimmed

end SlideDeck.Table
