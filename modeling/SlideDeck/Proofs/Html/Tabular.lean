import SlideDeck.Proofs.Html.Fragment
import SlideDeck.Proofs.Html.Strand
import SlideDeck.Slide.Table

/-!
# Tables on the page, cell by cell

The cells of a row are read back from between ampersands. An ampersand in a strand never ends a
cell, since it is escaped or begins an entity (`Strand.splitCells`), and blanks around a row or
around its cells make no difference (`map_trim_splitCells_trim`). So the row that is written with
some cells has these cells on the page (`rowElement_join`), and a table becomes the element of
its rows (`tabular?_tableText`). Only a row without visible characters is lost, which has to have
a single cell.
-/

set_option autoImplicit false

namespace SlideDeck.Html

open SlideDeck SlideDeck.Text SlideDeck.Latex

/-! ## Cells -/

/-- Of the character before a row only matters whether it is a backslash. -/
theorem splitCellsFrom_congr {p q : Char} (same : (p == '\\') = (q == '\\')) (s : Text) :
    splitCellsFrom p s = splitCellsFrom q s := by
  cases s with
  | nil => rfl
  | cons c s =>
      have ends : endsCell p s = endsCell q s := by simp only [endsCell, bne, same]
      rw [splitCellsFrom, splitCellsFrom, ends]

theorem splitCellsFrom_cons {p c : Char} {s cell : Text} {cells : List Text}
    (inside : (c == '&' && endsCell p s) = false) (behind : splitCellsFrom c s = cell :: cells) :
    splitCellsFrom p (c :: s) = (c :: cell) :: cells := by
  rw [splitCellsFrom, show (decide (c = '&') && endsCell p s) = false from inside, behind]
  rfl

/-- A blank at its end makes no entity out of a text. -/
theorem entityBody_concat {allowed : Char → Bool} {b : Char} (forbidden : allowed b = false)
    (other : b ≠ ';') (s : Text) : entityBody allowed (s ++ [b]) = entityBody allowed s := by
  have last : [b].takeWhile allowed = [] ∧ [b].dropWhile allowed = [b] := by simp [forbidden]
  rw [entityBody, entityBody, List.takeWhile_append, List.dropWhile_append, last.1, last.2]
  cases rest : s.dropWhile allowed with
  | nil =>
      have taken : s.takeWhile allowed = s := by
        have whole := List.takeWhile_append_dropWhile (p := allowed) (l := s)
        rwa [rest, List.append_nil] at whole
      simp [startsWith, List.isPrefixOf, Ne.symm other, taken]
  | cons c rest =>
      have shorter : (s.takeWhile allowed).length ≠ s.length := by
        intro whole
        have both := congrArg List.length (List.takeWhile_append_dropWhile (p := allowed) (l := s))
        rw [List.length_append, rest, whole] at both
        simp at both
      simp [startsWith, List.isPrefixOf, shorter]

theorem isEntityTail_cons {c : Char} (other : c ≠ '#') (s : Text) :
    isEntityTail (c :: s) = entityBody Char.isLower (c :: s) := by
  rw [isEntityTail.eq_def]
  split
  · next same => exact absurd (List.cons.inj same).1 other
  · rfl

theorem isEntityTail_concat {b : Char} (blank : isBlank b = true) (s : Text) :
    isEntityTail (s ++ [b]) = isEntityTail s := by
  have lower : b.isLower = false := by
    by_contra letter
    have bounds := Bool.and_eq_true_iff.mp (Bool.not_eq_false _ ▸ letter)
    have bounds : 97 ≤ b.toNat ∧ b.toNat ≤ 122 :=
      ⟨of_decide_eq_true bounds.1, of_decide_eq_true bounds.2⟩
    exact ne_of_isBlank blank (isBlank_of_printable (by omega) (by omega)) rfl
  have digit : b.isDigit = false := by
    by_contra digit
    have bounds := Bool.and_eq_true_iff.mp (Bool.not_eq_false _ ▸ digit)
    have bounds : 48 ≤ b.toNat ∧ b.toNat ≤ 57 :=
      ⟨of_decide_eq_true bounds.1, of_decide_eq_true bounds.2⟩
    exact ne_of_isBlank blank (isBlank_of_printable (by omega) (by omega)) rfl
  have other : b ≠ ';' := ne_of_isBlank blank (by decide)
  cases s with
  | nil =>
      rw [List.nil_append, isEntityTail_cons (ne_of_isBlank blank (by decide))]
      exact entityBody_concat lower other []
  | cons c s =>
      by_cases numeric : c = '#'
      · subst numeric
        exact entityBody_concat digit other s
      · rw [List.cons_append, isEntityTail_cons numeric, isEntityTail_cons numeric]
        exact entityBody_concat lower other (c :: s)

/-- A blank behind a row is one behind its last cell. -/
theorem splitCellsFrom_concat {b : Char} (blank : isBlank b = true) (p : Char) (s : Text) :
    ∃ front last, splitCellsFrom p s = front ++ [last] ∧
      splitCellsFrom p (s ++ [b]) = front ++ [last ++ [b]] := by
  induction s generalizing p with
  | nil =>
      have inside : (b == '&' && endsCell p []) = false := by
        simp [ne_of_isBlank blank (by decide : isBlank '&' = false)]
      exact ⟨[], [], rfl, splitCellsFrom_cons inside rfl⟩
  | cons c s ih =>
      obtain ⟨front, last, before, after⟩ := ih c
      have same : endsCell p (s ++ [b]) = endsCell p s := by
        rw [endsCell, endsCell, isEntityTail_concat blank]
      rw [List.cons_append]
      cases ends : (c == '&' && endsCell p s) with
      | true =>
          have ended : ∀ t, (c == '&' && endsCell p t) = true →
              splitCellsFrom p (c :: t) = [] :: splitCellsFrom c t := by
            intro t ends
            rw [splitCellsFrom, show (decide (c = '&') && endsCell p t) = true from ends]
            rfl
          refine ⟨[] :: front, last, ?_, ?_⟩
          · rw [ended s ends, before, List.cons_append]
          · rw [ended _ (by rw [same, ends]), after, List.cons_append]
      | false =>
          cases front with
          | nil =>
              refine ⟨[], c :: last, splitCellsFrom_cons ends before, ?_⟩
              exact splitCellsFrom_cons (by rw [same, ends]) after
          | cons first front =>
              refine ⟨(c :: first) :: front, last, splitCellsFrom_cons ends before, ?_⟩
              exact splitCellsFrom_cons (by rw [same, ends]) after

/-- Blanks around a row make no difference to its trimmed cells. -/
theorem map_trim_splitCells_trim (s : Text) :
    (splitCells (trim s)).map trim = (splitCells s).map trim := by
  have start :
      ∀ c s, isBlank c = true → (splitCells (c :: s)).map trim = (splitCells s).map trim := by
    intro c s blank
    have notSlash : c ≠ '\\' := ne_of_isBlank blank (by decide)
    have inside : (c == '&' && endsCell (Char.ofNat 0) s) = false := by
      simp [ne_of_isBlank blank (by decide : isBlank '&' = false)]
    obtain ⟨cell, cells, behind⟩ := List.exists_cons_of_ne_nil (splitCellsFrom_ne_nil c s)
    have same : splitCells s = cell :: cells := by
      refine (splitCellsFrom_congr ?_ s).trans behind
      exact (beq_eq_false_iff_ne.mpr notSlash).symm
    rw [same, splitCells, splitCellsFrom_cons inside behind, List.map_cons, List.map_cons,
      trim_cons_of_blank blank]
  have back :
      ∀ s c, isBlank c = true → (splitCells (s ++ [c])).map trim = (splitCells s).map trim := by
    intro s c blank
    obtain ⟨front, last, before, after⟩ := splitCellsFrom_concat blank (Char.ofNat 0) s
    rw [splitCells, splitCells, before, after, List.map_append, List.map_append, List.map_singleton,
      List.map_singleton, trim_append_of_blank _ blank]
  let trimmed : Text → List Text := fun s => (splitCells s).map trim
  obtain ⟨blanks, whole, areBlank⟩ := exists_blanks_trimEnd (trimStart s)
  have ended : trimmed (trim s ++ blanks) = trimmed (trim s) :=
    apply_append_blanks trimmed back (trim s) areBlank
  rw [trim, ← whole] at ended
  exact ended.symm.trans (apply_trimStart trimmed start s)

/-! ## Cells of strands -/

/-- Whether a text of whole words lies in one cell, whatever stands in front of it. -/
def LiesInCell (s : Text) : Prop :=
  ∀ p, ∃ q, ∀ t cell cells, splitCellsFrom q t = cell :: cells →
    splitCellsFrom p (s ++ t) = (s ++ cell) :: cells

theorem LiesInCell.append {s t : Text} (first : LiesInCell s) (second : LiesInCell t) :
    LiesInCell (s ++ t) := by
  intro p
  obtain ⟨middle, before⟩ := first p
  obtain ⟨q, after⟩ := second middle
  refine ⟨q, fun u cell cells behind => ?_⟩
  rw [List.append_assoc, before _ _ _ (after u cell cells behind), List.append_assoc]

theorem liesInCell_of_not_mem {s : Text} (absent : '&' ∉ s) : LiesInCell s := by
  induction s with
  | nil => exact fun p => ⟨p, fun t cell cells behind => behind⟩
  | cons c s ih =>
      rw [List.mem_cons, not_or] at absent
      intro p
      obtain ⟨q, each⟩ := ih absent.2 c
      refine ⟨q, fun t cell cells behind => splitCellsFrom_cons ?_ (each t cell cells behind)⟩
      rw [beq_eq_false_iff_ne.mpr (Ne.symm absent.1)]
      rfl

theorem liesInCell_entity {tail : Text} (absent : '&' ∉ tail)
    (entity : ∀ t, isEntityTail (tail ++ t) = true) : LiesInCell ('&' :: tail) := by
  intro p
  obtain ⟨q, each⟩ := liesInCell_of_not_mem absent '&'
  refine ⟨q, fun t cell cells behind => splitCellsFrom_cons ?_ (each t cell cells behind)⟩
  simp [endsCell, entity t]

/-- The only words with an ampersand are an escape and entities. -/
theorem liesInCell_word {w : Text} {effect : Effect} (member : (w, effect) ∈ words) :
    LiesInCell w := by
  have each : ∀ entry ∈ words, '&' ∉ entry.1 ∨ entry.1 = "\\&".toList ∨ entry.1 = lessThan ∨
      entry.1 = greaterThan ∨ entry.1 = backslash := by decide
  rcases each (w, effect) member with absent | rfl | rfl | rfl | rfl
  · exact liesInCell_of_not_mem absent
  · exact fun p => ⟨'&', fun t cell cells behind =>
      splitCellsFrom_cons rfl (splitCellsFrom_cons rfl behind)⟩
  · exact liesInCell_entity (by decide) fun t => rfl
  · exact liesInCell_entity (by decide) fun t => rfl
  · exact liesInCell_entity (by decide) fun t => rfl

/-- **A strand lies in one cell.** -/
theorem Strand.liesInCell {depth : Nat} {s : Text} (strand : Strand depth s) : LiesInCell s := by
  induction strand with
  | nil => exact liesInCell_of_not_mem (by simp)
  | @char _ c s text _ ih =>
      have other : '&' ∉ [c] := by
        rw [List.mem_singleton]
        rintro rfl
        exact absurd text (by decide)
      exact (liesInCell_of_not_mem other).append ih
  | word member _ ih => exact (liesInCell_word member).append ih

/-- An ampersand between blanks ends a cell. -/
theorem splitCellsFrom_between (p : Char) {s cell : Text} {cells : List Text}
    (behind : splitCellsFrom ' ' s = cell :: cells) :
    splitCellsFrom p (" & ".toList ++ s) = [' '] :: (' ' :: cell) :: cells := by
  have next : splitCellsFrom '&' (' ' :: s) = (' ' :: cell) :: cells :=
    splitCellsFrom_cons rfl behind
  have ended : splitCellsFrom ' ' ('&' :: ' ' :: s) = [] :: (' ' :: cell) :: cells := by
    rw [splitCellsFrom, ← next]
    rfl
  exact splitCellsFrom_cons rfl ended

/-- The cells of a row of strands. -/
theorem map_trim_splitCells_join {cells : List Text} (nonempty : cells ≠ [])
    (each : ∀ cell ∈ cells, Strand 0 cell) :
    (splitCells (join " & ".toList cells)).map trim = cells.map trim := by
  unfold splitCells
  generalize Char.ofNat 0 = p
  induction cells generalizing p with
  | nil => exact absurd rfl nonempty
  | cons cell cells ih =>
      rw [List.forall_mem_cons] at each
      obtain ⟨q, split⟩ := each.1.liesInCell p
      cases cells with
      | nil =>
          have last := split [] [] [] rfl
          rw [List.append_nil] at last
          rw [join, last]
      | cons next cells =>
          obtain ⟨first, others, behind⟩ := List.exists_cons_of_ne_nil
            (splitCellsFrom_ne_nil ' ' (join " & ".toList (next :: cells)))
          have later := ih (List.cons_ne_nil next cells) each.2 ' '
          rw [behind, List.map_cons] at later
          have whole : join " & ".toList (cell :: next :: cells) =
              cell ++ (" & ".toList ++ join " & ".toList (next :: cells)) := by
            rw [join, List.append_assoc]
          rw [whole, split _ _ _ (splitCellsFrom_between q behind)]
          simp only [List.map_cons]
          rw [trim_append_of_blank cell (by decide), trim_cons_of_blank (by decide), later,
            List.map_cons]

/-! ## Rows -/

/-- A row of a table with its line end. -/
def rowText (cells : List Text) : Text := Table.rowLine cells ++ ['\n']

/-- A row as an element of its cells; `cell` is the name of these. -/
def rowHtml (cell : Text) (cells : List Text) : Text :=
  element "tr".toList (cells.flatMap fun content => element cell (trim content))

/-- The rows with visible characters. -/
def shownRows (rows : List (List Text)) : List (List Text) :=
  rows.filter fun cells => !(trim (join " & ".toList cells)).isEmpty

theorem rowElement_join {cells : List Text} (cell : Text) (nonempty : cells ≠ [])
    (each : ∀ cell ∈ cells, Strand 0 cell) :
    rowElement cell (trim (join " & ".toList cells)) = rowHtml cell cells := by
  have same := (map_trim_splitCells_trim _).trans (map_trim_splitCells_join nonempty each)
  have written : ∀ cells : List Text, cells.flatMap (fun content => element cell (trim content)) =
      (cells.map trim).flatMap (element cell) := fun cells => by rw [List.flatMap_map]
  rw [rowElement, rowHtml, written, written, same]

theorem silent_join {cells : List Text} {name : Text}
    (known : ∀ entry ∈ words, avoids ('\\' :: name) entry.1 = true)
    (each : ∀ cell ∈ cells, Strand 0 cell) :
    Silent (skip? ('\\' :: name)) (join " & ".toList cells) :=
  .join (silent_skip (avoids_of_not_mem (by decide))) fun cell member =>
    (each cell member).silent_skip known

theorem splitOnText_rowEnd {lead : Text} {cells : List Text}
    (blank : ∀ c ∈ lead, isBlank c = true) (each : ∀ cell ∈ cells, Strand 0 cell) (t : Text) :
    splitOnText rowEnd (lead ++ (rowText cells ++ t)) =
      (lead ++ (join " & ".toList cells ++ [' '])) :: splitOnText rowEnd ('\n' :: t) := by
  have front : Silent (skip? rowEnd) lead := by
    refine silent_skip (avoids_of_not_mem fun member => ?_)
    exact absurd (blank _ member) (by decide)
  have row : Silent (skip? rowEnd) (join " & ".toList cells) := silent_join (by decide) each
  have space : Silent (skip? rowEnd) [' '] := silent_skip (by decide)
  have whole : lead ++ (rowText cells ++ t) =
      (lead ++ (join " & ".toList cells ++ [' '])) ++ (rowEnd ++ '\n' :: t) := by
    simp [rowText, Table.rowLine, Table.rowEnd, rowEnd]
  rw [whole]
  exact (front.append (row.append space)).splitOnText_append _

/-- **The rows of a part of a table** are those that were written and have visible characters. -/
theorem rowsOf_rows (lead : Text) {last : Text} {rows : List (List Text)}
    (blankLead : ∀ c ∈ lead, isBlank c = true) (blankLast : ∀ c ∈ last, isBlank c = true)
    (each : ∀ row ∈ rows, ∀ cell ∈ row, Strand 0 cell) :
    rowsOf (lead ++ (rows.flatMap rowText ++ last)) =
      (shownRows rows).map fun cells => trim (join " & ".toList cells) := by
  induction rows generalizing lead with
  | nil =>
      have silent : Silent (skip? rowEnd) (lead ++ last) := by
        refine silent_skip (avoids_of_not_mem fun member => ?_)
        rcases List.mem_append.mp member with member | member
        · exact absurd (blankLead _ member) (by decide)
        · exact absurd (blankLast _ member) (by decide)
      have empty : trim (lead ++ last) = [] := by
        rw [trim_blanks_append blankLead]
        exact trim_append_of_blanks [] blankLast
      rw [rowsOf, List.flatMap_nil, List.nil_append, silent.splitOnText_eq_self,
        List.map_singleton, empty]
      rfl
  | cons row rows ih =>
      rw [List.forall_mem_cons] at each
      have trimmed :
          trim (lead ++ (join " & ".toList row ++ [' '])) = trim (join " & ".toList row) := by
        rw [trim_blanks_append blankLead]
        exact trim_append_of_blank _ (by decide)
      have later := ih ['\n'] (by decide) each.2
      rw [rowsOf] at later
      rw [rowsOf, List.flatMap_cons, List.append_assoc, splitOnText_rowEnd blankLead each.1,
        List.map_cons, trimmed, List.filter_cons, shownRows, List.filter_cons]
      split
      · rw [List.map_cons]
        exact congrArg _ later
      · exact later

theorem rowElements_rows (cell lead : Text) {last : Text} {rows : List (List Text)}
    (blankLead : ∀ c ∈ lead, isBlank c = true) (blankLast : ∀ c ∈ last, isBlank c = true)
    (filled : ∀ row ∈ rows, row ≠ []) (each : ∀ row ∈ rows, ∀ cell ∈ row, Strand 0 cell) :
    rowElements cell (lead ++ (rows.flatMap rowText ++ last)) =
      (shownRows rows).map (rowHtml cell) := by
  rw [rowElements, rowsOf_rows lead blankLead blankLast each, List.map_map]
  refine List.map_congr_left fun row member => ?_
  have isRow : row ∈ rows := (List.mem_filter.mp member).1
  exact rowElement_join cell (filled row isRow) (each row isRow)

/-! ## Tables -/

/-- The rows of a table between its rules. -/
def tableRows (header : List Text) (rows : List (List Text)) : Text :=
  "\n\\toprule\n".toList ++
    (rowText header ++ ("\\midrule\n".toList ++ (rows.flatMap rowText ++ "\\bottomrule\n".toList)))

/-- A table of so many columns, with its cells. -/
def tableText (columns : Nat) (header : List Text) (rows : List (List Text)) : Text :=
  beginEnvironment "tabular".toList ++ (group (List.replicate columns 'l') ++
    (tableRows header rows ++ endEnvironment "tabular".toList))

theorem tableText_append (columns : Nat) (header : List Text) (rows : List (List Text)) (t : Text) :
    tableText columns header rows ++ t =
      beginEnvironment "tabular".toList ++ (group (List.replicate columns 'l') ++
        ("\n\\toprule\n".toList ++ (rowText header ++ ("\\midrule\n".toList ++
          (rows.flatMap rowText ++ ("\\bottomrule\n".toList ++
            (endEnvironment "tabular".toList ++ t))))))) := by
  unfold tableText tableRows
  -- Nothing depends on what the parts are, and unification would look into them.
  generalize beginEnvironment "tabular".toList = begun
  generalize endEnvironment "tabular".toList = ended
  generalize "\n\\toprule\n".toList = top
  generalize "\\midrule\n".toList = middle
  generalize "\\bottomrule\n".toList = bottom
  simp only [List.append_assoc]

/-- The columns are all of one kind. -/
theorem mem_group_columns {c : Char} {columns : Nat}
    (member : c ∈ group (List.replicate columns 'l')) :
    c ∈ "\x7bl\x7d".toList := by
  simp only [group, List.cons_append, List.mem_cons, List.mem_append, List.not_mem_nil,
    or_false] at member
  rcases member with rfl | member | rfl
  · decide
  · rw [List.eq_of_mem_replicate member]
    decide
  · decide

/-- The table as an element. -/
def tableHtml (header : List Text) (rows : List (List Text)) : Text :=
  openTag "table".toList ++ '\n' ::
    unlines ((shownRows [header]).map (rowHtml "th".toList) ++
      (shownRows rows).map (rowHtml "td".toList)) ++
    '\n' :: closeTag "table".toList

section Table

variable {header : List Text} {rows : List (List Text)}

/-- What begins no rule and no end of a table is not in its rows. -/
theorem silent_rowText {name : Text} {cells : List Text}
    (known : ∀ entry ∈ words, avoids ('\\' :: name) entry.1 = true)
    (ending : avoids ('\\' :: name) " \\\\\n".toList = true)
    (each : ∀ cell ∈ cells, Strand 0 cell) :
    Silent (skip? ('\\' :: name)) (rowText cells) := by
  have whole : rowText cells = join " & ".toList cells ++ " \\\\\n".toList := by
    simp [rowText, Table.rowLine, Table.rowEnd]
  rw [whole]
  exact (silent_join known each).append (silent_skip ending)

theorem silent_rows {name : Text} (known : ∀ entry ∈ words, avoids ('\\' :: name) entry.1 = true)
    (ending : avoids ('\\' :: name) " \\\\\n".toList = true)
    (each : ∀ row ∈ rows, ∀ cell ∈ row, Strand 0 cell) :
    Silent (skip? ('\\' :: name)) (rows.flatMap rowText) :=
  .flatMap fun row member => silent_rowText known ending (each row member)

theorem removeAny_tableRows (eachHeader : ∀ cell ∈ header, Strand 0 cell)
    (each : ∀ row ∈ rows, ∀ cell ∈ row, Strand 0 cell) :
    removeAny tableRules (tableRows header rows) =
      "\n\n".toList ++ (rowText header ++ ("\\midrule\n".toList ++
        (rows.flatMap rowText ++ "\n".toList))) := by
  have goesOn : ∀ {s}, (∀ rule ∈ tableRules, Silent (skip? rule) s) → ∀ t,
      removeAny tableRules (s ++ t) = s ++ removeAny tableRules t :=
    fun each t => ((Silent.findSome? each).map _).substitute_append t
  have removed :
      ∀ rule ∈ tableRules, ∀ t, removeAny tableRules (rule ++ t) = removeAny tableRules t := by
    intro rule member t
    have nonempty : rule ≠ [] := (by decide : ∀ rule ∈ tableRules, rule ≠ []) rule member
    change substitute _ (rule ++ t) = [] ++ substitute _ t
    refine substitute_append_of_some ?_ nonempty
    simp only [tableRules, List.mem_cons, List.not_mem_nil, or_false] at member
    rcases member with rfl | rfl | rfl <;> rfl
  have written : tableRows header rows = "\n".toList ++ ("\\toprule".toList ++ ("\n".toList ++
      (rowText header ++ ("\\midrule\n".toList ++ (rows.flatMap rowText ++
        ("\\bottomrule".toList ++ ("\n".toList ++ []))))))) := rfl
  have newline :
      ∀ t, removeAny tableRules ("\n".toList ++ t) = "\n".toList ++ removeAny tableRules t :=
    goesOn fun rule member => silent_skip ((by decide : ∀ rule ∈ tableRules,
      avoids rule "\n".toList = true) rule member)
  have middle : ∀ t, removeAny tableRules ("\\midrule\n".toList ++ t) =
      "\\midrule\n".toList ++ removeAny tableRules t :=
    goesOn fun rule member => silent_skip ((by decide : ∀ rule ∈ tableRules,
      avoids rule "\\midrule\n".toList = true) rule member)
  have data : ∀ rows : List (List Text), (∀ row ∈ rows, ∀ cell ∈ row, Strand 0 cell) → ∀ t,
      removeAny tableRules (rows.flatMap rowText ++ t) = rows.flatMap rowText ++
        removeAny tableRules t := by
    intro rows each
    refine goesOn fun rule member => ?_
    simp only [tableRules, List.mem_cons, List.not_mem_nil, or_false] at member
    rcases member with rfl | rfl | rfl <;> exact silent_rows (by decide) (by decide) each
  have head := data [header] (List.forall_mem_singleton.mpr eachHeader)
  rw [List.flatMap_singleton] at head
  rw [written, newline, removed _ (by decide), newline, head, middle, data rows each,
    removed _ (by decide), newline]
  rfl

/-- **A table becomes the element of its rows.** -/
theorem tableElement_tableRows (someHeader : header ≠ []) (filled : ∀ row ∈ rows, row ≠ [])
    (eachHeader : ∀ cell ∈ header, Strand 0 cell)
    (each : ∀ row ∈ rows, ∀ cell ∈ row, Strand 0 cell) :
    tableElement (tableRows header rows) = tableHtml header rows := by
  have blank : ∀ c ∈ "\n\n".toList, isBlank c = true := by decide
  have newline : ∀ c ∈ "\n".toList, isBlank c = true := by decide
  have front : Silent (skip? middleRule) ("\n\n".toList ++ rowText header) :=
    (silent_skip (by decide)).append (silent_rowText (by decide) (by decide) eachHeader)
  have back : Silent (skip? middleRule) ("\n".toList ++ (rows.flatMap rowText ++ "\n".toList)) :=
    (silent_skip (by decide)).append
      ((silent_rows (by decide) (by decide) each).append (silent_skip (by decide)))
  have rule : ∀ t, "\\midrule\n".toList ++ t = middleRule ++ ("\n".toList ++ t) := fun t => rfl
  have parts : splitOnText middleRule (removeAny tableRules (tableRows header rows)) =
      ["\n\n".toList ++ rowText header, "\n".toList ++ (rows.flatMap rowText ++ "\n".toList)] := by
    rw [removeAny_tableRows eachHeader each, rule, ← List.append_assoc, ← back.splitOnText_eq_self]
    exact front.splitOnText_append _
  have top : rowElements "th".toList ("\n\n".toList ++ rowText header) =
      (shownRows [header]).map (rowHtml "th".toList) := by
    have rows := rowElements_rows "th".toList "\n\n".toList blank (List.forall_mem_nil _)
      (List.forall_mem_singleton.mpr someHeader) (List.forall_mem_singleton.mpr eachHeader)
    simpa using rows
  have bottom := rowElements_rows "td".toList "\n".toList newline newline filled each
  have both : ∀ header data, partElements [header, data] =
      rowElements "th".toList header ++ rowElements "td".toList data := by
    intro header data
    rw [← List.flatMap_singleton (rowElements "td".toList) data]
    rfl
  rw [tableElement, parts, both, top, bottom, tableHtml]

theorem silent_tableRows {name : Text}
    (known : ∀ entry ∈ words, avoids ('\\' :: name) entry.1 = true)
    (fixed : ∀ part ∈ ["\n\\toprule\n".toList, "\\midrule\n".toList, "\\bottomrule\n".toList,
      " \\\\\n".toList], avoids ('\\' :: name) part = true)
    (eachHeader : ∀ cell ∈ header, Strand 0 cell)
    (each : ∀ row ∈ rows, ∀ cell ∈ row, Strand 0 cell) :
    Silent (skip? ('\\' :: name)) (tableRows header rows) := by
  have ending := fixed " \\\\\n".toList (by decide)
  have data := (silent_rows known ending each).append
    (silent_skip (fixed "\\bottomrule\n".toList (by decide)))
  have middle := (silent_skip (fixed "\\midrule\n".toList (by decide))).append data
  exact (silent_skip (fixed "\n\\toprule\n".toList (by decide))).append
    ((silent_rowText known ending eachHeader).append middle)

theorem tabular?_tableText (columns : Nat) (someHeader : header ≠ [])
    (filled : ∀ row ∈ rows, row ≠ [])
    (eachHeader : ∀ cell ∈ header, Strand 0 cell) (each : ∀ row ∈ rows, ∀ cell ∈ row, Strand 0 cell)
    (t : Text) :
    tabular? (tableText columns header rows ++ t) = some (tableHtml header rows, t) := by
  have begun : skip? (beginEnvironment "tabular".toList) (tableText columns header rows ++ t) =
      some (group (List.replicate columns 'l') ++
        (tableRows header rows ++ endEnvironment "tabular".toList ++ t)) := by
    rw [skip?_eq_some_iff]
    simp only [tableText, List.append_assoc]
  have argument : braced? (group (List.replicate columns 'l') ++
      (tableRows header rows ++ endEnvironment "tabular".toList ++ t)) =
        some (List.replicate columns 'l',
          tableRows header rows ++ endEnvironment "tabular".toList ++ t) := by
    have absent : '\x7d' ∉ List.replicate columns 'l' := fun member =>
      absurd (List.eq_of_mem_replicate member) (by decide)
    have whole : ∀ t, group (List.replicate columns 'l') ++ t =
        '\x7b' :: (List.replicate columns 'l' ++ '\x7d' :: t) := fun t => by simp [group]
    rw [whole, braced?]
    exact splitOnce_append absent _
  have body : splitOnText? (endEnvironment "tabular".toList)
      (tableRows header rows ++ endEnvironment "tabular".toList ++ t) =
        some (tableRows header rows, t) := by
    have silent : Silent (skip? (endEnvironment "tabular".toList)) (tableRows header rows) :=
      silent_tableRows (by decide) (by decide) eachHeader each
    rw [List.append_assoc]
    exact silent.splitOnText?_append t
  simp only [tabular?, begun, argument, body, Option.bind_some, Option.map_some,
    tableElement_tableRows someHeader filled eachHeader each]

end Table

/-! ## Tables are strands -/

theorem strand_element {name body : Text} (member : name ∈ inlineNames ++ blockNames)
    (strand : Strand 0 body) : Strand 0 (element name body) := by
  have tags : ∀ name ∈ inlineNames ++ blockNames,
      openTag name ∈ levelWords ∧ closeTag name ∈ levelWords := by decide
  obtain ⟨opens, closes⟩ := tags name member
  exact ((Strand.of_level opens).inside strand).inside (.of_level closes)

theorem strand_unlines {ls : List Text} (each : ∀ line ∈ ls, Strand 0 line) :
    Strand 0 (unlines ls) := by
  induction ls with
  | nil => exact .nil
  | cons line ls ih =>
      rw [List.forall_mem_cons] at each
      cases ls with
      | nil => exact each.1
      | cons next ls =>
          rw [unlines_cons_cons]
          exact each.1.inside (.char (by decide) (ih each.2))

theorem strand_rowHtml {cell : Text} {cells : List Text} (member : cell ∈ blockNames)
    (each : ∀ cell ∈ cells, Strand 0 cell) : Strand 0 (rowHtml cell cells) := by
  refine strand_element (by decide) ?_
  rw [List.flatMap_def]
  refine .flatten fun piece isPiece => ?_
  obtain ⟨content, isCell, rfl⟩ := List.mem_map.mp isPiece
  exact strand_element (List.mem_append_right _ member) (each content isCell).trim

theorem strand_tableHtml {header : List Text} {rows : List (List Text)}
    (eachHeader : ∀ cell ∈ header, Strand 0 cell)
    (each : ∀ row ∈ rows, ∀ cell ∈ row, Strand 0 cell) :
    Strand 0 (tableHtml header rows) := by
  have lines : Strand 0 (unlines ((shownRows [header]).map (rowHtml "th".toList) ++
      (shownRows rows).map (rowHtml "td".toList))) := by
    refine strand_unlines fun line member => ?_
    rcases List.mem_append.mp member with member | member
    · obtain ⟨row, shown, rfl⟩ := List.mem_map.mp member
      rw [List.mem_singleton.mp (List.mem_filter.mp shown).1]
      exact strand_rowHtml (by decide) eachHeader
    · obtain ⟨row, shown, rfl⟩ := List.mem_map.mp member
      exact strand_rowHtml (by decide) (each row (List.mem_filter.mp shown).1)
  have opened : Strand 0 (openTag "table".toList) := .of_level (by decide)
  have closed : Strand 0 (closeTag "table".toList) := .of_level (by decide)
  rw [tableHtml, List.append_assoc]
  exact opened.inside (.char (by decide) (lines.inside (.char (by decide) closed)))

end SlideDeck.Html
