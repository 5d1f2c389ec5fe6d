import SlideDeck.Proofs.Html.Cell

/-!
# Tables on the page as grids

A table on the page is a grid: one row of cells for the header, and one for each row of data
(`grid`). The last conversions of a fragment convert it cell by cell (`Cellwise.grid`): in its
cells, commands with an argument end where they began, and behind these nothing that is looked for
reaches across the brackets of a tag.

A table of formatted texts stands centered on its page (`centered`). What comes before the tables
works line by line, and inside of lines from blank to blank; so a conversion of the text of the
table is one of its cells. In the end the fragment is the grid of the cells (`fragment_centered`).
-/

set_option autoImplicit false

namespace SlideDeck.Html

open SlideDeck SlideDeck.Text SlideDeck.Latex

/-! ## Grids -/

/-- A row of a table; `cell` is the name of its cells. -/
def gridRow (cell : Text) (contents : List Text) : Text :=
  element "tr".toList (contents.flatMap (element cell))

/-- A table with a row of header cells and rows of data cells, each row on a line of its own. -/
def grid (head : List Text) (body : List (List Text)) : Text :=
  openTag "table".toList ++
    ((gridRow "th".toList head :: body.map (gridRow "td".toList)).flatMap ('\n' :: ·) ++
      '\n' :: closeTag "table".toList)

/-- What stands between the cells of a grid. -/
def gridTexts : List Text := [
  openTag "table".toList, '\n' :: openTag "tr".toList, openTag "th".toList, closeTag "th".toList,
  openTag "td".toList, closeTag "td".toList, closeTag "tr".toList, '\n' :: closeTag "table".toList]

/-- A conversion of the cells of grids. -/
structure Cellwise (inside : Text → Prop) (convert : Text → Text) : Prop where
  fixed : ∀ part ∈ gridTexts, ∀ t, convert (part ++ t) = part ++ convert t
  cell : ∀ {s}, inside s → ∀ t, convert (s ++ '<' :: t) = convert s ++ convert ('<' :: t)

namespace Cellwise

variable {inside : Text → Prop} {convert : Text → Text} {contents head : List Text}
  {body : List (List Text)}

theorem element (cellwise : Cellwise inside convert) {name s : Text}
    (known : name ∈ ["th".toList, "td".toList]) (isInside : inside s) (t : Text) :
    convert (Html.element name s ++ t) = Html.element name (convert s) ++ convert t := by
  have tags : openTag name ∈ gridTexts ∧ closeTag name ∈ gridTexts :=
    (by decide : ∀ name ∈ ["th".toList, "td".toList],
      openTag name ∈ gridTexts ∧ closeTag name ∈ gridTexts) name known
  have behind : convert (s ++ (closeTag name ++ t)) = convert s ++ convert (closeTag name ++ t) :=
    cellwise.cell isInside _
  rw [Html.element, List.append_assoc, List.append_assoc, cellwise.fixed _ tags.1, behind,
    cellwise.fixed _ tags.2, Html.element, List.append_assoc, List.append_assoc]

theorem gridRow (cellwise : Cellwise inside convert) {name : Text}
    (known : name ∈ ["th".toList, "td".toList]) (each : ∀ s ∈ contents, inside s) (t : Text) :
    convert ('\n' :: (Html.gridRow name contents ++ t)) =
      '\n' :: (Html.gridRow name (contents.map convert) ++ convert t) := by
  have cells : convert (contents.flatMap (Html.element name) ++ (closeTag "tr".toList ++ t)) =
      (contents.map convert).flatMap (Html.element name) ++
        convert (closeTag "tr".toList ++ t) := by
    induction contents with
    | nil => rfl
    | cons s contents ih =>
        rw [List.forall_mem_cons] at each
        rw [List.flatMap_cons, List.append_assoc, cellwise.element known each.1, ih each.2,
          List.map_cons, List.flatMap_cons, List.append_assoc]
  have whole : ∀ contents t, '\n' :: (Html.gridRow name contents ++ t) =
      ('\n' :: openTag "tr".toList) ++ (contents.flatMap (Html.element name) ++
        (closeTag "tr".toList ++ t)) := by
    intro contents t
    simp only [Html.gridRow, Html.element, List.cons_append, List.append_assoc]
  rw [whole, cellwise.fixed _ (by decide), cells, cellwise.fixed _ (by decide), whole]

/-- **A grid is converted cell by cell.** -/
theorem grid (cellwise : Cellwise inside convert) (eachHead : ∀ s ∈ head, inside s)
    (each : ∀ row ∈ body, ∀ s ∈ row, inside s) (t : Text) :
    convert (Html.grid head body ++ t) =
      Html.grid (head.map convert) (body.map fun row => row.map convert) ++ convert t := by
  have rows : ∀ u, convert ((body.map (Html.gridRow "td".toList)).flatMap ('\n' :: ·) ++ u) =
      ((body.map fun row => row.map convert).map (Html.gridRow "td".toList)).flatMap ('\n' :: ·) ++
        convert u := by
    intro u
    induction body with
    | nil => rfl
    | cons row body ih =>
        rw [List.forall_mem_cons] at each
        simp only [List.map_cons, List.flatMap_cons, List.cons_append, List.append_assoc]
        rw [cellwise.gridRow (by decide) each.1, ih each.2]
  have ended := cellwise.fixed ('\n' :: closeTag "table".toList) (by decide) t
  simp only [Html.grid, List.flatMap_cons, List.cons_append, List.append_assoc] at ended ⊢
  rw [cellwise.fixed _ (by decide), cellwise.gridRow (by decide) eachHead, rows, ended]

theorem grid_alone (cellwise : Cellwise inside convert) (nil : convert [] = [])
    (eachHead : ∀ s ∈ head, inside s) (each : ∀ row ∈ body, ∀ s ∈ row, inside s) :
    convert (Html.grid head body) = Html.grid (head.map convert)
      (body.map fun row => row.map convert) :=
  eq_of_append (cellwise.grid eachHead each) nil

/-- What reaches across no bracket of a tag works cell by cell. -/
theorem of_breaksAt (less : BreaksAt '<' convert) (greater : BreaksAt '>' convert)
    (fronts : ∀ part ∈ gridTexts, convert part.dropLast = part.dropLast) :
    Cellwise (fun _ => True) convert where
  fixed part member t := by
    have ends : part.dropLast ++ ['>'] = part :=
      (by decide : ∀ part ∈ gridTexts, part.dropLast ++ ['>'] = part) part member
    rw [← ends, List.append_assoc, List.singleton_append, greater.around, fronts part member,
      List.append_assoc, List.singleton_append]
  cell _ t := by rw [less.around, less.cons]

end Cellwise

theorem cellwise_dropArguments : Cellwise (Strand 0) dropArguments where
  fixed part member t := by
    have plain : ∀ part ∈ gridTexts, commandless part = true := by decide
    have strands : ∀ part ∈ gridTexts, part.takeWhile isBlank ++ part.dropWhile isBlank = part ∧
        part.dropWhile isBlank ∈ levelWords := by decide
    have strand : Strand 0 part := by
      rw [← (strands part member).1]
      exact (strand_blanks fun c inside => List.mem_takeWhile_imp inside).inside
        (.of_level (strands part member).2)
    rw [dropArguments_append strand, dropArguments_of_commandless (plain part member)]
  cell strand t := dropArguments_append strand _

theorem cellwise_unwrap : Cellwise (fun _ => True) unwrap :=
  .of_breaksAt (breaksAt_unwrap (by decide)) (breaksAt_unwrap (by decide)) (by decide)

theorem cellwise_collapseGaps : Cellwise (fun _ => True) collapseGaps :=
  .of_breaksAt (breaksAt_collapseGaps (by decide)) (breaksAt_collapseGaps (by decide)) (by decide)

/-! ## From rows to grids -/

/-- Where all rows have two cells or more, all of them are on the page. -/
theorem tableHtml_eq_grid {header : List Text} {rows : List (List Text)} (two : 2 ≤ header.length)
    (each : ∀ row ∈ rows, 2 ≤ row.length) :
    tableHtml header rows = grid (header.map trim) (rows.map fun row => row.map trim) := by
  have shown : ∀ {rows : List (List Text)}, (∀ row ∈ rows, 2 ≤ row.length) →
      shownRows rows = rows := by
    intro rows each
    refine List.filter_eq_self.mpr fun row member => ?_
    have two := each row member
    have ampersand : '&' ∈ trim (join " & ".toList row) := by
      refine mem_trim (by decide) ?_
      cases row with
      | nil => simp at two
      | cons first cells =>
          cases cells with
          | nil => simp at two
          | cons second cells => simp [join]
    rw [Bool.not_eq_true']
    exact List.isEmpty_eq_false_iff.mpr (List.ne_nil_of_mem ampersand)
  have single : shownRows [header] = [header] := shown (List.forall_mem_singleton.mpr two)
  have row : ∀ name cells, rowHtml name cells = gridRow name (cells.map trim) := by
    intro name cells
    rw [rowHtml, gridRow, List.flatMap_map]
  have lined :
      ∀ (line : Text) ls, '\n' :: unlines (line :: ls) = (line :: ls).flatMap ('\n' :: ·) := by
    intro line ls
    induction ls generalizing line with
    | nil => simp [unlines, join]
    | cons next ls ih =>
        rw [unlines_cons_cons, ih, List.flatMap_cons]
        rfl
  have data : rows.map (rowHtml "td".toList) =
      (rows.map fun row => row.map trim).map (gridRow "td".toList) := by
    rw [List.map_map]
    exact List.map_congr_left fun cells _ => row _ cells
  rw [tableHtml, grid, single, shown each, data, List.map_singleton, row, List.singleton_append,
    ← lined, List.append_assoc]

/-! ## Centered tables -/

section Cells

variable {P Q : Text → Prop} {convert : Text → Text} (step : ∀ {s}, P s → Q (convert s))

include step

theorem forall_mem_cells {cells : List Text} (each : ∀ cell ∈ cells, P cell) :
    ∀ cell ∈ cells.map convert, Q cell :=
  List.forall_mem_map.mpr fun cell member => step (each cell member)

theorem forall_mem_rows {rows : List (List Text)} (each : ∀ row ∈ rows, ∀ cell ∈ row, P cell) :
    ∀ row ∈ rows.map fun row => row.map convert, ∀ cell ∈ row, Q cell :=
  List.forall_mem_map.mpr fun row member => forall_mem_cells step (each row member)

end Cells

/-- The lines of a table that is centered on the page. -/
def centered (columns : Nat) (header : List Text) (rows : List (List Text)) : List Text :=
  beginEnvironment "center".toList ::
    (tableLines columns header rows ++ [endEnvironment "center".toList])

/-- What stands in front of a centered table. -/
def centerOpening : Text := beginEnvironment "center".toList ++ ['\n']

/-- What stands behind a centered table. -/
def centerClosing : Text := '\n' :: endEnvironment "center".toList

section Centered

variable {columns : Nat} {header : List Text} {rows : List (List Text)}

theorem unlines_centered : unlines (centered columns header rows) =
    centerOpening ++ (tableText columns header rows ++ centerClosing) := by
  have spec : tableLines columns header rows ≠ [] := List.cons_ne_nil _ _
  obtain ⟨line, ls, same⟩ := List.exists_cons_of_ne_nil spec
  have first : unlines (centered columns header rows) =
      centerOpening ++ unlines (tableLines columns header rows ++
        [endEnvironment "center".toList]) := by
    rw [centered, same, List.cons_append, unlines_cons_cons, centerOpening, List.append_assoc]
    rfl
  rw [first, unlines_append spec (List.cons_ne_nil _ []), unlines_tableLines]
  rfl

/-- A conversion of the lines of a centered table that works inside its cells. -/
theorem map_centered {convert : Text → Text} (breaks : BreaksAt ' ' convert)
    (between : convert ['&'] = ['&']) (ended : convert "\\\\".toList = "\\\\".toList)
    (center : convert (beginEnvironment "center".toList) = beginEnvironment "center".toList ∧
      convert (endEnvironment "center".toList) = endEnvironment "center".toList)
    (spec : convert (beginEnvironment "tabular".toList ++ group (List.replicate columns 'l')) =
      beginEnvironment "tabular".toList ++ group (List.replicate columns 'l'))
    (rules : ∀ line ∈ ["\\toprule".toList, "\\midrule".toList, "\\bottomrule".toList,
      endEnvironment "tabular".toList], convert line = line) :
    (centered columns header rows).map convert =
      centered columns (header.map convert) (rows.map fun row => row.map convert) := by
  rw [centered, List.map_cons, List.map_append, List.map_singleton, center.1, center.2,
    map_tableLines spec rules (convert_rowLine breaks between ended), centered]

theorem escapeAngles_centered : escapeAngles (unlines (centered columns header rows)) =
    unlines (centered columns (header.map escapeAngles)
      (rows.map fun row => row.map escapeAngles)) := by
  rw [wordwise_escapeAngles.unlines, map_centered (wordwise_escapeAngles.breaksAt (by decide))
    (by decide) (by decide) (by decide) (escapeAngles_tabular columns) (by decide)]

theorem convertEnds_centered : convertEnds (unlines (centered columns header rows)) =
    unlines (centered columns (header.map convertEnds)
      (rows.map fun row => row.map convertEnds)) := by
  rw [wordwise_convertEnds.unlines, map_centered (wordwise_convertEnds.breaksAt (by decide))
    (by decide)
    (by decide) (by decide) (convertEnds_tabular columns) (by decide)]

/-- Whether a line ends in a visible character. -/
def endsVisibly (line : Text) : Bool := line.getLast?.any fun c => !isBlank c

/-- Such a line leaves the end of the line as it is. -/
theorem plainEnds_visible {line : Text} (visible : endsVisibly line = true) (t : Text) :
    plainEnds (line ++ '\n' :: t) = plainEnds line ++ '\n' :: plainEnds t := by
  rcases List.eq_nil_or_concat line with rfl | ⟨s, c, rfl⟩
  · cases visible
  · rw [List.concat_eq_append, endsVisibly, List.getLast?_concat, Option.any_some,
      Bool.not_eq_true'] at visible
    have breaks : BreaksAt c plainEnds := by
      refine .replace (fun member => ?_) ['\n']
      rw [(by decide : ∀ d ∈ "\r\n".toList, isBlank d = true) c member] at visible
      cases visible
    have newline : plainEnds ('\n' :: t) = '\n' :: plainEnds t := plainEnds_line List.not_mem_nil t
    rw [List.concat_eq_append, breaks.concat, List.append_assoc, List.singleton_append,
      breaks.around, newline, List.append_assoc, List.singleton_append]

theorem endsVisibly_centered : ∀ line ∈ centered columns header rows, endsVisibly line = true := by
  have row : ∀ cells, endsVisibly (Table.rowLine cells) = true := by
    intro cells
    rw [endsVisibly, Table.rowLine, List.getLast?_append]
    rfl
  have spec : endsVisibly
      (beginEnvironment "tabular".toList ++ group (List.replicate columns 'l')) = true := by
    rw [endsVisibly, group, List.getLast?_append, List.getLast?_append]
    rfl
  have table : ∀ line ∈ tableLines columns header rows, endsVisibly line = true :=
    forall_mem_tableLines spec (by decide) (row header) fun cells _ => row cells
  intro line member
  rw [centered, List.mem_cons, List.mem_append, List.mem_singleton] at member
  rcases member with rfl | inside | rfl
  · decide
  · exact table line inside
  · decide

theorem plainEnds_centered : plainEnds (unlines (centered columns header rows)) =
    unlines (centered columns (header.map plainEnds) (rows.map fun row => row.map plainEnds)) := by
  have spec : plainEnds (beginEnvironment "tabular".toList ++ group (List.replicate columns 'l')) =
      beginEnvironment "tabular".toList ++ group (List.replicate columns 'l') := by
    refine plainEnds_of_not_mem fun member => ?_
    rcases List.mem_append.mp member with member | member
    · exact absurd member (by decide)
    · exact absurd (mem_group_columns member) (by decide)
  have breaks : BreaksAt ' ' plainEnds := .replace (by decide) ['\n']
  have lineByLine : ∀ line ∈ centered columns header rows, ∀ t,
      plainEnds (line ++ '\n' :: t) = plainEnds line ++ '\n' :: plainEnds t :=
    fun line member => plainEnds_visible (endsVisibly_centered line member)
  rw [convert_unlines rfl lineByLine, map_centered breaks (by decide) (by decide) (by decide)
    spec (by decide)]

/-! ## The page of a table -/

theorem strand_centerOpening : Strand 0 centerOpening :=
  Strand.inside (.of_level (by decide)) (.of_text (by decide))

theorem strand_centerClosing : Strand 0 centerClosing :=
  .char (by decide) (.of_level (by decide))

section Strands

variable (eachHeader : ∀ cell ∈ header, Strand 0 cell)
  (each : ∀ row ∈ rows, ∀ cell ∈ row, Strand 0 cell)

include eachHeader each

theorem convertItems_centered :
    convertItems (unlines (centered columns header rows)) =
      unlines (centered columns header rows) := by
  have table : Silent itemCommand (tableText columns header rows) :=
    (silent_tableText (by decide) (by decide) eachHeader each).bind _
  have silent : Silent itemCommand (unlines (centered columns header rows)) := by
    rw [unlines_centered]
    exact strand_centerOpening.silent_itemCommand.append
      (table.append strand_centerClosing.silent_itemCommand)
  exact silent.substitute_eq_self

/-- There is no table in a cell. -/
theorem occurrences_tabular_centered :
    occurrences (beginEnvironment "tabular".toList)
      (unlines (centered columns header rows)) = 1 := by
  have spec :
      Silent (skip? (beginEnvironment "tabular".toList)) (group (List.replicate columns 'l')) := by
    refine silent_skip (avoids_of_not_mem fun member => ?_)
    exact absurd (mem_group_columns member) (by decide)
  have inner : Silent (skip? (beginEnvironment "tabular".toList)) (tableRows header rows) :=
    silent_tableRows (by decide) (by decide) eachHeader each
  have ended :
      Silent (skip? (beginEnvironment "tabular".toList)) (endEnvironment "tabular".toList) :=
    silent_skip (by decide)
  have opening : Silent (skip? (beginEnvironment "tabular".toList)) centerOpening :=
    strand_centerOpening.silent_skip (by decide)
  have closing : Silent (skip? (beginEnvironment "tabular".toList)) centerClosing :=
    strand_centerClosing.silent_skip (by decide)
  have behind := ((spec.append (inner.append ended)).append closing).occurrences_append []
  rw [List.append_nil] at behind
  rw [unlines_centered, opening.occurrences_append, tableText, List.append_assoc]
  exact (occurrences_append_self '\\' _ _).trans (congrArg (· + 1) behind)

/-- What works inside of strands works inside of the cells. -/
theorem Weaves.centered {convert : Text → Text} (weaves : Weaves true convert)
    (opening : convert centerOpening = centerOpening)
    (closing : convert centerClosing = centerClosing) :
    convert (unlines (centered columns header rows)) =
      unlines (Html.centered columns (header.map convert)
        (rows.map fun row => row.map convert)) := by
  rw [unlines_centered, unlines_centered, weaves.append strand_centerOpening,
    weaves.tableText columns eachHeader each, opening, closing]

theorem takeListings_centered (someHeader : header ≠ []) (filled : ∀ row ∈ rows, row ≠ []) :
    takeListings (unlines (centered columns header rows)) =
      (unlines (centered columns header rows), []) := by
  have behind : Woven true (centerClosing ++ []) [] := .strand strand_centerClosing .nil
  rw [List.append_nil] at behind
  have woven : Woven true (unlines (centered columns header rows)) [] := by
    rw [unlines_centered]
    exact .strand strand_centerOpening (.table rfl someHeader filled eachHeader each behind)
  exact woven.takeListings_eq

theorem dropComments_centered :
    dropComments (unlines (centered columns header rows)) =
      unlines (centered columns header rows) := by
  have kept : ∀ {cells : List Text}, (∀ cell ∈ cells, Strand 0 cell) →
      cells.map dropComments = cells := fun strands =>
    (List.map_congr_left fun cell member => (strands cell member).dropComments_eq_self).trans
      (List.map_id _)
  have keptRows : (rows.map fun row => row.map dropComments) = rows :=
    (List.map_congr_left fun row member => kept (each row member)).trans (List.map_id _)
  rw [weaves_dropComments.centered eachHeader each (by decide) (by decide),
    kept eachHeader, keptRows]

theorem convertTables_centered (someHeader : header ≠ []) (filled : ∀ row ∈ rows, row ≠ []) :
    convertTables (unlines (centered columns header rows)) =
      centerOpening ++ (tableHtml header rows ++ centerClosing) := by
  have passes : ∀ {s}, Strand 0 s → ∀ t, convertTables (s ++ t) = s ++ convertTables t :=
    fun strand t =>
    ((strand.silent_skip (by decide)).bind _).substitute_append t
  have found := tabular?_tableText columns someHeader filled eachHeader each centerClosing
  have nonempty : tableText columns header rows ≠ [] := by
    simp [tableText, beginEnvironment, command]
  rw [unlines_centered, passes strand_centerOpening]
  refine congrArg (centerOpening ++ ·) ((substitute_append_of_some found nonempty).trans ?_)
  exact congrArg _ strand_centerClosing.convertTables_eq_self

end Strands

/-- The last conversions center no more, and work inside of the cells. -/
theorem trim_finish_centered (eachHeader : ∀ cell ∈ header, Strand 0 cell)
    (each : ∀ row ∈ rows, ∀ cell ∈ row, Strand 0 cell) :
    trim (finish (centerOpening ++ (grid header rows ++ centerClosing))) =
      grid (header.map finish) (rows.map fun row => row.map finish) := by
  have dropped : dropArguments (centerOpening ++ (grid header rows ++ centerClosing)) =
      '\n' :: (grid (header.map dropArguments)
        (rows.map fun row => row.map dropArguments) ++ ['\n']) := by
    have opening : dropArguments centerOpening = ['\n'] := by decide +kernel
    have closing : dropArguments centerClosing = ['\n'] := by decide +kernel
    rw [dropArguments_append strand_centerOpening, cellwise_dropArguments.grid eachHeader each,
      opening, closing]
    rfl
  have newline := breaksAt_unwrap (by decide : isBoundary '\n' = true)
  have around : ∀ head body, trim ('\n' :: (grid head body ++ ['\n'])) = grid head body := by
    intro head body
    have shape : grid head body = '<' :: ("table>".toList ++
        ((gridRow "th".toList head :: body.map (gridRow "td".toList)).flatMap ('\n' :: ·) ++
          "\n</table".toList) ++ ['>']) := by
      simp [grid, openTag, closeTag]
    rw [trim_cons_of_blank (by decide), trim_append_of_blank _ (by decide), shape]
    exact trim_between (by decide) (by decide) _
  rw [finish, dropped, newline.cons, newline.concat, trim_collapseGaps,
    cellwise_unwrap.grid_alone rfl (fun _ _ => trivial) fun _ _ _ _ => trivial, around,
    cellwise_collapseGaps.grid_alone rfl (fun _ _ => trivial) fun _ _ _ _ => trivial]
  simp only [List.map_map, Function.comp_def]
  rfl

theorem someCells {cells : List Text} (two : 2 ≤ cells.length) : cells ≠ [] :=
  List.ne_nil_of_length_pos (by omega)

theorem trim_convertRest_centered (two : 2 ≤ header.length) (twoEach : ∀ row ∈ rows, 2 ≤ row.length)
    (eachHeader : ∀ cell ∈ header, Strand 0 cell)
    (each : ∀ row ∈ rows, ∀ cell ∈ row, Strand 0 cell) :
    trim (convertRest (unlines (centered columns header rows))) =
      grid (header.map fun cell => finish (trim cell))
        (rows.map fun row => row.map fun cell => finish (trim cell)) := by
  have strand : Strand 0 (centerOpening ++ (tableHtml header rows ++ centerClosing)) :=
    strand_centerOpening.inside ((strand_tableHtml eachHeader each).inside strand_centerClosing)
  rw [convertRest_eq, dropComments_centered eachHeader each,
    convertTables_centered eachHeader each (someCells two) fun row member =>
      someCells (twoEach row member),
    strand.replace_rowEnd,
    tableHtml_eq_grid two twoEach,
    trim_finish_centered (forall_mem_cells Strand.trim eachHeader)
    (forall_mem_rows Strand.trim each)]
  simp only [List.map_map, Function.comp_def]

/-! ## Tables of formatted text -/

section Formatted

variable (eachHeader : ∀ cell ∈ header, Inline.Formatted 0 cell 0)
  (each : ∀ row ∈ rows, ∀ cell ∈ row, Inline.Formatted 0 cell 0)

include eachHeader each

/-- Before the symbols, the cells lose what is no part of their text. -/
theorem closeItems_centered :
    closeItems (convertItems (convertEnds
      (escapeAngles (unlines (centered columns header rows))))) =
      escapeAngles (unlines (centered columns (header.map bare)
        (rows.map fun row => row.map bare))) := by
  have taken : convertEnds (escapeAngles (unlines (centered columns header rows))) =
      escapeAngles (unlines (centered columns (header.map (replace "[fragile]".toList []))
        (rows.map fun row => row.map (replace "[fragile]".toList [])))) := by
    have cells : ∀ {cells : List Text}, (∀ cell ∈ cells, Inline.Formatted 0 cell 0) →
        (cells.map escapeAngles).map convertEnds =
          (cells.map (replace "[fragile]".toList [])).map escapeAngles := by
      intro cells each
      rw [List.map_map, List.map_map]
      exact List.map_congr_left fun cell member => convertEnds_escapeAngles (each cell member)
    have data : (rows.map fun row => row.map escapeAngles).map (fun row => row.map convertEnds) =
        (rows.map fun row => row.map (replace "[fragile]".toList [])).map fun row =>
          row.map escapeAngles := by
      rw [List.map_map, List.map_map]
      exact List.map_congr_left fun row member => cells (each row member)
    rw [escapeAngles_centered, convertEnds_centered, cells eachHeader, data, escapeAngles_centered]
  have strand : ∀ {s}, Inline.Formatted 0 s 0 →
      Strand 0 (escapeAngles (replace "[fragile]".toList [] s)) :=
    fun formatted => .of_formatted (formatted.remove_plain (by decide) (by decide))
  generalize same : unlines (centered columns (header.map (replace "[fragile]".toList []))
    (rows.map fun row => row.map (replace "[fragile]".toList []))) = s at taken
  have items : convertItems (escapeAngles s) = escapeAngles s := by
    have headers := forall_mem_cells strand eachHeader
    have data := forall_mem_rows strand each
    rw [← same, escapeAngles_centered]
    simp only [List.map_map, Function.comp_def]
    exact convertItems_centered headers data
  have ends : ∃ t, escapeAngles s = t ++ ['\x7d'] := by
    rw [← same, escapeAngles_centered, unlines_centered]
    generalize tableText _ _ _ = table
    refine ⟨centerOpening ++ (table ++ '\n' :: "\\end\x7bcenter".toList), ?_⟩
    rw [List.append_assoc, List.append_assoc]
    rfl
  obtain ⟨t, whole⟩ := ends
  have read : closeItems (escapeAngles s) = escapeAngles (plainEnds s) := by
    rw [closeItems_escapeAngles, ← plainEnds_escapeAngles, whole]
    exact unlines_lines (by decide) t
  rw [taken, items, read, ← same, plainEnds_centered]
  simp only [List.map_map, Function.comp_def]
  rfl

theorem convertMarkup_centered :
    convertMarkup (unlines (centered columns header rows)) =
      unlines (centered columns (header.map fun cell => emphasized (bare cell))
        (rows.map fun row => row.map fun cell => emphasized (bare cell))) := by
  have strand : ∀ {s}, Inline.Formatted 0 s 0 → Strand 0 (escapeAngles (bare s)) :=
    fun formatted => .of_formatted (formatted_bare formatted)
  have weaves : Weaves true fun s => convertEmphasis (convertSymbols s) :=
    weaves_convertSymbols.comp weaves_convertEmphasis
  have headers := forall_mem_cells strand eachHeader
  have data := forall_mem_rows strand each
  change convertEmphasis (convertSymbols
    (closeItems (convertItems (convertEnds (escapeAngles _))))) = _
  rw [closeItems_centered eachHeader each, escapeAngles_centered]
  simp only [List.map_map, Function.comp_def]
  refine (weaves.centered headers data (by decide +kernel) (by decide +kernel)).trans ?_
  simp only [List.map_map, Function.comp_def]
  rfl

/-- **The page of a table of formatted texts is the grid of their cells.** -/
theorem fragment_centered (two : 2 ≤ header.length) (twoEach : ∀ row ∈ rows, 2 ≤ row.length) :
    fragment (unlines (centered columns header rows)) =
      grid (header.map cellHtml) (rows.map fun row => row.map cellHtml) := by
  have strand : ∀ {s}, Inline.Formatted 0 s 0 → Strand 0 (emphasized (bare s)) :=
    fun formatted => strand_emphasized (formatted_bare formatted)
  have headers := forall_mem_cells strand eachHeader
  have data := forall_mem_rows strand each
  have long : 2 ≤ (header.map fun cell => emphasized (bare cell)).length := by
    rwa [List.length_map]
  have longEach : ∀ row ∈ rows.map fun row => row.map fun cell => emphasized (bare cell),
      2 ≤ row.length := by
    rw [List.forall_mem_map]
    intro row member
    rw [List.length_map]
    exact twoEach row member
  have put : ∀ t, putListings t [] = t := fun t => rfl
  rw [fragment_eq, convertMarkup_centered eachHeader each,
    takeListings_centered headers data (someCells long) fun row member =>
      someCells (longEach row member), put]
  dsimp only
  rw [trim_convertRest_centered long longEach headers data]
  simp only [List.map_map, Function.comp_def]
  rfl

end Formatted

end Centered

end SlideDeck.Html
