import SlideDeck.Proofs.Document.Lists
import SlideDeck.Proofs.Html.TableTag

/-!
# Tables from the source to the page

A grid of cells with two columns or more keeps its shape on its way to the page (`KeepsShape`). It
is written as one table, with a row for each row of data that has a place in it; shorter rows are
filled up with empty cells. What is formatted holds no ampersand but escaped ones, so LaTeX reads
the cells that were written (`unescapedPieces_join`). On the page, the table has the same rows
again, and each cell shows what its text does by itself.
-/

set_option autoImplicit false

namespace SlideDeck

open SlideDeck.Text

/-! ## Cells of LaTeX -/

namespace Latex

/-- The pieces between the ampersands that are not escaped, behind a character that escapes the next
one or does not. -/
def unescapedPiecesFrom : Bool → Text → List Text
  | _, [] => [[]]
  | escaped, c :: s =>
    if c = '&' && !escaped then [] :: unescapedPiecesFrom false s
    else
      match unescapedPiecesFrom (escapesNext escaped c) s with
      | [] => [[c]]
      | piece :: pieces => (c :: piece) :: pieces

/-- The pieces of a row between its unescaped ampersands. -/
def unescapedPieces (s : Text) : List Text := unescapedPiecesFrom false s

/-- Text that lies in one piece, and escapes nothing behind it. -/
def Unsplit (t : Text) : Prop :=
  ∀ s piece pieces, unescapedPieces s = piece :: pieces →
    unescapedPieces (t ++ s) = (t ++ piece) :: pieces

theorem unescapedPiecesFrom_cons {escaped : Bool} {c : Char} {s piece : Text} {pieces : List Text}
    (inside : (c == '&' && !escaped) = false)
    (behind : unescapedPiecesFrom (escapesNext escaped c) s = piece :: pieces) :
    unescapedPiecesFrom escaped (c :: s) = (c :: piece) :: pieces := by
  rw [unescapedPiecesFrom, show (decide (c = '&') && !escaped) = false from inside, behind]
  rfl

namespace Unsplit

theorem append {s t : Text} (first : Unsplit s) (second : Unsplit t) : Unsplit (s ++ t) := by
  intro u piece pieces behind
  rw [List.append_assoc, first _ _ _ (second _ _ _ behind), List.append_assoc]

theorem nil : Unsplit [] := fun _ _ _ behind => behind

theorem of_not_mem {t : Text} (absent : '&' ∉ t) (ends : t.foldl escapesNext false = false) :
    Unsplit t := by
  have each : ∀ escaped s piece pieces,
      unescapedPiecesFrom (t.foldl escapesNext escaped) s = piece :: pieces →
        unescapedPiecesFrom escaped (t ++ s) = (t ++ piece) :: pieces := by
    clear ends
    induction t with
    | nil => exact fun _ _ _ _ behind => behind
    | cons c t ih =>
        rw [List.mem_cons, not_or] at absent
        intro escaped s piece pieces behind
        refine unescapedPiecesFrom_cons ?_ (ih absent.2 _ s piece pieces behind)
        rw [beq_eq_false_iff_ne.mpr (Ne.symm absent.1), Bool.false_and]
  intro s piece pieces behind
  exact each false s piece pieces (ends.symm ▸ behind)

end Unsplit

end Latex

namespace Inline

open SlideDeck.Latex

/-- The only ampersand in a token is an escaped one. -/
theorem IsToken.unsplit {depth last : Nat} {t : Text} (token : IsToken depth t last) :
    Unsplit t := by
  cases token with
  | @plain _ c plain =>
      have other : ∀ {d}, isPlain d = false → c ≠ d := by
        rintro d special rfl
        rw [plain] at special
        cases special
      have noSlash : (c == '\\') = false := beq_eq_false_iff_ne.mpr (other (by decide))
      refine .of_not_mem ?_ ?_
      · rw [List.mem_singleton]
        exact Ne.symm (other (by decide))
      · rw [List.foldl_cons, List.foldl_nil, escapesNext, noSlash, Bool.false_and]
  | @escaped _ c escaped =>
      intro s piece pieces behind
      refine unescapedPiecesFrom_cons rfl (unescapedPiecesFrom_cons ?_ ?_)
      · rw [escapesNext]
        simp
      · have closed : escapesNext (escapesNext false '\\') c = false := by simp [escapesNext]
        rw [closed]
        exact behind
  | @symbol _ name member =>
      have each : ∀ name ∈ symbolNames, '&' ∉ Latex.symbol name ∧
          (Latex.symbol name).foldl escapesNext false = false := by decide
      exact .of_not_mem (each name member).1 (each name member).2
  | @opening _ name member =>
      have each : ∀ name ∈ styleNames, '&' ∉ '\\' :: name ++ ['\x7b'] ∧
          ('\\' :: name ++ ['\x7b']).foldl escapesNext false = false := by decide
      exact .of_not_mem (each name member).1 (each name member).2
  | closing => exact .of_not_mem (by decide) (by decide)

theorem Formatted.unsplit {depth last : Nat} {s : Text} (formatted : Formatted depth s last) :
    Unsplit s := by
  induction formatted with
  | nil => exact .nil
  | token token _ ih => exact token.unsplit.append ih

end Inline

namespace Document

open SlideDeck.Latex SlideDeck.Markdown SlideDeck.Slide SlideDeck.Html

/-- A cell between two blanks. -/
def spaced (cell : Text) : Text := ' ' :: (cell ++ [' '])

/-- **LaTeX reads the cells that were written.** -/
theorem unescapedPieces_join {cells : List Text} (nonempty : cells ≠ [])
    (each : ∀ cell ∈ cells, Inline.Formatted 0 cell 0) :
    unescapedPieces (' ' :: (join " & ".toList cells ++ [' '])) = cells.map spaced := by
  have blank : Unsplit [' '] := .of_not_mem (by decide) (by decide)
  have alone : ∀ {cell}, Inline.Formatted 0 cell 0 → Unsplit (spaced cell) := fun formatted =>
    blank.append (formatted.unsplit.append blank)
  induction cells with
  | nil => exact absurd rfl nonempty
  | cons cell cells ih =>
      rw [List.forall_mem_cons] at each
      cases cells with
      | nil =>
          have piece := alone each.1 [] [] [] rfl
          rwa [List.append_nil] at piece
      | cons next cells =>
          have later := ih (List.cons_ne_nil next cells) each.2
          have ended : ∀ s, unescapedPieces ('&' :: s) = [] :: unescapedPieces s := fun s => rfl
          have whole : ' ' :: (join " & ".toList (cell :: next :: cells) ++ [' ']) =
              spaced cell ++ '&' :: ' ' :: (join " & ".toList (next :: cells) ++ [' ']) := by
            simp [join, spaced]
          rw [whole, alone each.1 _ _ _ (ended _), later, List.append_nil]
          rfl

/-! ## The shape of a table -/

/-- A header cell as it is written. -/
def boldCell (cell : Text) : Text := command "textbf".toList (Inline.format cell)

/-- The cells of a row of data as they are written, filled up to so many columns. -/
def paddedCells (columns : Nat) (row : List Text) : List Text :=
  row.map Inline.format ++ List.replicate (columns - row.length) []

/-- The rows of data that have a place below a header: those with at most as many cells. -/
def keptRows (header : List Text) (rows : List (List Text)) : List (List Text) :=
  rows.filter fun row => row.length ≤ header.length

/-- What becomes of a grid of cells. -/
structure KeepsShape (header : List Text) (rows : List (List Text)) : Prop where
  /-- The lines are those of a table with a bold header and the rows that have a place, in order. -/
  rendered : Table.render (header :: rows) =
    unlines (centered header.length (header.map boldCell)
      ((keptRows header rows).map (paddedCells header.length)))
  /-- There is no other table in the cells. -/
  single : occurrences (beginEnvironment "tabular".toList) (Table.render (header :: rows)) = 1
  /-- In front of its end, a row has one piece for each column: its formatted cells, between
  blanks. -/
  cells : ∀ row ∈ keptRows header rows, (paddedCells header.length row).length = header.length ∧
    ∃ inner, Table.rowLine (paddedCells header.length row) = inner ++ "\\\\".toList ∧
      unescapedPieces (' ' :: inner) = (paddedCells header.length row).map spaced
  /-- The page has the same cells, and each shows what its text does by itself. -/
  page : ∃ head body, fragment (Table.render (header :: rows)) = grid head body ∧
    head.map trim = (header.map boldCell).map fragment ∧
    body.map (fun row => row.map trim) =
      ((keptRows header rows).map (paddedCells header.length)).map fun row => row.map fragment
  /-- The tags on the page are those of one table: a row of header cells, and a row of cells for
  each row of data that has a place, with one cell for each column. -/
  tags : tableTags (fragment (Table.render (header :: rows))) =
    .opens .table :: (rowTags .heading header.length ++
      ((keptRows header rows).flatMap (fun _ => rowTags .data header.length) ++ [.closes .table]))

section Shape

variable {header : List Text} {rows : List (List Text)}

theorem formatted_boldCell (cell : Text) : Inline.Formatted 0 (boldCell cell) 0 :=
  .style (by decide) (Inline.formatted_format cell)

theorem formatted_paddedCells (columns : Nat) (row : List Text) :
    ∀ cell ∈ paddedCells columns row, Inline.Formatted 0 cell 0 := by
  intro cell member
  rcases List.mem_append.mp member with written | empty
  · obtain ⟨source, -, rfl⟩ := List.mem_map.mp written
    exact Inline.formatted_format source
  · rw [List.eq_of_mem_replicate empty]
    exact .nil

theorem length_paddedCells {columns : Nat} {row : List Text} (fits : row.length ≤ columns) :
    (paddedCells columns row).length = columns := by
  rw [paddedCells, List.length_append, List.length_map, List.length_replicate]
  omega

theorem length_of_mem_keptRows {row : List Text} (member : row ∈ keptRows header rows) :
    (paddedCells header.length row).length = header.length :=
  length_paddedCells (of_decide_eq_true (List.mem_filter.mp member).2)

theorem render_eq_centered (nonempty : header ≠ []) : Table.render (header :: rows) =
    unlines (centered header.length (header.map boldCell)
      ((keptRows header rows).map (paddedCells header.length))) := by
  have lines : Table.render (header :: rows) = unlines (Table.linesOf header rows) := by
    obtain ⟨cell, cells, rfl⟩ := List.exists_cons_of_ne_nil nonempty
    rfl
  rw [lines, linesOf_eq]
  rfl

theorem formatted_boldCells : ∀ cell ∈ header.map boldCell, Inline.Formatted 0 cell 0 :=
  List.forall_mem_map.mpr fun cell _ => formatted_boldCell cell

theorem formatted_keptRows : ∀ row ∈ (keptRows header rows).map (paddedCells header.length),
    ∀ cell ∈ row, Inline.Formatted 0 cell 0 :=
  List.forall_mem_map.mpr fun row _ => formatted_paddedCells header.length row

/-- The cells hold no other table. -/
theorem occurrences_tabular_render (nonempty : header ≠ []) :
    occurrences (beginEnvironment "tabular".toList) (Table.render (header :: rows)) = 1 := by
  have strand : ∀ {s}, Inline.Formatted 0 s 0 → Strand 0 (escapeAngles s) := Strand.of_formatted
  have escaped : ∀ s, occurrences (beginEnvironment "tabular".toList) (escapeAngles s) =
      occurrences (beginEnvironment "tabular".toList) s :=
    occurrences_escapeAngles (by decide) (by decide) (by decide)
  rw [render_eq_centered nonempty, ← escaped, escapeAngles_centered]
  exact occurrences_tabular_centered (forall_mem_cells strand formatted_boldCells)
    (forall_mem_rows strand formatted_keptRows)

theorem fragment_render (two : 2 ≤ header.length) : fragment (Table.render (header :: rows)) =
    grid ((header.map boldCell).map cellHtml)
      (((keptRows header rows).map (paddedCells header.length)).map fun row =>
        row.map cellHtml) := by
  have long : 2 ≤ (header.map boldCell).length := by rwa [List.length_map]
  have longEach : ∀ row ∈ (keptRows header rows).map (paddedCells header.length),
      2 ≤ row.length := by
    rw [List.forall_mem_map]
    intro row member
    rwa [length_of_mem_keptRows member]
  rw [render_eq_centered (someCells two)]
  exact fragment_centered formatted_boldCells formatted_keptRows long longEach

theorem map_trim_cellHtml {cells : List Text} (each : ∀ cell ∈ cells, Inline.Formatted 0 cell 0) :
    (cells.map cellHtml).map trim = cells.map fragment := by
  rw [List.map_map]
  refine List.map_congr_left fun cell member => ?_
  rw [Function.comp_apply, trim_cellHtml (each cell member)]

theorem map_map_trim_cellHtml {rows : List (List Text)}
    (each : ∀ row ∈ rows, ∀ cell ∈ row, Inline.Formatted 0 cell 0) :
    (rows.map fun row => row.map cellHtml).map (fun row => row.map trim) =
      rows.map fun row => row.map fragment := by
  rw [List.map_map]
  refine List.map_congr_left fun row member => ?_
  rw [Function.comp_apply, map_trim_cellHtml (each row member)]

theorem unescapedPieces_paddedCells {row : List Text} (nonempty : header ≠ [])
    (member : row ∈ keptRows header rows) :
    ∃ inner, Table.rowLine (paddedCells header.length row) = inner ++ "\\\\".toList ∧
      unescapedPieces (' ' :: inner) = (paddedCells header.length row).map spaced := by
  have cells : paddedCells header.length row ≠ [] := by
    rw [← List.length_pos_iff, length_of_mem_keptRows member]
    exact List.length_pos_iff.mpr nonempty
  refine ⟨join " & ".toList (paddedCells header.length row) ++ [' '], ?_,
    unescapedPieces_join cells (formatted_paddedCells header.length row)⟩
  rw [Table.rowLine, List.append_assoc]
  rfl

theorem tableTags_fragment_render (two : 2 ≤ header.length) :
    tableTags (fragment (Table.render (header :: rows))) =
      .opens .table :: (rowTags .heading header.length ++
        ((keptRows header rows).flatMap (fun _ => rowTags .data header.length) ++
          [.closes .table])) := by
  have tableless : ∀ {s}, Inline.Formatted 0 s 0 → Tableless (cellHtml s) := tableless_cellHtml
  have data :
      (((keptRows header rows).map (paddedCells header.length)).map fun row =>
        row.map cellHtml).flatMap (fun row => rowTags .data row.length) =
        (keptRows header rows).flatMap fun _ => rowTags .data header.length := by
    rw [List.flatMap_map, List.flatMap_map]
    refine List.flatMap_congr fun row member => ?_
    rw [List.length_map, length_of_mem_keptRows member]
  rw [fragment_render two, tableTags_grid (forall_mem_cells tableless formatted_boldCells)
    (forall_mem_rows tableless formatted_keptRows), data, List.length_map, List.length_map]

/-- **A table keeps its shape**, whatever its cells are. -/
theorem keepsShape (two : 2 ≤ header.length) : KeepsShape header rows where
  rendered := render_eq_centered (someCells two)
  single := occurrences_tabular_render (someCells two)
  cells _ member :=
    ⟨length_of_mem_keptRows member, unescapedPieces_paddedCells (someCells two) member⟩
  page := ⟨_, _, fragment_render two, map_trim_cellHtml formatted_boldCells,
    map_map_trim_cellHtml formatted_keptRows⟩
  tags := tableTags_fragment_render two

/-- **Tables keep their shape:** a grid of the cells that are read from lines is written as one
table with the rows that have a place, LaTeX reads the cells that were written, and the page has the
same rows and cells again. -/
theorem keepsShape_cellsOf (line : Text) (lines : List Text)
    (two : 2 ≤ (Table.cellsOf line).length) :
    KeepsShape (Table.cellsOf line) (lines.map Table.cellsOf) := keepsShape two

/-- Rows of data with what has a meaning of its own in LaTeX or HTML: the second has no place below
a header of two cells, and the third is filled up. -/
def specialRows : List Text := [
  "| 1 \\ 2 | \x7bx\x7d |".toList, "| a | b | c |".toList, "| <i> &amp; |".toList]

theorem keepsShape_cellsOf_specialRows :
    2 ≤ (Table.cellsOf "| *A* & B | 50% |".toList).length ∧
      KeepsShape (Table.cellsOf "| *A* & B | 50% |".toList) (specialRows.map Table.cellsOf) ∧
      keptRows (Table.cellsOf "| *A* & B | 50% |".toList) (specialRows.map Table.cellsOf) =
        [["1 \\ 2".toList, "\x7bx\x7d".toList], ["<i> &amp;".toList]] :=
  ⟨by decide, keepsShape_cellsOf _ _ (by decide), by decide⟩

end Shape

end Document

end SlideDeck
