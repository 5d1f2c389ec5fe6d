import SlideDeck.Proofs.Html.Grid

/-!
# The table tags of a piece of HTML

The tags of tables, of their rows and of their cells are read as all tags are
(`readsTags_tableTag`). A cell of formatted text holds emphasis only (`tableless_cellHtml`). So the
tags that are read in a grid of such cells are those that were written around them
(`tableTags_grid`).
-/

set_option autoImplicit false

namespace SlideDeck.Html

open SlideDeck SlideDeck.Text SlideDeck.Latex

/-! ## The tags -/

/-- The elements of a table. -/
inductive TableElement where
  | table
  | row
  | heading
  | data
  deriving DecidableEq, Repr

/-- The name of an element of a table. -/
def TableElement.name : TableElement → Text
  | table => "table".toList
  | row => "tr".toList
  | heading => "th".toList
  | data => "td".toList

/-- The tags of tables. -/
inductive TableTag where
  | opens (element : TableElement)
  | closes (element : TableElement)
  deriving DecidableEq, Repr

namespace TableTag

/-- The tag as it stands in the text. -/
def written : TableTag → Text
  | opens element => openTag element.name
  | closes element => closeTag element.name

/-- All tags of tables. -/
def all : List TableTag := [
  opens .table, opens .row, opens .heading, opens .data,
  closes .table, closes .row, closes .heading, closes .data]

theorem isTag_written (tag : TableTag) : IsTag tag.written := by
  have known : ∀ element : TableElement, element.name ∈ elementNames := by
    rintro (_ | _ | _ | _) <;> decide
  cases tag with
  | opens element => exact .opening (known element)
  | closes element => exact .closing (known element)

end TableTag

/-- Matches a tag of a table. -/
def tableTag? : Matcher TableTag := fun s =>
  TableTag.all.findSome? fun tag => (skip? tag.written s).map fun rest => (tag, rest)

/-- The tags of tables in a text, in order. -/
def tableTags (s : Text) : List TableTag := matchesOf tableTag? s

theorem readsTags_tableTag : ReadsTags TableTag.written tableTag? where
  isTag := TableTag.isTag_written
  reads tag s := by rcases tag with (_ | _ | _ | _) | (_ | _ | _ | _) <;> rfl
  whole := eq_of_findSome?_skip?

/-! ## Cells -/

/-- Marked text without tags of tables. -/
def Tableless (s : Text) : Prop := Marked s ∧ tableTags s = []

/-- Text in which all tags are of emphasis. -/
theorem Tagged.tableless {around last : List Emphasis} {s : Text} (tagged : Tagged around s last) :
    Tableless s := by
  refine ⟨tagged.marked, ?_⟩
  induction tagged with
  | nil => rfl
  | char notLess _ _ _ ih => exact (readsTags_tableTag.cons notLess _).trans ih
  | @tag _ _ _ tag s _ _ ih =>
      have empty : matchesOf tableTag? tag.written = [] := by
        rcases tag with (_ | _ | _) | (_ | _ | _) <;> decide
      rw [tableTags, readsTags_tableTag.tag_append tag.isTag_written, empty]
      exact ih

theorem tableless_cellHtml {s : Text} (formatted : Inline.Formatted 0 s 0) :
    Tableless (cellHtml s) := by
  have strand := strand_emphasized (formatted_bare formatted)
  have tagged := tagged_emphasized (bare s)
  have marked : Marked (cellHtml s) :=
    ((tagged.marked.trim.dropCommands.dropGroupBracesFrom false).resolveEscapes).substitute
      keeps_gap
  have left : Tableless (dropArguments (emphasized (bare s))) :=
    (tagged.dropArguments strand).tableless
  refine ⟨marked, ?_⟩
  calc tableTags (cellHtml s)
      = tableTags (trim (cellHtml s)) := (readsTags_tableTag.trim marked).symm
    _ = tableTags (trim (finish (emphasized (bare s)))) := by rw [cellHtml, trim_finish_trim strand]
    _ = tableTags (dropArguments (emphasized (bare s))) := readsTags_tableTag.finished left.1
    _ = [] := left.2

/-! ## Grids -/

/-- The tags of a row of so many cells of one kind. -/
def rowTags (cell : TableElement) (count : Nat) : List TableTag :=
  .opens .row :: ((List.replicate count [.opens cell, .closes cell]).flatten ++ [.closes .row])

section Grids

variable {contents head : List Text} {body : List (List Text)}

theorem tableTags_gridRow (cell : TableElement) (each : ∀ s ∈ contents, Tableless s) (t : Text) :
    tableTags (gridRow cell.name contents ++ t) = rowTags cell contents.length ++ tableTags t := by
  have written : ∀ tag s, tableTags (TableTag.written tag ++ s) = tag :: tableTags s :=
    readsTags_tableTag.written_append
  have cells : ∀ t, tableTags (contents.flatMap (element cell.name) ++ t) =
      (List.replicate contents.length [.opens cell, .closes cell]).flatten ++ tableTags t := by
    intro t
    induction contents with
    | nil => rfl
    | cons s contents ih =>
        rw [List.forall_mem_cons] at each
        have inner : ∀ u, tableTags (s ++ u) = tableTags u := by
          intro u
          rw [tableTags, readsTags_tableTag.append each.1.1, ← tableTags, each.1.2]
          rfl
        have first :
            tableTags (element cell.name s ++ (contents.flatMap (element cell.name) ++ t)) =
            .opens cell :: .closes cell :: tableTags
              (contents.flatMap (element cell.name) ++ t) := by
          rw [element, List.append_assoc, List.append_assoc]
          refine (written (.opens cell) _).trans ?_
          rw [inner]
          exact congrArg _ (written (.closes cell) _)
        rw [List.flatMap_cons, List.append_assoc, first, ih each.2]
        rfl
  rw [gridRow, element, List.append_assoc, List.append_assoc]
  refine (written (.opens .row) _).trans ?_
  rw [cells, rowTags, List.cons_append, List.append_assoc]
  exact congrArg (fun tags => TableTag.opens .row :: (_ ++ tags)) (written (.closes .row) t)

/-- **The tags of a grid** are those around its cells. -/
theorem tableTags_grid (eachHead : ∀ s ∈ head, Tableless s)
    (each : ∀ row ∈ body, ∀ s ∈ row, Tableless s) :
    tableTags (grid head body) =
      .opens .table :: (rowTags .heading head.length ++
        (body.flatMap (fun row => rowTags .data row.length) ++ [.closes .table])) := by
  have newline : ∀ t, tableTags ('\n' :: t) = tableTags t := readsTags_tableTag.cons (by decide)
  have rows : ∀ t, tableTags ((body.map (gridRow "td".toList)).flatMap ('\n' :: ·) ++ t) =
      body.flatMap (fun row => rowTags .data row.length) ++ tableTags t := by
    intro t
    induction body with
    | nil => rfl
    | cons row body ih =>
        rw [List.forall_mem_cons] at each
        rw [List.map_cons, List.flatMap_cons, List.cons_append, List.cons_append, newline,
          List.append_assoc, List.flatMap_cons, List.append_assoc, ← ih each.2]
        exact tableTags_gridRow .data each.1 _
  have first : tableTags (gridRow "th".toList head ++
      ((body.map (gridRow "td".toList)).flatMap ('\n' :: ·) ++ '\n' :: closeTag "table".toList)) =
        rowTags .heading head.length ++ (body.flatMap (fun row => rowTags .data row.length) ++
          [.closes .table]) := by
    refine (tableTags_gridRow .heading eachHead _).trans ?_
    rw [rows, newline]
    rfl
  rw [grid, List.flatMap_cons, List.cons_append, List.cons_append, List.append_assoc,
    ← first, ← newline]
  exact readsTags_tableTag.written_append (.opens .table) _

end Grids

end SlideDeck.Html
