import SlideDeck.Proofs.Html.Closing
import SlideDeck.Proofs.Slide.Body

/-!
# Lists from the source to the page

The list tags of the page of a content are those of its list blocks (`pageTags_eq`). So they
are nested, and there are as many items as the LaTeX has commands of items (`nested_lists`).

This holds where every item leaves something visible on the page (`Shows`). An item without
text, or with nothing but emoji, does not: the exporter then takes the next item or the end of
the list for the text of that item, and does not close it (`nested_lists_emptyItem`).
-/

set_option autoImplicit false

namespace SlideDeck.Document

open SlideDeck SlideDeck.Text SlideDeck.Latex SlideDeck.Markdown SlideDeck.Slide SlideDeck.Html

/-! ## The lines of blocks -/

/-- Whether the items of a list are numbered. -/
def isOrdered : ListKind → Bool
  | .bulleted => false
  | .numbered => true

/-- Whether an item leaves something visible on the page. -/
def Shows (text : Text) : Prop :=
  isBlankText (replace "[fragile]".toList [] (escapeAngles (Inline.format text))) = false

instance (text : Text) : Decidable (Shows text) := inferInstanceAs (Decidable (_ = false))

/-- The items of a block. -/
def itemsOf : Block → List Text
  | .list _ items => items
  | _ => []

/-- The tags that a block becomes on the page. -/
def blockTags : Block → List ListTag
  | .list kind items =>
    .opensList (isOrdered kind) ::
      (items.flatMap (fun _ => [.opensItem, .closesItem]) ++ [.closesList (isOrdered kind)])
  | _ => []

/-- The lines of a page, with angle brackets as entities. -/
abbrev Lines (around : Option Bool) (ls : List Text) (tags : List ListTag) : Prop :=
  Layout .latex (fun text => isBlankText (replace "[fragile]".toList [] text) = false)
    around ls tags

/-- The parts of a page spell lines with these list tags. -/
def Laid (parts : List Text) (tags : List ListTag) : Prop :=
  ∃ ls, Lines none (ls.map escapeAngles) tags ∧ Spells parts ls

theorem fit_format {text : Text} (oneLine : '\n' ∉ text) :
    Fit (escapeAngles (Inline.format text)) := by
  refine ⟨.of_formatted (Inline.formatted_format text), fun member => ?_⟩
  have absent : '\n' ∉ Inline.format text := Inline.not_mem_format (by decide) oneLine
  rcases mem_escapeAngles member with entity | ⟨inside, -⟩
  · exact absurd entity (by decide)
  · exact absent inside

theorem fit_nil : Fit (escapeAngles []) := ⟨.nil, List.not_mem_nil⟩

/-- A line of text in commands. -/
theorem fit_around {lead body tail : Text} (inner : Fit (escapeAngles body))
    (plain : escapeAngles lead = lead ∧ escapeAngles tail = tail) (oneLine : '\n' ∉ lead ++ tail)
    (wrap : ∀ {t}, Strand 0 t → Strand 0 (lead ++ (t ++ tail))) :
    Fit (escapeAngles (lead ++ (body ++ tail))) := by
  rw [List.mem_append, not_or] at oneLine
  rw [escapeAngles_append, escapeAngles_append, plain.1, plain.2]
  refine ⟨wrap inner.strand, ?_⟩
  simp [oneLine, inner.oneLine]

theorem fit_bold {text : Text} (oneLine : '\n' ∉ text) :
    Fit (escapeAngles (command "textbf".toList (Inline.format text))) := by
  have whole : command "textbf".toList (Inline.format text) =
      "\\textbf\x7b".toList ++ (Inline.format text ++ "\x7d".toList) := by
    simp [command, group]
  have closed : Strand 1 "\x7d".toList := .closing .nil
  rw [whole]
  refine fit_around (fit_format oneLine) (by decide) (by decide) fun strand => ?_
  exact .opening (by decide) (strand.inside closed)

theorem fit_large {text : Text} (oneLine : '\n' ∉ text) :
    Fit (escapeAngles
      (group ("\\large".toList ++ command "textbf".toList (Inline.format text)))) := by
  have whole : group ("\\large".toList ++ command "textbf".toList (Inline.format text)) =
      ("\x7b".toList ++ "\\large\\textbf\x7b".toList) ++
        (Inline.format text ++ "\x7d\x7d".toList) := by
    simp [group, command]
  have closed : Strand 2 "\x7d\x7d".toList := .closing (.closing .nil)
  rw [whole]
  refine fit_around (fit_format oneLine) (by decide) (by decide) fun strand => ?_
  rw [List.append_assoc]
  exact .opening (by decide) (.opening (by decide) (strand.inside closed))

/-- The line of an environment that stands among the lines of a page by itself. -/
theorem fit_environment {name : Text} (member : name ∈ plainEnvironments) :
    Fit (escapeAngles (beginEnvironment name)) ∧ Fit (escapeAngles (endEnvironment name)) := by
  have each : ∀ name ∈ plainEnvironments, escapeAngles (beginEnvironment name) ∈ levelWords ∧
      escapeAngles (endEnvironment name) ∈ levelWords := by decide
  have oneLine : ∀ name ∈ plainEnvironments, '\n' ∉ escapeAngles (beginEnvironment name) ∧
      '\n' ∉ escapeAngles (endEnvironment name) := by decide
  exact ⟨⟨.of_level (each name member).1, (oneLine name member).1⟩,
    .of_level (each name member).2, (oneLine name member).2⟩

theorem laid_list (kind : ListKind) {items : List Text} (oneLine : ∀ text ∈ items, '\n' ∉ text)
    (shows : ∀ text ∈ items, Shows text) :
    Laid (Block.list kind items).parts (blockTags (.list kind items)) := by
  have opened :
      escapeAngles (beginEnvironment kind.environment) =
        ListStyle.latex.opening (isOrdered kind) := by
    cases kind <;> decide
  have closed :
      escapeAngles (endEnvironment kind.environment) =
        ListStyle.latex.closing (isOrdered kind) := by
    cases kind <;> decide
  have inner : Lines (some (isOrdered kind))
      ((items.map (fun text => "\\item ".toList ++ Inline.format text) ++
        [endEnvironment kind.environment]).map escapeAngles)
      (items.flatMap (fun _ => [.opensItem, .closesItem]) ++ [.closesList (isOrdered kind)]) := by
    induction items with
    | nil =>
        rw [List.map_nil, List.nil_append, List.map_singleton, closed]
        exact .closing .nil
    | cons text items ih =>
        rw [List.forall_mem_cons] at oneLine shows
        have marked : escapeAngles ("\\item ".toList ++ Inline.format text) =
            ListStyle.latex.marker ++ escapeAngles (Inline.format text) := escapeAngles_append _ _
        rw [List.map_cons, List.cons_append, List.map_cons, marked]
        exact .item (fit_format oneLine.1) shows.1 (ih oneLine.2 shows.2)
  refine ⟨_, ?_, .refl _⟩
  rw [Block.parts, List.cons_append, List.map_cons, opened]
  exact .opening _ inner

theorem linesOf_eq (header : List Text) (rows : List (List Text)) :
    Table.linesOf header rows = beginEnvironment "center".toList ::
      (tableLines header.length
        (header.map fun cell => command "textbf".toList (Inline.format cell))
        ((Table.fitting header.length rows).map fun row =>
          row.map Inline.format ++ List.replicate (header.length - row.length) []) ++
        [endEnvironment "center".toList]) := by
  have data : (Table.fitting header.length rows).map (Table.dataLine header.length) =
      ((Table.fitting header.length rows).map fun row =>
        row.map Inline.format ++ List.replicate (header.length - row.length) []).map
          Table.rowLine := by
    rw [List.map_map]
    rfl
  unfold Table.linesOf tableLines
  dsimp only
  rw [data, Table.headerLine]
  simp only [List.cons_append, List.append_assoc, List.nil_append]

theorem laid_table {rows : List (List Text)} (oneLine : ∀ text ∈ rows.flatten, '\n' ∉ text) :
    Laid (Block.table rows).parts [] := by
  have each : ∀ row ∈ rows, ∀ cell ∈ row, '\n' ∉ cell := fun row member cell inside =>
    oneLine cell (List.mem_flatten.mpr ⟨row, member, inside⟩)
  match rows with
  | [] => exact ⟨[], .nil, .refl []⟩
  | [] :: rows => exact ⟨[], .nil, .refl []⟩
  | (cell :: header) :: rows =>
      rw [List.forall_mem_cons] at each
      rw [parts_table]
      refine ⟨_, ?_, .single (List.cons_ne_nil _ _)⟩
      have center := fit_environment (by decide : "center".toList ∈ plainEnvironments)
      rw [linesOf_eq, List.map_cons, List.map_append, List.map_singleton,
        map_tableLines (escapeAngles_tabular _) (by decide)
          (convert_rowLine (wordwise_escapeAngles.breaksAt (by decide)) (by decide) (by decide))]
      refine .line center.1 (.table (by simp) ?_ ?_ ?_ (.line center.2 .nil))
      · simp only [List.forall_mem_map]
        intro row _ empty
        have count := congrArg List.length empty
        simp only [List.length_map, List.length_append, List.length_replicate, List.length_cons,
          List.length_nil] at count
        omega
      · simp only [List.forall_mem_map]
        exact fun cell member => fit_bold (each.1 cell member)
      · simp only [List.forall_mem_map]
        intro row member cell isCell
        have inside : row ∈ rows := (List.mem_filter.mp member).1
        rcases List.mem_append.mp isCell with isCell | isCell
        · obtain ⟨text, isText, rfl⟩ := List.mem_map.mp isCell
          exact fit_format (each.2 row inside text isText)
        · rw [List.eq_of_mem_replicate isCell]
          exact fit_nil

/-- **Every block is laid out with its own tags.** -/
theorem laid_block {block : Block} (holds : block.Holds (fun text => '\n' ∉ text) (fun _ => False))
    (shows : ∀ text ∈ itemsOf block, Shows text) : Laid block.parts (blockTags block) := by
  cases block with
  | list kind items => exact laid_list kind holds.texts shows
  | table rows => exact laid_table holds.texts
  | code tag lines closed =>
      obtain rfl : lines = [] := List.eq_nil_iff_forall_not_mem.mpr holds.code
      exact ⟨[], .nil, .refl []⟩
  | minorHeading text =>
      have fit := fit_bold (holds.texts text (List.mem_singleton_self text))
      exact ⟨_, .line fit (.line fit_nil .nil), .refl _⟩
  | majorHeading text =>
      have fit := fit_large (holds.texts text (List.mem_singleton_self text))
      exact ⟨_, .line fit (.line fit_nil .nil), .refl _⟩
  | quote text =>
      have fit := fit_format (holds.texts text (List.mem_singleton_self text))
      have ends := fit_environment (by decide : "quote".toList ∈ plainEnvironments)
      exact ⟨_, .line ends.1 (.line fit (.line ends.2 .nil)), .refl _⟩
  | paragraph text =>
      have fit := fit_format (holds.texts text (List.mem_singleton_self text))
      exact ⟨_, .line fit (.line fit_nil .nil), .refl _⟩

theorem Laid.flatMap {blocks : List Block}
    (each : ∀ block ∈ blocks, Laid block.parts (blockTags block)) :
    Laid (blocks.flatMap Block.parts) (blocks.flatMap blockTags) := by
  induction blocks with
  | nil => exact ⟨[], .nil, .refl []⟩
  | cons block blocks ih =>
      rw [List.forall_mem_cons] at each
      obtain ⟨ls, layout, spells⟩ := each.1
      obtain ⟨rest, later, behind⟩ := ih each.2
      exact ⟨ls ++ rest, List.map_append ▸ layout.append later, spells.append behind⟩

/-! ## Content without code -/

section Content

variable {content : List Text}

/-- **The body of a slide is a layout** with the tags of its blocks. -/
theorem exists_layout_body (oneLine : ∀ line ∈ content, '\n' ∉ line)
    (noFence : ∀ line ∈ content, isFence line = false)
    (shows : ∀ block ∈ blocksOf content, ∀ text ∈ itemsOf block, Shows text) :
    ∃ ls, Lines none ls ((blocksOf content).flatMap blockTags) ∧
      escapeAngles (body content) = unlines ls := by
  have noCode : ∀ line ∈ fencedLines content, False := by simp [fencedLines_eq_nil noFence]
  have holds := Block.holds_of_oneLine oneLine noCode
  obtain ⟨ls, layout, spells⟩ :=
    Laid.flatMap fun block member => laid_block (holds block member) (shows block member)
  obtain ⟨trimmed, layoutTrimmed, same⟩ := layout.trim
  refine ⟨trimmed, layoutTrimmed, ?_⟩
  rw [body, ← trim_escapeAngles, spells.same, wordwise_escapeAngles.unlines, same]

/-- The tags of lists on the page of a content. -/
def pageTags (content : List Text) : List ListTag := listTags (fragment (body content))

/-- **The list tags of a page** are those of its list blocks. -/
theorem pageTags_eq (oneLine : ∀ line ∈ content, '\n' ∉ line)
    (noFence : ∀ line ∈ content, isFence line = false)
    (shows : ∀ block ∈ blocksOf content, ∀ text ∈ itemsOf block, Shows text) :
    pageTags content = (blocksOf content).flatMap blockTags := by
  obtain ⟨ls, layout, same⟩ := exists_layout_body oneLine noFence shows
  exact layout.listTags_fragment same

/-- **Lists come out as lists.** Where every item leaves something visible, the tags of lists and
items are nested, and there are as many items as commands of items. -/
theorem nested_lists (oneLine : ∀ line ∈ content, '\n' ∉ line)
    (noFence : ∀ line ∈ content, isFence line = false)
    (shows : ∀ block ∈ blocksOf content, ∀ text ∈ itemsOf block, Shows text) :
    nested (pageTags content) = true ∧
      (pageTags content).count .opensItem = occurrences "\\item".toList (body content) := by
  obtain ⟨ls, layout, same⟩ := exists_layout_body oneLine noFence shows
  have counted : occurrences "\\item".toList (escapeAngles (body content)) =
      occurrences "\\item".toList (body content) :=
    occurrences_escapeAngles (by decide) (by decide) (by decide) _
  rw [pageTags_eq oneLine noFence shows]
  refine ⟨layout.nestedIn, ?_⟩
  rw [← layout.occurrences_item, ← same, counted]

/-- Lists of both kinds, around a table and a quote. -/
def mixedContent : List Text := [
  "- **red** & <green>".toList, "* `blue`".toList, "| a | b |".toList, "|---|---|".toList,
  "| 1 | 2 |".toList, "1. one".toList, "> said".toList, "2. two".toList]

theorem nested_lists_mixed :
    nested (pageTags mixedContent) = true ∧
      (pageTags mixedContent).count .opensItem = occurrences "\\item".toList (body mixedContent) :=
  nested_lists (by decide) (by decide) (by decide +kernel)

/-- An item without text takes the line end with it, so that the next item does not begin its
line and the item before it stays open. -/
theorem nested_lists_emptyItem :
    ¬ ∀ content, (∀ line ∈ content, '\n' ∉ line ∧ isFence line = false) →
      nested (pageTags content) = true := by
  intro all
  have wellFormed := all ["- ".toList, "- x".toList] (by decide)
  revert wellFormed
  decide +kernel

end Content

end SlideDeck.Document
