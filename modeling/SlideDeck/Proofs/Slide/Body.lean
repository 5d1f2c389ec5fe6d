import SlideDeck.Proofs.Slide.Page

/-!
# Bodies and notes are pages

Every block is written as a page (`written_block`), so the body of a slide is one
(`exists_page_body`): whatever stands in the content of a slide, its environments are
nested, its braces balanced and its special characters escaped, except for the lines of
listings, which are lines between fences of the content.

The body of a note is lines of a page and nothing else (`exists_rows_noteBody`).
-/

set_option autoImplicit false

namespace SlideDeck.Slide

open SlideDeck SlideDeck.Text SlideDeck.Latex SlideDeck.Markdown

/-! ## Blocks -/

/-- Parts of a page and lines that make the same text. -/
structure Spells (parts ls : List Text) : Prop where
  same : unlines parts = unlines ls
  empty : parts = [] ↔ ls = []

namespace Spells

theorem refl (ls : List Text) : Spells ls ls := ⟨rfl, Iff.rfl⟩

/-- Joined lines as one part. -/
theorem single {ls : List Text} (nonempty : ls ≠ []) : Spells [unlines ls] ls :=
  ⟨rfl, by simp [nonempty]⟩

theorem symm {parts ls : List Text} (spells : Spells parts ls) : Spells ls parts :=
  ⟨spells.same.symm, spells.empty.symm⟩

theorem append {parts later front back : List Text} (first : Spells parts front)
    (second : Spells later back) : Spells (parts ++ later) (front ++ back) where
  same := by
    by_cases isNil : parts = []
    · rw [isNil, first.empty.mp isNil]
      exact second.same
    · by_cases last : later = []
      · rw [last, second.empty.mp last, List.append_nil, List.append_nil]
        exact first.same
      · rw [unlines_append isNil last, unlines_append (mt first.empty.mpr isNil)
          (mt second.empty.mpr last), first.same, second.same]
  empty := by simp [first.empty, second.empty]

theorem cons {parts front : List Text} (line : Text) (later : Spells parts front) :
    Spells (line :: parts) (line :: front) :=
  (refl [line]).append later

end Spells

/-- The language of a listing as an option. -/
theorem arguments_languageOption (tag : Text) : Arguments (languageOption tag) := by
  have known : ∀ entry ∈ languages, Arguments ("[language=".toList ++ entry.2 ++ [']']) := by decide
  rcases languageOption_eq_nil_or tag with empty | ⟨entry, member, same⟩
  · rw [empty]
    decide
  · rw [same]
    exact known entry member

section Blocks

variable {listed : Text → Prop}

/-- A page that the parts of a block spell. -/
def Written (listed : Text → Prop) (parts : List Text) : Prop :=
  ∃ ls, Page listed ls ∧ Spells parts ls

theorem Written.of_page {ls : List Text} (page : Page listed ls) : Written listed ls :=
  ⟨ls, page, .refl ls⟩

theorem written_list (kind : ListKind) {items : List Text} (oneLine : ∀ text ∈ items, '\n' ∉ text) :
    Written listed (Block.list kind items).parts := by
  have item : Neat "\\item ".toList := by decide
  have known : kind.environment ∈ pageEnvironments := by cases kind <;> decide
  refine .of_page (Page.plain known (Page.of_neat fun line member => ?_) .nil)
  obtain ⟨text, inside, rfl⟩ := List.mem_map.mp member
  exact item.append (Inline.neat_format (oneLine text inside))

theorem pageLine_rowLine {cells : List Text} (neat : ∀ cell ∈ cells, Neat cell) :
    PageLine (Table.rowLine cells) := by
  have between : Neat " & ".toList := by decide
  exact .of_row (between.join neat)

theorem pageLine_headerLine {header : List Text} (oneLine : ∀ cell ∈ header, '\n' ∉ cell) :
    PageLine (Table.headerLine header) := by
  have bold : Neat "\\textbf".toList := by decide
  refine pageLine_rowLine fun written member => ?_
  obtain ⟨cell, inside, rfl⟩ := List.mem_map.mp member
  exact bold.command (Inline.neat_format (oneLine cell inside))

theorem pageLine_dataLine (columns : Nat) {row : List Text} (oneLine : ∀ cell ∈ row, '\n' ∉ cell) :
    PageLine (Table.dataLine columns row) := by
  refine pageLine_rowLine fun written member => ?_
  rcases List.mem_append.mp member with member | member
  · obtain ⟨cell, inside, rfl⟩ := List.mem_map.mp member
    exact Inline.neat_format (oneLine cell inside)
  · rw [List.eq_of_mem_replicate member]
    decide

theorem arguments_columns (columns : Nat) : Arguments (group (List.replicate columns 'l')) := by
  have plain : ∀ c ∈ List.replicate columns 'l', c = 'l' := fun c => List.eq_of_mem_replicate
  have absent : ∀ c, c ≠ 'l' → c ∉ List.replicate columns 'l' := fun c differ member =>
    differ (plain c member)
  have neat : Neat (List.replicate columns 'l') := by
    refine ⟨.of_loose (fun c member => ?_) (absent _ (by decide)) (absent _ (by decide)) 0,
      absent _ (by decide)⟩
    rw [plain c member]
    decide
  refine ⟨neat.group, ?_⟩
  simp [group]

/-- A table is a page of two environments, one in the other. -/
theorem page_linesOf {header : List Text} {rows : List (List Text)}
    (headerLine : ∀ cell ∈ header, '\n' ∉ cell)
    (rowLine : ∀ row ∈ rows, ∀ cell ∈ row, '\n' ∉ cell) :
    Page listed (Table.linesOf header rows) := by
  have topRule : PageLine "\\toprule".toList := .of_neat (by decide)
  have middleRule : PageLine "\\midrule".toList := .of_neat (by decide)
  -- This rule begins like the beginning of an environment, so it is not neat.
  have bottomRule : PageLine "\\bottomrule".toList :=
    ⟨⟨false, by decide⟩, by decide, by decide, by decide⟩
  have data : Page listed
      ((Table.fitting header.length rows).map (Table.dataLine header.length) ++
        ["\\bottomrule".toList]) := by
    have each : ∀ row ∈ Table.fitting header.length rows, ∀ cell ∈ row, '\n' ∉ cell :=
      fun row member => rowLine row (List.mem_filter.mp member).1
    generalize Table.fitting header.length rows = fitting at each
    induction fitting with
    | nil => exact .line bottomRule .nil
    | cons row fitting ih =>
        rw [List.forall_mem_cons] at each
        exact .line (pageLine_dataLine _ each.1) (ih each.2)
  have table := Page.environment (by decide : "tabular".toList ∈ pageEnvironments)
    (arguments_columns header.length)
    (.line topRule (.line (pageLine_headerLine headerLine) (.line middleRule data))) .nil
  have whole := Page.plain (by decide : "center".toList ∈ pageEnvironments) table .nil
  simpa [Table.linesOf] using whole

/-- A table with a header is one part. -/
theorem parts_table (cell : Text) (header : List Text) (rows : List (List Text)) :
    (Block.table ((cell :: header) :: rows)).parts =
    [unlines (Table.linesOf (cell :: header) rows)] := by
  have nonempty : unlines (Table.linesOf (cell :: header) rows) ≠ [] := unlines_ne_nil _ _ _
  simp [Block.parts, Table.render, nonempty]

theorem written_table {rows : List (List Text)} (oneLine : ∀ text ∈ rows.flatten, '\n' ∉ text) :
    Written listed (Block.table rows).parts := by
  have each : ∀ row ∈ rows, ∀ cell ∈ row, '\n' ∉ cell := fun row member cell inside =>
    oneLine cell (List.mem_flatten.mpr ⟨row, member, inside⟩)
  match rows with
  | [] => exact .of_page .nil
  | [] :: rows => exact .of_page .nil
  | (cell :: header) :: rows =>
      rw [List.forall_mem_cons] at each
      rw [parts_table]
      exact ⟨_, page_linesOf each.1 each.2, .single (List.cons_ne_nil _ _)⟩

/-- The lines of a block of code that are left belong to it. -/
theorem dropBlankEnds_subset (ls : List Text) : dropBlankEnds ls ⊆ ls := by
  intro line member
  rw [dropBlankEnds, List.mem_reverse] at member
  have back := (List.dropWhile_suffix _).subset member
  exact (List.dropWhile_suffix _).subset (List.mem_reverse.mp back)

theorem written_picture (source : Text) : Written listed [Diagram.pictureOf source] := by
  rw [Diagram.pictureOf]
  split
  · exact .of_page (.placeholder .nil)
  · have sound := Diagram.sound_read source
    generalize Diagram.read source = diagram at sound
    have inner : Page listed (Diagram.nodeLines diagram.direction none diagram.nodes ++
        diagram.edges.map Diagram.edgeLine) := .of_neat sound.neat_lines
    have picture := Page.environment (by decide : "tikzpicture".toList ∈ pageEnvironments)
      (by decide : Arguments Diagram.pictureOptions) inner .nil
    have whole := Page.plain (by decide : "center".toList ∈ pageEnvironments) picture .nil
    refine ⟨_, whole, ?_⟩
    have same : diagram.render = unlines (beginEnvironment "center".toList ::
        ((beginEnvironment "tikzpicture".toList ++ Diagram.pictureOptions) ::
          (Diagram.nodeLines diagram.direction none diagram.nodes ++
            diagram.edges.map Diagram.edgeLine ++ [endEnvironment "tikzpicture".toList]) ++
          [endEnvironment "center".toList])) := by
      simp [Diagram.render]
    rw [same]
    exact .single (List.cons_ne_nil _ _)

theorem written_code (tag : Text) {lines : List Text} (closed : Bool)
    (isListed : ∀ line ∈ lines, listed line ∧ '\n' ∉ line) :
    Written listed (Block.code tag lines closed).parts := by
  have each : ∀ line ∈ dropBlankEnds lines, listed line ∧ '\n' ∉ line := fun line member =>
    isListed line (dropBlankEnds_subset lines member)
  rw [Block.parts]
  split
  · exact .of_page .nil
  · next nonempty =>
      rw [List.isEmpty_iff] at nonempty
      rw [codeLines]
      split
      · exact written_picture _
      · refine ⟨_, .listing (arguments_languageOption tag) each .nil, ?_⟩
        exact .cons _ ((Spells.single nonempty).append (.refl _))

/-- **Every block is written as a page.** -/
theorem written_block {block : Block}
    (holds : block.Holds (fun text => '\n' ∉ text) (fun line => listed line ∧ '\n' ∉ line)) :
    Written listed block.parts := by
  have bold : Neat "\\textbf".toList := by decide
  have blank : PageLine [] := .of_neat (by decide)
  cases block with
  | list kind items => exact written_list kind holds.texts
  | table rows => exact written_table holds.texts
  | code tag lines closed => exact written_code tag closed holds.code
  | minorHeading text =>
      have neat := Inline.neat_format (holds.texts text (List.mem_singleton_self text))
      exact .of_page (.line (.of_neat (bold.command neat)) (.line blank .nil))
  | majorHeading text =>
      have large : Neat "\\large".toList := by decide
      have neat := Inline.neat_format (holds.texts text (List.mem_singleton_self text))
      exact .of_page (.line (.of_neat (large.append (bold.command neat)).group) (.line blank .nil))
  | quote text =>
      have neat := Inline.neat_format (holds.texts text (List.mem_singleton_self text))
      have inner : Page listed [Inline.format text] := .line (.of_neat neat) .nil
      have known : "quote".toList ∈ pageEnvironments := by decide
      exact .of_page (Page.plain known inner .nil)
  | paragraph text =>
      have neat := Inline.neat_format (holds.texts text (List.mem_singleton_self text))
      exact .of_page (.line (.of_neat neat) (.line blank .nil))

theorem Written.flatMap {blocks : List Block}
    (each : ∀ block ∈ blocks, Written listed block.parts) :
    Written listed (blocks.flatMap Block.parts) := by
  induction blocks with
  | nil => exact .of_page .nil
  | cons block blocks ih =>
      rw [List.forall_mem_cons] at each
      obtain ⟨ls, page, spells⟩ := each.1
      obtain ⟨rest, later, behind⟩ := ih each.2
      exact ⟨ls ++ rest, page.append later, spells.append behind⟩

/-- **The body of a slide is a page.** -/
theorem exists_page_body {content : List Text} (oneLine : ∀ line ∈ content, '\n' ∉ line)
    (isListed : ∀ line ∈ fencedLines content, listed line) :
    ∃ ls, Page listed ls ∧ body content = unlines ls := by
  have code : ∀ line ∈ fencedLines content, listed line ∧ '\n' ∉ line := fun line member =>
    ⟨isListed line member, oneLine line (mem_of_mem_fencedFrom member)⟩
  have holds := Block.holds_of_oneLine oneLine code
  obtain ⟨ls, page, spells⟩ :=
    Written.flatMap fun block member => written_block (holds block member)
  obtain ⟨trimmed, pageTrimmed, same⟩ := page.trim
  exact ⟨trimmed, pageTrimmed, by rw [body, spells.same, same]⟩

end Blocks

/-! ## Speaker notes -/

/-- Texts as rows: the end of a row stands behind each but the last. -/
def rowsOf : List Text → List Text
  | [] => []
  | [text] => [text]
  | text :: next :: texts => (text ++ Table.rowEnd) :: rowsOf (next :: texts)

theorem join_eq_unlines_rowsOf (texts : List Text) :
    join " \\\\\n".toList texts = unlines (rowsOf texts) := by
  fun_induction rowsOf texts with
  | case1 => rfl
  | case2 text => rfl
  | case3 text next texts ih =>
      obtain ⟨row, rows, same⟩ : ∃ row rows, rowsOf (next :: texts) = row :: rows := by
        cases texts with
        | nil => exact ⟨next, [], rfl⟩
        | cons => exact ⟨_, _, rfl⟩
      rw [join, ih, same, unlines_cons_cons, ← same]
      simp [Table.rowEnd]

theorem pageLine_of_mem_rowsOf {texts : List Text} (neat : ∀ text ∈ texts, Neat text) :
    ∀ row ∈ rowsOf texts, PageLine row := by
  fun_induction rowsOf texts with
  | case1 => simp
  | case2 text =>
      rw [List.forall_mem_singleton] at neat ⊢
      exact .of_neat neat
  | case3 text next texts ih =>
      rw [List.forall_mem_cons] at neat ⊢
      exact ⟨.of_row neat.1, ih neat.2⟩

theorem neat_of_mem_noteLines {notes : List Text} (oneLine : ∀ note ∈ notes, '\n' ∉ note) :
    ∀ line ∈ noteLines notes, Neat line := by
  intro line member
  obtain ⟨text, kept, rfl⟩ := List.mem_map.mp member
  obtain ⟨note, inside, rfl⟩ := List.mem_map.mp (List.mem_filter.mp kept).1
  exact Inline.neat_format fun found => oneLine note inside (mem_of_mem_trim found)

/-- **The body of a note is lines of a page.** -/
theorem exists_rows_noteBody {notes : List Text} (oneLine : ∀ note ∈ notes, '\n' ∉ note) :
    ∃ rows, (∀ row ∈ rows, PageLine row) ∧ noteBody notes = unlines rows :=
  ⟨_, pageLine_of_mem_rowsOf (neat_of_mem_noteLines oneLine), join_eq_unlines_rowsOf _⟩

end SlideDeck.Slide
