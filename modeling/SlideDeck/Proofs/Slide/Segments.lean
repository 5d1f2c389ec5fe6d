import SlideDeck.Proofs.Document.Options
import SlideDeck.Proofs.Slide.Outline

/-!
# Blocks as segments

The parts of a block on the page are cut into rows, and code that is no diagram is a listing
(`Block.segments`). The segments of every block are firm and of single lines, their environments are
nested, and only a list has items in them: one for each text, each in the environment that the list
begins with (`itemLines_segments`). No listing begins in a row, also after the page has been trimmed
(`listless_kept`).
-/

set_option autoImplicit false

namespace SlideDeck.Slide

open SlideDeck SlideDeck.Text SlideDeck.Latex SlideDeck.Lint

/-! ## Segments -/

/-- The option and the code of a block that is written as a listing. -/
def Block.listing? : Block → Option (Text × List Text)
  | .code tag lines _ =>
    let body := dropBlankEnds lines
    if body.isEmpty || tag = diagramTag then none else some (languageOption tag, body)
  | _ => none

/-- The rows of the page for a block. -/
def Block.rows (block : Block) : List Text := block.parts.flatMap (splitAt '\n')

/-- The segments of the page for a block. -/
def Block.segments (block : Block) : List Segment :=
  match block.listing? with
  | some (option, body) => [.code option body]
  | none => block.rows.map .row

/-- The line of an item, with the environment that it stands in. -/
def placedLine (kind : ListKind) (number : Nat) (text : Text) : Text × Option (Text × Nat) :=
  ("\\item ".toList ++ Inline.format text, some (kind.environment, number))

/-- The lines with the items of a block whose first environment has the number. -/
def Block.placedLines (number : Nat) : Block → List (Text × Option (Text × Nat))
  | .list kind items => items.map (placedLine kind number)
  | _ => []

/-- Whether the block is a list. -/
def Block.isList : Block → Bool
  | .list .. => true
  | _ => false

section Rows

variable {block : Block} {parts : List Text} {option : Text} {body : List Text}

theorem linesOf_rows (ls : List Text) : linesOf (ls.map .row) = ls := by
  rw [linesOf, List.flatMap_map]
  exact List.flatMap_singleton' ls

theorem outside_rows (ls : List Text) : (ls.map Segment.row).flatMap Segment.outside = ls := by
  rw [List.flatMap_map]
  exact List.flatMap_singleton' ls

/-- Parts cut into rows. -/
theorem spells_rows (parts : List Text) : Spells parts (parts.flatMap (splitAt '\n')) := by
  induction parts with
  | nil => exact .refl _
  | cons part parts ih =>
      have one : Spells [unlines (splitAt '\n' part)] (splitAt '\n' part) :=
        .single (splitAt_ne_nil _ _)
      rw [unlines, join_splitAt] at one
      exact one.append ih

/-- Parts that spell single lines are cut into these. -/
theorem Spells.rows_eq {ls : List Text} (spells : Spells parts ls)
    (oneLine : ∀ line ∈ ls, '\n' ∉ line) : parts.flatMap (splitAt '\n') = ls := by
  by_cases isNil : ls = []
  · rw [isNil, spells.empty.mpr isNil]
    rfl
  · have nonempty := mt spells.empty.mp isNil
    have pieces : ∀ line ∈ parts.flatMap (splitAt '\n'), '\n' ∉ line := fun line member => by
      obtain ⟨part, -, inside⟩ := List.mem_flatMap.mp member
      exact not_mem_of_mem_splitAt inside
    rw [← splitAt_unlines isNil oneLine, ← spells.same, (spells_rows parts).same,
      splitAt_unlines (mt (spells_rows parts).empty.mpr nonempty) pieces]

/-- A row is a part of a part. -/
theorem exists_part_of_mem_rows {row : Text} (member : row ∈ block.rows) :
    ∃ part ∈ block.parts, row <:+: part := by
  obtain ⟨part, inside, piece⟩ := List.mem_flatMap.mp member
  have whole : row <:+: unlines (splitAt '\n' part) := isInfix_unlines piece List.infix_rfl
  rw [unlines, join_splitAt] at whole
  exact ⟨part, inside, whole⟩

theorem segments_of_none (noListing : block.listing? = none) :
    block.segments = block.rows.map .row := by
  rw [Block.segments, noListing]

theorem segments_of_some (found : block.listing? = some (option, body)) :
    block.segments = [.code option body] := by
  rw [Block.segments, found]

/-- What is written as a listing. -/
theorem listing?_eq_some (found : block.listing? = some (option, body)) :
    ∃ tag lines closed, block = .code tag lines closed ∧ option = languageOption tag ∧
      body = dropBlankEnds lines ∧ body ≠ [] ∧
      block.parts = [beginEnvironment listing ++ option, unlines body, endEnvironment listing] := by
  cases block with
  | code tag lines closed =>
      rw [Block.listing?] at found
      split at found
      · cases found
      · next ordinary =>
          obtain ⟨rfl, rfl⟩ := Prod.mk.inj (Option.some.inj found)
          simp only [Bool.or_eq_true, not_or, decide_eq_true_eq, List.isEmpty_iff] at ordinary
          refine ⟨tag, lines, closed, rfl, rfl, rfl, ordinary.1, ?_⟩
          rw [Block.parts]
          simp [codeLines, ordinary]
  | _ => cases found

/-- Code that is not written as a listing is blank or a diagram. -/
theorem parts_of_none {tag : Text} {lines : List Text} {closed : Bool}
    (noListing : (Block.code tag lines closed).listing? = none) :
    (Block.code tag lines closed).parts = [] ∨
      ∃ source, (Block.code tag lines closed).parts = [Diagram.pictureOf source] := by
  rw [Block.listing?] at noListing
  rw [Block.parts]
  split
  · exact .inl rfl
  · next nonempty =>
      simp only [nonempty, Bool.false_or, ite_eq_left_iff, reduceCtorEq, imp_false,
        decide_eq_true_eq, not_not] at noListing
      exact .inr ⟨_, if_pos noListing⟩

/-- The segments of a block spell its parts. -/
theorem spells_segments (block : Block) : Spells block.parts (linesOf block.segments) := by
  cases found : block.listing? with
  | none =>
      rw [segments_of_none found, linesOf_rows]
      exact spells_rows block.parts
  | some listed =>
      obtain ⟨option, body⟩ := listed
      obtain ⟨-, -, -, -, -, -, nonempty, parts⟩ := listing?_eq_some found
      rw [segments_of_some found, parts, linesOf_singleton]
      exact .cons _ ((Spells.single nonempty).append (.refl _))

end Rows

theorem listing?_segments (block : Block) :
    block.segments.filterMap Segment.listing? = block.listing?.toList := by
  cases found : block.listing? with
  | none =>
      rw [segments_of_none found, List.filterMap_map]
      exact List.filterMap_eq_nil_iff.mpr fun _ _ => rfl
  | some listed =>
      rw [segments_of_some found]
      rfl

/-! ## Environments -/

/-- The environments of a page without code are nested. -/
theorem Page.wellNested {ls : List Text} (page : Page (fun _ => False) ls) :
    WellNested (ls.flatMap environmentEnds) := by
  induction page with
  | nil => exact .nil
  | line isLine _ ih =>
      rw [List.flatMap_cons, environmentEnds_of_calm isLine.calm]
      exact ih
  | @environment name args inner rest member arguments _ _ ihInner ih =>
      have isName := isName_of_mem_pageEnvironments member
      rw [List.flatMap_cons, List.flatMap_append, List.flatMap_cons,
        environmentEnds_beginEnvironment isName arguments.neat.tidy.guarded.calm,
        environmentEnds_endEnvironment isName]
      exact .environment name ihInner ih
  | @listing args code rest arguments each _ ih =>
      have isName : IsName Slide.listing := by decide
      have empty : code = [] :=
        List.eq_nil_iff_forall_not_mem.mpr fun line member => (each line member).1
      rw [empty, List.nil_append, List.flatMap_cons, List.flatMap_cons,
        environmentEnds_beginEnvironment isName arguments.neat.tidy.guarded.calm,
        environmentEnds_endEnvironment isName]
      exact .environment _ .nil ih
  | placeholder _ ih =>
      have calm : Calm Diagram.placeholder := by decide
      rw [List.flatMap_cons, environmentEnds_of_calm calm]
      exact ih

section Blocks

variable {block : Block}

/-- A block that is no listing is written as a page without code. -/
theorem written_of_none (noListing : block.listing? = none)
    (oneLine : ∀ text ∈ block.texts, '\n' ∉ text) :
    Written (fun _ => False) block.parts := by
  cases block with
  | code tag lines closed =>
      rcases parts_of_none noListing with same | ⟨source, same⟩
      · rw [same]
        exact .of_page .nil
      · rw [same]
        exact written_picture source
  | _ => exact written_block ⟨oneLine, fun _ member => nomatch member⟩

/-- The environments in the segments of a block are nested. -/
theorem wellNested_segments (oneLine : ∀ text ∈ block.texts, '\n' ∉ text) :
    WellNested ((block.segments.flatMap Segment.outside).flatMap environmentEnds) := by
  cases found : block.listing? with
  | none =>
      obtain ⟨ls, page, spells⟩ := written_of_none found oneLine
      rw [segments_of_none found, outside_rows, Block.rows, spells.rows_eq page.oneLine]
      exact page.wellNested
  | some listed =>
      obtain ⟨option, body⟩ := listed
      obtain ⟨tag, -, -, -, rfl, -⟩ := listing?_eq_some found
      have page : Page (fun _ => False) ((beginEnvironment listing ++ languageOption tag) ::
          ([] ++ [endEnvironment listing])) :=
        .listing (arguments_languageOption tag) (fun _ member => nomatch member) .nil
      rw [segments_of_some found]
      exact page.wellNested

/-- The lines of a block are single lines. -/
theorem oneLine_segments (code : ∀ line ∈ block.codeLines, '\n' ∉ line) :
    ∀ line ∈ linesOf block.segments, '\n' ∉ line := by
  cases found : block.listing? with
  | none =>
      rw [segments_of_none found, linesOf_rows]
      intro row member
      obtain ⟨part, -, inside⟩ := List.mem_flatMap.mp member
      exact not_mem_of_mem_splitAt inside
  | some listed =>
      obtain ⟨option, body⟩ := listed
      obtain ⟨tag, lines, closed, rfl, rfl, rfl, -⟩ := listing?_eq_some found
      have page :
          Page (fun _ => True) (Segment.code (languageOption tag) (dropBlankEnds lines)).lines :=
        .listing (arguments_languageOption tag)
          (fun line member => ⟨trivial, code line (dropBlankEnds_subset lines member)⟩) .nil
      rw [segments_of_some found, linesOf_singleton]
      exact page.oneLine

/-! ## Trimming -/

theorem not_isInfix_of_mute {literal s : Text} (isWatched : literal ∈ watched) (mute : Mute s) :
    ¬ literal <:+: s := by
  have nonempty : ∀ literal ∈ watched, literal ≠ [] := by decide
  exact (mute.silent literal isWatched).not_isInfix (nonempty literal isWatched)

theorem itemless_of_mute {s : Text} (mute : Mute s) : ¬ itemCommand <:+: s :=
  not_isInfix_of_mute (by decide) mute

theorem Plain.of_mute {s : Text} (mute : Mute s) (tidy : Tidy s) : Plain s :=
  ⟨itemless_of_mute mute, tidy.guarded.calm⟩

/-- Plain parts make plain rows. -/
theorem firm_of_plain (noListing : block.listing? = none)
    (each : ∀ part ∈ block.parts, Plain part) :
    Firm block.segments := by
  rw [segments_of_none noListing]
  refine .of_plain_rows fun row member => ?_
  obtain ⟨part, inside, piece⟩ := exists_part_of_mem_rows member
  exact (each part inside).of_isInfix piece

/-- Nothing is trimmed of an environment. -/
theorem firm_of_environment {name args : Text} {inner : List Text}
    (same : unlines block.parts =
      unlines ((beginEnvironment name ++ args) :: (inner ++ [endEnvironment name]))) :
    Firm block.segments := by
  have ending : endEnvironment name = ('\\' :: "end".toList ++ '\x7b' :: name) ++ ['\x7d'] := by
    simp [endEnvironment, command, group]
  rw [(spells_segments block).same, ending] at same
  exact .of_solid (.of_lines (by decide) (by decide) same)

theorem firm_segments (block : Block) : Firm block.segments := by
  have bold : ∀ text, Tidy (command "textbf".toList (Inline.format text)) := fun text =>
    Tidy.command (by decide) (Inline.tidy_format text)
  have blank : ∀ part ∈ [[]], Plain part := by decide
  cases block with
  | list kind items =>
      have whole : (Block.list kind items).parts = (beginEnvironment kind.environment ++ []) ::
          (items.map (fun text => "\\item ".toList ++ Inline.format text) ++
            [endEnvironment kind.environment]) := by
        rw [List.append_nil]
        rfl
      exact firm_of_environment (congrArg unlines whole)
  | table rows =>
      rcases rows with _ | ⟨_ | ⟨cell, header⟩, rows⟩
      · exact .nil
      · exact .nil
      · obtain ⟨inner, whole⟩ := exists_linesOf (cell :: header) rows
        have same : unlines (Block.table ((cell :: header) :: rows)).parts =
            unlines (Table.linesOf (cell :: header) rows) := by
          rw [parts_table]
          rfl
        exact firm_of_environment (same.trans (congrArg unlines whole))
  | code tag lines closed =>
      cases found : (Block.code tag lines closed).listing? with
      | some listed =>
          obtain ⟨option, body⟩ := listed
          obtain ⟨-, -, -, -, -, -, -, parts⟩ := listing?_eq_some found
          have whole : (Block.code tag lines closed).parts = (beginEnvironment listing ++ option) ::
              ([unlines body] ++ [endEnvironment listing]) := parts
          exact firm_of_environment (congrArg unlines whole)
      | none =>
          rcases parts_of_none found with same | ⟨source, same⟩
          · exact firm_of_plain found (same ▸ fun _ member => nomatch member)
          · rw [Diagram.pictureOf] at same
            split at same
            · have plain : Plain Diagram.placeholder := by decide
              exact firm_of_plain found (same ▸ List.forall_mem_singleton.mpr plain)
            · obtain ⟨inner, whole⟩ := exists_render (Diagram.read source)
              exact firm_of_environment ((congrArg unlines same).trans whole)
  | minorHeading text =>
      exact firm_of_plain rfl (List.forall_mem_cons.mpr
        ⟨.of_mute (mute_bold text) (bold text), blank⟩)
  | majorHeading text =>
      have large : Tidy "\\large".toList := by decide
      have mute : Mute "\\large".toList := .of_avoids (by decide)
      refine firm_of_plain rfl (List.forall_mem_cons.mpr ⟨.of_mute ?_ ?_, blank⟩)
      · exact (mute.append (mute_bold text)).group
      · exact (large.append (bold text)).group
  | quote text =>
      have whole : (Block.quote text).parts = (beginEnvironment "quote".toList ++ []) ::
          ([Inline.format text] ++ [endEnvironment "quote".toList]) := by
        rw [List.append_nil]
        rfl
      exact firm_of_environment (congrArg unlines whole)
  | paragraph text =>
      exact firm_of_plain rfl
        (List.forall_mem_cons.mpr ⟨.of_mute (mute_format text) (Inline.tidy_format text), blank⟩)

/-! ## Where items and listings begin -/

/-- The commands with which an item and a listing begin. -/
def beginnings : List Text := [itemCommand, beginEnvironment listing]

section Beginnings

variable {literal : Text}

theorem watched_of_mem_beginnings (member : literal ∈ beginnings) : literal ∈ watched :=
  (by decide : ∀ literal ∈ beginnings, literal ∈ watched) literal member

theorem not_isInfix_row (member : literal ∈ beginnings) {row : Text} (mute : Mute row) :
    ¬ literal <:+: row ++ Table.rowEnd := by
  have other : ∀ literal ∈ beginnings, ' ' ∉ literal ∧ ¬ literal <:+: ['\\', '\\'] := by decide
  intro occurs
  rcases isInfix_of_isInfix_append_cons (other literal member).1 occurs with inside | behind
  · exact not_isInfix_of_mute (watched_of_mem_beginnings member) mute inside
  · exact (other literal member).2 behind

/-- Neither begins in a table. -/
theorem not_isInfix_linesOf (member : literal ∈ beginnings) (header : List Text)
    (rows : List (List Text)) : ∀ line ∈ Table.linesOf header rows, ¬ literal <:+: line := by
  have rules : ∀ literal ∈ beginnings, ∀ line ∈ [beginEnvironment "center".toList,
      "\\toprule".toList, "\\midrule".toList, "\\bottomrule".toList,
      endEnvironment "tabular".toList, endEnvironment "center".toList], ¬ literal <:+: line := by
    decide
  have columns : ¬ literal <:+: beginEnvironment "tabular".toList ++
      group (List.replicate header.length 'l') :=
    not_isInfix_of_mute (watched_of_mem_beginnings member) (mute_columns _)
  have titles : ¬ literal <:+: Table.headerLine header :=
    not_isInfix_row member (mute_join_cells (List.forall_mem_map.mpr fun cell _ => mute_bold cell))
  have data : ∀ row, ¬ literal <:+: Table.dataLine header.length row := fun row =>
    not_isInfix_row member (mute_dataCells header.length row)
  simp only [List.forall_mem_cons] at rules
  obtain ⟨begins, top, middle, bottom, back⟩ : _ ∧ _ ∧ _ ∧ _ ∧ _ := rules literal member
  simp only [Table.linesOf, List.forall_mem_append, List.forall_mem_cons]
  exact ⟨⟨⟨begins, columns, top, titles, middle, by simp⟩,
    List.forall_mem_map.mpr fun row _ => data row⟩, bottom, back⟩

theorem listingless_item {s : Text} (mute : Mute s) :
    ¬ beginEnvironment listing <:+: "\\item ".toList ++ s := by
  have front : avoids (beginEnvironment listing) "\\item ".toList = true := by decide
  have silent := (silent_skip front).append (mute.silent _ List.mem_cons_self)
  exact silent.not_isInfix (List.cons_ne_nil _ _)

/-- A list begins no listing. -/
theorem listingless_list (kind : ListKind) (items : List Text) :
    ∀ part ∈ (Block.list kind items).parts, ¬ beginEnvironment listing <:+: part := by
  have ends : ∀ part ∈ [beginEnvironment kind.environment, endEnvironment kind.environment],
      ¬ beginEnvironment listing <:+: part := by
    cases kind <;> decide
  simp only [List.forall_mem_cons] at ends
  simp only [Block.parts, List.forall_mem_cons, List.forall_mem_append, List.forall_mem_map]
  exact ⟨⟨ends.1, fun text _ => listingless_item (mute_format text)⟩, ends.2⟩

/-- Only a list has items, and only a listing begins one. -/
theorem not_isInfix_part (member : literal ∈ beginnings) (noListing : block.listing? = none)
    (noList : literal = itemCommand → block.isList = false) :
    ∀ part ∈ block.parts, ¬ literal <:+: part := by
  have mute : ∀ {s}, Mute s → ¬ literal <:+: s :=
    not_isInfix_of_mute (watched_of_mem_beginnings member)
  have blank : ∀ part ∈ [[]], ¬ literal <:+: part :=
    List.forall_mem_singleton.mpr (mute (.of_not_mem List.not_mem_nil))
  cases block with
  | list kind items =>
      have items := listingless_list kind items
      rw [beginnings, List.mem_cons, List.mem_singleton] at member
      rcases member with rfl | rfl
      · cases noList rfl
      · exact items
  | table rows =>
      rcases rows with _ | ⟨_ | ⟨cell, header⟩, rows⟩
      · exact fun _ member => nomatch member
      · exact fun _ member => nomatch member
      · have kept : ∀ literal ∈ beginnings, literal ≠ [] ∧ '\n' ∉ literal := by decide
        obtain ⟨nonempty, oneLine⟩ := kept literal member
        rw [parts_table]
        refine List.forall_mem_singleton.mpr fun occurs => ?_
        obtain ⟨line, inside, here⟩ := exists_line_of_isInfix nonempty oneLine occurs
        exact not_isInfix_linesOf member (cell :: header) rows line inside here
  | code tag lines closed =>
      rcases parts_of_none noListing with same | ⟨source, same⟩
      · exact same ▸ fun _ member => nomatch member
      · exact same ▸ List.forall_mem_singleton.mpr (mute (mute_pictureOf source))
  | minorHeading text => exact List.forall_mem_cons.mpr ⟨mute (mute_bold text), blank⟩
  | majorHeading text =>
      have large : Mute "\\large".toList := .of_avoids (by decide)
      exact List.forall_mem_cons.mpr ⟨mute (large.append (mute_bold text)).group, blank⟩
  | quote text =>
      have begins : Mute (beginEnvironment "quote".toList) := .of_avoids (by decide)
      have ends : Mute (endEnvironment "quote".toList) := .of_avoids (by decide)
      exact List.forall_mem_cons.mpr ⟨mute begins, List.forall_mem_cons.mpr
        ⟨mute (mute_format text), List.forall_mem_singleton.mpr (mute ends)⟩⟩
  | paragraph text => exact List.forall_mem_cons.mpr ⟨mute (mute_format text), blank⟩

theorem not_isInfix_of_mem_rows (member : literal ∈ beginnings) (noListing : block.listing? = none)
    (noList : literal = itemCommand → block.isList = false) :
    ∀ row ∈ block.rows, ¬ literal <:+: row := by
  intro row isRow occurs
  obtain ⟨part, inside, piece⟩ := exists_part_of_mem_rows isRow
  exact not_isInfix_part member noListing noList part inside (occurs.trans piece)

/-- In the rows among the segments of a block no listing begins. -/
theorem listless_segments {text : Text} (isRow : .row text ∈ block.segments) :
    ¬ beginEnvironment listing <:+: text := by
  cases found : block.listing? with
  | none =>
      have other : beginEnvironment listing ≠ itemCommand := by decide
      rw [segments_of_none found] at isRow
      obtain ⟨row, inside, same⟩ := List.mem_map.mp isRow
      obtain rfl := Segment.row.inj same
      exact not_isInfix_of_mem_rows (by decide) found (absurd · other) row inside
  | some listed =>
      rw [segments_of_some found, List.mem_singleton] at isRow
      cases isRow

end Beginnings

/-! ## Items -/

/-- The rows of a list are its parts. -/
theorem rows_list {kind : ListKind} {items : List Text}
    (oneLine : ∀ text ∈ (Block.list kind items).texts, '\n' ∉ text) :
    (Block.list kind items).rows = beginEnvironment kind.environment ::
      (items.map (fun text => "\\item ".toList ++ Inline.format text) ++
        [endEnvironment kind.environment]) := by
  have item : Neat "\\item ".toList := by decide
  have known : kind.environment ∈ pageEnvironments := by cases kind <;> decide
  have page : Page (fun _ => False) (Block.list kind items).parts :=
    Page.plain known (.of_neat (List.forall_mem_map.mpr fun text inside =>
      item.append (Inline.neat_format (oneLine text inside)))) .nil
  exact (Spells.refl _).rows_eq page.oneLine

theorem environmentEnds_list (kind : ListKind) :
    environmentEnds (beginEnvironment kind.environment) = [.opens kind.environment] := by
  have isName : IsName kind.environment := by cases kind <;> decide
  have calm : Calm [] := by decide
  rw [← List.append_nil (beginEnvironment _), environmentEnds_beginEnvironment isName calm]

/-- Items stand where they are read. -/
theorem itemLines_items (nest : Nest) (items : List Text) (back : List Text) :
    itemLines nest (items.map (fun text => "\\item ".toList ++ Inline.format text) ++ back) =
      items.map (fun text => ("\\item ".toList ++ Inline.format text, nest.opened.head?)) ++
        itemLines nest back := by
  have start : Tidy "\\item ".toList := by decide
  have spelled : "\\item ".toList = itemCommand ++ [' '] := by decide
  induction items with
  | nil => rfl
  | cons text items ih =>
      have item : includes itemCommand ("\\item ".toList ++ Inline.format text) = true := by
        rw [spelled, List.append_assoc]
        exact includes_iff.mpr (List.prefix_append itemCommand _).isInfix
      have same : nest.behind ("\\item ".toList ++ Inline.format text) = nest := by
        rw [Nest.behind, environmentEnds_of_calm
          (start.append (Inline.tidy_format text)).guarded.calm]
        rfl
      rw [List.map_cons, List.cons_append, itemLines, item, same, ih]
      rfl

theorem itemLines_list {kind : ListKind} {items : List Text}
    (oneLine : ∀ text ∈ (Block.list kind items).texts, '\n' ∉ text) (nest : Nest) :
    itemLines nest (Block.list kind items).rows = items.map (placedLine kind nest.begun) := by
  have begins : nest.behind (beginEnvironment kind.environment) =
      nest.meet (.opens kind.environment) := by
    rw [Nest.behind, environmentEnds_list]
    rfl
  have ends : ∀ line ∈ [beginEnvironment kind.environment, endEnvironment kind.environment],
      includes itemCommand line = false := by
    cases kind <;> decide
  rw [List.forall_mem_cons, List.forall_mem_singleton] at ends
  rw [rows_list oneLine, itemLines, ends.1, begins, itemLines_items, itemLines, ends.2]
  exact List.append_nil _

theorem slash_not_mem_languageOption (tag : Text) : '\\' ∉ languageOption tag := by
  have known : ∀ entry ∈ languages, '\\' ∉ "[language=".toList ++ entry.2 ++ [']'] := by decide
  rcases languageOption_eq_nil_or tag with empty | ⟨entry, member, same⟩
  · rw [empty]
    exact List.not_mem_nil
  · rw [same]
    exact known entry member

/-- **The items of a block stand in the environment that it begins with.** -/
theorem itemLines_segments (oneLine : ∀ text ∈ block.texts, '\n' ∉ text) (nest : Nest) :
    itemLines nest (block.segments.flatMap Segment.outside) = block.placedLines nest.begun := by
  cases isList : block.isList with
  | true =>
      cases block with
      | list kind items =>
          rw [segments_of_none rfl, outside_rows]
          exact itemLines_list oneLine nest
      | _ => cases isList
  | false =>
      have empty : block.placedLines nest.begun = [] := by
        cases block with
        | list => cases isList
        | _ => rfl
      rw [empty]
      refine itemLines_of_itemless nest ?_
      cases found : block.listing? with
      | none =>
          rw [segments_of_none found, outside_rows]
          exact not_isInfix_of_mem_rows (by decide) found fun _ => isList
      | some listed =>
          obtain ⟨option, body⟩ := listed
          obtain ⟨tag, -, -, -, rfl, -⟩ := listing?_eq_some found
          have isName : IsName listing := by decide
          have ends : ∀ line ∈ [endEnvironment listing], ¬ itemCommand <:+: line := by decide
          rw [segments_of_some found]
          refine List.forall_mem_cons.mpr ⟨fun occurs => ?_, ends⟩
          rcases isInfix_of_isInfix_beginEnvironment isName occurs with begins | inside
          · have next := (List.cons_prefix_cons.mp begins).2
            exact absurd (List.cons_prefix_cons.mp next).1 (by decide)
          · exact slash_not_mem_languageOption tag (inside.subset List.mem_cons_self)

/-- Behind the segments of a block the same environments are open as before; a list has begun
one. -/
theorem exists_foldl_behind (oneLine : ∀ text ∈ block.texts, '\n' ∉ text) (nest : Nest) :
    ∃ n, (block.segments.flatMap Segment.outside).foldl Nest.behind nest =
        { nest with begun := nest.begun + n } ∧ (block.isList = true → 0 < n) := by
  obtain ⟨n, same, grows⟩ := exists_foldl_meet (wellNested_segments oneLine) nest
  refine ⟨n, (foldl_behind nest _).trans same, fun isList => grows ?_⟩
  cases block with
  | list kind items =>
      rw [segments_of_none rfl, outside_rows, rows_list oneLine, List.flatMap_cons,
        environmentEnds_list]
      exact List.cons_ne_nil _ _
  | _ => cases isList

end Blocks

/-! ## Several blocks -/

section Several

variable {blocks : List Block}

/-- The segments of blocks spell their parts. -/
theorem spells_flatMap (blocks : List Block) :
    Spells (blocks.flatMap Block.parts) (linesOf (blocks.flatMap Block.segments)) := by
  induction blocks with
  | nil => exact .refl _
  | cons block blocks ih =>
      rw [List.flatMap_cons, List.flatMap_cons, linesOf_append]
      exact (spells_segments block).append ih

theorem singleLines_flatMap (code : ∀ block ∈ blocks, ∀ line ∈ block.codeLines, '\n' ∉ line) :
    SingleLines (blocks.flatMap Block.segments) := by
  induction blocks with
  | nil => exact fun _ member => nomatch member
  | cons block blocks ih =>
      rw [List.forall_mem_cons] at code
      rw [List.flatMap_cons, singleLines_append]
      exact ⟨oneLine_segments code.1, ih code.2⟩

theorem listing?_flatMap (blocks : List Block) :
    (blocks.flatMap Block.segments).filterMap Segment.listing? =
    blocks.filterMap Block.listing? := by
  rw [List.filterMap_flatMap, List.filterMap_eq_flatMap_toList]
  simp only [listing?_segments]

theorem wellNested_flatMap (oneLine : ∀ block ∈ blocks, ∀ text ∈ block.texts, '\n' ∉ text) :
    WellNested
      (((blocks.flatMap Block.segments).flatMap Segment.outside).flatMap environmentEnds) := by
  induction blocks with
  | nil => exact .nil
  | cons block blocks ih =>
      rw [List.forall_mem_cons] at oneLine
      rw [List.flatMap_cons, List.flatMap_append, List.flatMap_append]
      exact (wellNested_segments oneLine.1).append (ih oneLine.2)

/-- Nor does one begin in what trimming leaves of them. -/
theorem listless_kept {kept : List Segment} {text : Text}
    (keeps : Firm.Kept (blocks.flatMap Block.segments) kept) (isRow : .row text ∈ kept) :
    ¬ beginEnvironment listing <:+: text := by
  cases tells : (Segment.row text).telling with
  | true =>
      have telling : .row text ∈ kept.filter Segment.telling := List.mem_filter.mpr ⟨isRow, tells⟩
      rw [keeps.same] at telling
      obtain ⟨block, -, here⟩ := List.mem_flatMap.mp (List.mem_filter.mp telling).1
      exact listless_segments here
  | false =>
      obtain ⟨_, same, plain⟩ := Plain.of_telling_eq_false tells
      obtain rfl := Segment.row.inj same
      exact fun occurs => plain.calm.1 ((begin_isInfix _).trans occurs)

end Several

end SlideDeck.Slide
