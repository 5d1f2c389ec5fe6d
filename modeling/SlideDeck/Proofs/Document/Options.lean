import SlideDeck.Proofs.Document.Parts
import SlideDeck.Proofs.Latex.Option

/-!
# Options in documents

The writer puts user text behind commands that can have an option: an item stands in front of its
text, and the end of a row in front of the first cell of the next row or of the next line of the
notes. It leaves square brackets as they are and nothing stands between the command and the text.
So a text that begins with a bracket is taken as an option (`optionsTaken_ofMarkdown_checkbox`).

These are the only places, and each counts (`optionsTaken_ofMarkdown`): behind the header of a table
and behind its last row there are rules, behind the last item the list ends, and all other text is
mute.
-/

set_option autoImplicit false

namespace SlideDeck

open SlideDeck.Text SlideDeck.Latex SlideDeck.Markdown

namespace Slide

/-- The texts of a block that stand behind a command that can have an option: the items of a list,
and the first cells of the data rows behind the first that has a place. -/
def Block.led : Block → List Text
  | .list _ items => items.map Inline.format
  | .table ((_ :: header) :: rows) =>
    (Table.fitting (header.length + 1) rows).tail.map fun row => Inline.format (row.headD [])
  | _ => []

/-- The texts of a slide that stand behind such a command: those of its content, and the lines of
its notes behind the first. -/
def ledTexts (slide : Slide) : List Text :=
  (blocksOf slide.content).flatMap Block.led ++ (noteLines slide.notes).tail

section Rows

variable {row t : Text} {rows : List Text}

theorem opensBracket_line (mute : Mute row) (behind : opensBracket (withoutListings t) = false) :
    opensBracket (withoutListings (row ++ '\n' :: t)) = opensBracket row := by
  rw [mute.withoutListings_line]
  exact opensBracket_append row ((opensBracket_cons_of_blank (by decide) _).trans behind)

theorem opensBracket_row (mute : Mute row) (t : Text) :
    opensBracket (withoutListings (row ++ (Table.rowEnd ++ '\n' :: t))) = opensBracket row := by
  rw [mute.withoutListings_append, withoutListings_rowEnd]
  refine opensBracket_append row ?_
  exact (opensBracket_cons_of_blank (by decide) _).trans (opensBracket_backslash _)

theorem optionsTaken_row (mute : Mute row) (t : Text) :
    optionsTaken (row ++ (Table.rowEnd ++ '\n' :: t)) =
      optionsTaken t + if opensBracket (withoutListings t) then 1 else 0 := by
  rw [mute.optionsTaken_append, optionsTaken_rowEnd]

/-- The ends of rows take an option for each row but the first that opens a bracket. -/
theorem optionsTaken_rows (mute : ∀ row ∈ rows, Mute row)
    (behind : opensBracket (withoutListings t) = false) :
    optionsTaken (terminated (rows.map (· ++ Table.rowEnd)) ++ t) =
      optionsTaken t + rows.tail.countP opensBracket := by
  have whole : ∀ row rows, terminated ((row :: rows).map (· ++ Table.rowEnd)) ++ t =
      row ++ (Table.rowEnd ++ '\n' :: (terminated (rows.map (· ++ Table.rowEnd)) ++ t)) := by
    intro row rows
    simp [terminated_cons]
  induction rows with
  | nil => rfl
  | cons row rows ih =>
      rw [List.forall_mem_cons] at mute
      rw [whole, optionsTaken_row mute.1, ih mute.2]
      cases rows with
      | nil => simp [terminated_nil, behind]
      | cons next rows =>
          rw [whole, opensBracket_row (mute.2 next List.mem_cons_self)]
          simp [List.countP_cons, Nat.add_assoc]

/-- So do those of rows whose last has no end. -/
theorem optionsTaken_join (mute : ∀ row ∈ rows, Mute row)
    (behind : opensBracket (withoutListings t) = false) :
    optionsTaken (join " \\\\\n".toList rows ++ '\n' :: t) =
      optionsTaken t + rows.tail.countP opensBracket := by
  have whole : ∀ row next rows, join " \\\\\n".toList (row :: next :: rows) ++ '\n' :: t =
      row ++ (Table.rowEnd ++ '\n' :: (join " \\\\\n".toList (next :: rows) ++ '\n' :: t)) := by
    intro row next rows
    simp [join, Table.rowEnd]
  induction rows with
  | nil => exact Mute.newline.optionsTaken_append t
  | cons row rows ih =>
      rw [List.forall_mem_cons] at mute
      cases rows with
      | nil => exact mute.1.optionsTaken_line t
      | cons next rows =>
          have opens : opensBracket (withoutListings
              (join " \\\\\n".toList (next :: rows) ++ '\n' :: t)) = opensBracket next := by
            have nextMute := mute.2 next List.mem_cons_self
            cases rows with
            | nil => exact opensBracket_line nextMute behind
            | cons third rows =>
                rw [whole]
                exact opensBracket_row nextMute _
          rw [whole, optionsTaken_row mute.1, ih mute.2, opens]
          simp [List.countP_cons, Nat.add_assoc]

/-- A mute line that opens no bracket, whatever stands behind it. -/
structure Rule (line : Text) : Prop extends Mute line where
  shut : ∀ t, opensBracket (line ++ t) = false

namespace Rule

variable {line : Text}

theorem command {name : Text} (mute : Mute ('\\' :: name)) : Rule ('\\' :: name) :=
  ⟨mute, fun _ => opensBracket_backslash _⟩

theorem shut_terminated (rule : Rule line) (back : List Text) (t : Text) :
    opensBracket (withoutListings (terminated (line :: back) ++ t)) = false := by
  rw [terminated_cons, List.append_assoc, rule.toMute.withoutListings_append]
  exact rule.shut _

/-- Rows in front of a rule. -/
theorem takes_rows {back : List Text} {n : Nat} (rule : Rule line) (rows : List Text)
    (mute : ∀ row ∈ rows, Mute row) (behind : Takes (line :: back) n) :
    Takes (rows.map (· ++ Table.rowEnd) ++ line :: back) (rows.tail.countP opensBracket + n) := by
  intro t
  rw [terminated_append, List.append_assoc, optionsTaken_rows mute (rule.shut_terminated back t),
    behind]
  omega

end Rule

end Rows

/-! ## Tables -/

theorem opensBracket_join (cell : Text) (cells : List Text) :
    opensBracket (join " & ".toList (cell :: cells)) = opensBracket cell := by
  cases cells with
  | nil => rfl
  | cons next cells =>
      rw [join, List.append_assoc]
      refine opensBracket_append cell ?_
      exact (opensBracket_cons_of_blank (by decide) _).trans
        (opensBracket_cons (by decide) (by decide) _)

theorem mute_join_cells {cells : List Text} (each : ∀ cell ∈ cells, Mute cell) :
    Mute (join " & ".toList cells) :=
  .join (.of_avoids (by decide)) each

theorem mute_bold (text : Text) : Mute (command "textbf".toList (Inline.format text)) :=
  mute_of_formatted ((Inline.formatted_format text).style (by decide))

theorem mute_columns (columns : Nat) :
    Mute (beginEnvironment "tabular".toList ++ group (List.replicate columns 'l')) := by
  refine .append (.of_avoids (by decide)) (Mute.group (.of_not_mem fun member => ?_))
  exact absurd (List.eq_of_mem_replicate member) (by decide)

/-- The cells of a data row, without the end of the row. -/
def dataCells (columns : Nat) (row : List Text) : Text :=
  join " & ".toList (row.map Inline.format ++ List.replicate (columns - row.length) [])

theorem mute_dataCells (columns : Nat) (row : List Text) : Mute (dataCells columns row) := by
  refine mute_join_cells fun cell member => ?_
  rcases List.mem_append.mp member with member | member
  · obtain ⟨source, -, rfl⟩ := List.mem_map.mp member
    exact mute_format source
  · rw [List.eq_of_mem_replicate member]
    exact .of_not_mem List.not_mem_nil

theorem opensBracket_dataCells (columns : Nat) (row : List Text) :
    opensBracket (dataCells columns row) = opensBracket (Inline.format (row.headD [])) := by
  rw [dataCells]
  cases row with
  | cons cell row => exact opensBracket_join _ _
  | nil =>
      have empty : opensBracket (Inline.format []) = false := by decide
      rw [List.headD_nil, empty, List.map_nil, List.nil_append]
      cases columns with
      | zero => rfl
      | succ columns => exact opensBracket_join [] _

theorem countP_led_table (cell : Text) (header : List Text) (rows : List (List Text)) :
    (Block.table ((cell :: header) :: rows)).led.countP opensBracket =
      ((Table.fitting (header.length + 1) rows).map (dataCells (header.length + 1))).tail.countP
        opensBracket := by
  rw [Block.led, ← List.map_tail, List.countP_map, List.countP_map]
  exact List.countP_congr fun row _ => by simp [opensBracket_dataCells]

/-- A table takes an option for each data row but the first that begins with a bracket. -/
theorem takes_linesOf (cell : Text) (header : List Text) (rows : List (List Text)) :
    Takes (Table.linesOf (cell :: header) rows)
      ((Block.table ((cell :: header) :: rows)).led.countP opensBracket) := by
  have head : Mute (join " & ".toList
      ((cell :: header).map fun cell => command "textbf".toList (Inline.format cell))) :=
    mute_join_cells (List.forall_mem_map.mpr fun cell _ => mute_bold cell)
  have begins : Takes [beginEnvironment "center".toList, beginEnvironment "tabular".toList ++
      group (List.replicate (header.length + 1) 'l'), "\\toprule".toList] 0 :=
    (Takes.of_avoids (by decide : ∀ part ∈ [beginEnvironment "center".toList], _)).cons
      ((Takes.of_mute (mute_columns _)).cons (.of_avoids (by decide)))
  have middle : Rule "\\midrule".toList := .command (.of_avoids (by decide))
  have bottom : Rule "\\bottomrule".toList := .command (.of_avoids (by decide))
  have ends : Takes ["\\bottomrule".toList, endEnvironment "tabular".toList,
    endEnvironment "center".toList] 0 := .of_avoids (by decide)
  have data := bottom.takes_rows
    ((Table.fitting (header.length + 1) rows).map (dataCells (header.length + 1)))
    (List.forall_mem_map.mpr fun row _ => mute_dataCells _ row) ends
  have titled := middle.takes_rows [_] (List.forall_mem_singleton.mpr head)
    ((Takes.of_mute middle.toMute).cons data)
  have cells : (Table.fitting (header.length + 1) rows).map (Table.dataLine (header.length + 1)) =
      ((Table.fitting (header.length + 1) rows).map (dataCells (header.length + 1))).map
        (· ++ Table.rowEnd) := by
    rw [List.map_map]
    rfl
  rw [countP_led_table, Table.linesOf, List.length_cons, cells]
  simpa [Table.headerLine, Table.rowLine] using begins.append titled

/-! ## Lists -/

/-- Items in front of a rule take an option for each that begins with a bracket. -/
theorem Rule.takes_items {line : Text} {back : List Text} {n : Nat} (rule : Rule line)
    (items : List Text) (mute : ∀ item ∈ items, Mute item) (behind : Takes (line :: back) n) :
    Takes (items.map ("\\item ".toList ++ ·) ++ line :: back) (items.countP opensBracket + n) := by
  induction items with
  | nil => simpa using behind
  | cons item items ih =>
      rw [List.forall_mem_cons] at mute
      have later := ih mute.2
      intro t
      have opens : opensBracket (withoutListings
          (terminated (items.map ("\\item ".toList ++ ·) ++ line :: back) ++ t)) = false := by
        cases items with
        | nil => exact rule.shut_terminated back t
        | cons next items =>
            rw [List.map_cons, List.cons_append, terminated_cons, List.append_assoc,
              List.append_assoc, withoutListings_item]
            exact opensBracket_backslash _
      rw [List.map_cons, List.cons_append, terminated_cons, List.append_assoc, List.append_assoc,
        optionsTaken_item, List.cons_append, opensBracket_line mute.1 opens,
        mute.1.optionsTaken_line, later t, List.countP_cons]
      omega

theorem takes_list (kind : ListKind) (items : List Text) :
    Takes (Block.list kind items).parts ((Block.list kind items).led.countP opensBracket) := by
  have begins : Mute (beginEnvironment kind.environment) := by
    cases kind <;> exact .of_avoids (by decide)
  have ends : Rule (endEnvironment kind.environment) := by
    cases kind <;> exact .command (.of_avoids (by decide))
  have listed := ends.takes_items (items.map Inline.format)
    (List.forall_mem_map.mpr fun text _ => mute_format text) (Takes.of_mute ends.toMute)
  have whole := (Takes.of_mute begins).cons listed
  simpa [Block.parts, Block.led, Function.comp_def] using whole

/-! ## Code -/

/-- The option of a listing does not end it. -/
theorem end_not_isInfix_languageOption (tag : Text) :
    ¬ endEnvironment listing <:+: languageOption tag := fun occurs =>
  (arguments_languageOption tag).neat.tidy.guarded.calm.2 ((end_isInfix _).trans occurs)

theorem takes_listing (tag : Text) {code : List Text}
    (noEnd : ∀ line ∈ code, ¬ endEnvironment listing <:+: line) :
    Takes [beginEnvironment listing ++ languageOption tag, unlines code,
      endEnvironment listing] 0 := by
  intro t
  have whole := (optionsTaken_listing (end_not_isInfix_languageOption tag) noEnd _).trans
    (Mute.newline.optionsTaken_append t)
  simpa [terminated_cons, terminated_nil] using whole

/-! ## Diagrams -/

theorem mute_pageName {id : Text} (isId : Diagram.IsId id) : Mute (Diagram.pageName id) :=
  .of_not_mem (isId.not_mem_pageName (by decide) (by decide))

theorem mute_pictureOf (source : Text) : Mute (Diagram.pictureOf source) := by
  rw [Diagram.pictureOf]
  split
  · exact .of_not_mem (by decide +kernel)
  · have composes : Diagram.Composes Mute (Diagram.read source).nodes :=
      ⟨.append, fun text member => .of_avoids ((by decide : ∀ text ∈ Diagram.lineTexts,
        ∀ literal ∈ watched, avoids literal text = true) text member), mute_pageName,
        fun node _ => (mute_escape node.2).group⟩
    have inner := composes.forall_mem_lines (Diagram.sound_read source)
    have center : Mute (beginEnvironment "center".toList) := .of_avoids (by decide)
    have picture : Mute (beginEnvironment "tikzpicture".toList ++ Diagram.pictureOptions) :=
      .append (.of_avoids (by decide)) (.of_not_mem (by decide +kernel))
    have back :
        Mute (endEnvironment "tikzpicture".toList) ∧ Mute (endEnvironment "center".toList) :=
      ⟨.of_avoids (by decide), .of_avoids (by decide)⟩
    refine Mute.join .newline ?_
    rw [List.append_assoc, List.append_assoc, ← List.append_assoc (Diagram.nodeLines _ _ _)]
    simp only [List.forall_mem_append, List.forall_mem_cons] at inner ⊢
    exact ⟨⟨center, picture, by simp⟩, inner, back.1, back.2, by simp⟩

/-! ## Bodies -/

/-- A table stands in an environment. -/
theorem exists_linesOf (header : List Text) (rows : List (List Text)) :
    ∃ inner, Table.linesOf header rows =
      (beginEnvironment "center".toList ++ []) :: (inner ++ [endEnvironment "center".toList]) := by
  have whole : ∀ front lines, (beginEnvironment "center".toList :: front) ++ lines ++
      ["\\bottomrule".toList, endEnvironment "tabular".toList, endEnvironment "center".toList] =
        (beginEnvironment "center".toList ++ []) :: ((front ++ lines ++
          ["\\bottomrule".toList, endEnvironment "tabular".toList]) ++
            [endEnvironment "center".toList]) := by
    simp
  exact ⟨_, whole _ _⟩

/-- So does a picture. -/
theorem exists_render (diagram : Diagram) :
    ∃ inner, diagram.render = unlines
      ((beginEnvironment "center".toList ++ []) ::
        (inner ++ [endEnvironment "center".toList])) := by
  have whole : ∀ lines, [beginEnvironment "center".toList,
      beginEnvironment "tikzpicture".toList ++ Diagram.pictureOptions] ++ lines ++
        [endEnvironment "tikzpicture".toList, endEnvironment "center".toList] =
      (beginEnvironment "center".toList ++ []) ::
        ((beginEnvironment "tikzpicture".toList ++ Diagram.pictureOptions) :: lines ++
          [endEnvironment "tikzpicture".toList] ++ [endEnvironment "center".toList]) := by
    simp
  rw [Diagram.render, List.append_assoc _ (Diagram.nodeLines _ _ _), whole]
  exact ⟨_, rfl⟩

/-- A part of a body: formatted text, or something that is not trimmed. -/
inductive Piece : Text → Prop where
  | line {s : Text} (formatted : Inline.Formatted 0 s 0) : Piece s
  | solid {s : Text} {n : Nat} (takes : Takes [s] n) (begins : trimStart s = s)
      (ends : trimEnd s = s) : Piece s

namespace Piece

variable {s : Text} {n : Nat}

theorem takes (piece : Piece s) : Takes [s] (optionsTaken (terminated [s])) := by
  cases piece with
  | line formatted => exact (Takes.of_mute (mute_of_formatted formatted)).self
  | solid takes _ _ => exact takes.self

theorem optionsTaken_line {s : Text} (formatted : Inline.Formatted 0 s 0) :
    optionsTaken (terminated [s]) = 0 :=
  (Takes.of_mute (mute_of_formatted formatted)).eq_optionsTaken.symm

theorem trimStart (piece : Piece s) :
    Piece (trimStart s) ∧ optionsTaken (terminated [trimStart s]) =
      optionsTaken (terminated [s]) := by
  cases piece with
  | line formatted =>
      have trimmed := formatted.trimStart
      exact ⟨.line trimmed, (optionsTaken_line trimmed).trans (optionsTaken_line formatted).symm⟩
  | solid takes begins ends =>
      rw [begins]
      exact ⟨.solid takes begins ends, rfl⟩

theorem trimEnd (piece : Piece s) :
    Piece (trimEnd s) ∧ optionsTaken (terminated [trimEnd s]) = optionsTaken (terminated [s]) := by
  cases piece with
  | line formatted =>
      have trimmed := formatted.trimEnd
      exact ⟨.line trimmed, (optionsTaken_line trimmed).trans (optionsTaken_line formatted).symm⟩
  | solid takes begins ends =>
      rw [ends]
      exact ⟨.solid takes begins ends, rfl⟩

theorem between (first : Char) (inner : Text) {last : Char} (visible : isBlank first = false)
    (visibleLast : isBlank last = false) (mute : Mute (first :: (inner ++ [last]))) :
    Piece (first :: (inner ++ [last])) := by
  refine .solid (.of_mute mute) (trimStart_cons visible _) ?_
  rw [← List.cons_append]
  exact trimEnd_append_singleton _ visibleLast

/-- What stands between the two ends of an environment is not trimmed. -/
theorem environment {name args : Text} (lines : List Text)
    (takes :
      Takes [unlines ((beginEnvironment name ++ args) :: (lines ++ [endEnvironment name]))] n) :
    Piece (unlines ((beginEnvironment name ++ args) :: (lines ++ [endEnvironment name]))) := by
  refine .solid takes (trimStart_unlines (by decide) _ _) ?_
  have ending : endEnvironment name = ('\\' :: "end".toList ++ '\x7b' :: name) ++ ['\x7d'] := by
    simp [endEnvironment, command, group]
  rw [ending, ← List.cons_append]
  exact trimEnd_unlines_concat _ _ (by decide)

theorem pictureOf (source : Text) : Piece (Diagram.pictureOf source) := by
  have takes := Takes.of_mute (mute_pictureOf source)
  rw [Diagram.pictureOf] at takes ⊢
  split
  · exact between '%' " diagram: no nodes could be parse".toList (by decide) (by decide)
      (.of_not_mem (by decide +kernel))
  · next nonempty =>
      obtain ⟨inner, whole⟩ := exists_render (Diagram.read source)
      rw [if_neg nonempty, whole] at takes
      rw [whole]
      exact environment _ takes

end Piece

section Blocks

/-- A block none of whose code ends a listing spells pieces, which take an option for each of its
texts behind a command that opens a bracket. -/
theorem exists_pieces {block : Block}
    (code : ∀ line ∈ block.listed, ¬ endEnvironment listing <:+: line) :
    ∃ pieces, (∀ piece ∈ pieces, Piece piece) ∧ Takes pieces (block.led.countP opensBracket) ∧
      Spells block.parts pieces := by
  have formatted : ∀ text, Piece (Inline.format text) := fun text =>
    .line (Inline.formatted_format text)
  have bold : ∀ text, Inline.Formatted 0 (command "textbf".toList (Inline.format text)) 0 :=
    fun text => (Inline.formatted_format text).style (by decide)
  have blank : Piece [] := .line .nil
  have silent : Mute [] := .of_not_mem List.not_mem_nil
  cases block with
  | list kind items =>
      have takes := (takes_list kind items).unlines
      refine ⟨[unlines (Block.list kind items).parts], List.forall_mem_singleton.mpr ?_, takes,
        (Spells.single (List.cons_ne_nil _ _)).symm⟩
      rw [Block.parts, ← List.append_nil (beginEnvironment _)] at takes ⊢
      exact .environment _ takes
  | table rows =>
      rcases rows with _ | ⟨_ | ⟨cell, header⟩, rows⟩
      · exact ⟨[], by simp, .nil, .refl _⟩
      · exact ⟨[], by simp, .nil, .refl _⟩
      · rw [parts_table]
        have takes := (takes_linesOf cell header rows).unlines
        refine ⟨_, List.forall_mem_singleton.mpr ?_, takes, .refl _⟩
        obtain ⟨inner, whole⟩ := exists_linesOf (cell :: header) rows
        rw [whole] at takes ⊢
        exact .environment _ takes
  | code tag lines closed =>
      rw [Block.parts]
      split
      · exact ⟨[], by simp, .nil, .refl _⟩
      · rw [codeLines]
        split
        · exact ⟨_, List.forall_mem_singleton.mpr (.pictureOf _), .of_mute (mute_pictureOf _),
            .refl _⟩
        · next ordinary =>
            rw [Block.listed, if_neg ordinary] at code
            have takes := (takes_listing tag fun line member =>
              code line (dropBlankEnds_subset lines member)).unlines
            exact ⟨_, List.forall_mem_singleton.mpr (.environment [_] takes), takes,
              (Spells.single (List.cons_ne_nil _ _)).symm⟩
  | minorHeading text =>
      have mute := mute_of_formatted (bold text)
      exact ⟨_, List.forall_mem_cons.mpr ⟨.line (bold text), List.forall_mem_singleton.mpr blank⟩,
        (Takes.of_mute mute).cons (.of_mute silent), .refl _⟩
  | majorHeading text =>
      have large : Mute "\\large".toList := .of_avoids (by decide)
      have mute := (large.append (mute_of_formatted (bold text))).group
      exact ⟨_, List.forall_mem_cons.mpr ⟨.between _ _ (by decide) (by decide) mute,
        List.forall_mem_singleton.mpr blank⟩, (Takes.of_mute mute).cons (.of_mute silent), .refl _⟩
  | quote text =>
      have begins : Mute (beginEnvironment "quote".toList) := .of_avoids (by decide)
      have ends : Mute (endEnvironment "quote".toList) := .of_avoids (by decide)
      refine ⟨(Block.quote text).parts, ?_, .of_forall_mute ?_, .refl _⟩ <;>
        simp only [Block.parts, List.forall_mem_cons]
      · exact ⟨.between '\\' "begin\x7bquote".toList (by decide) (by decide) begins, formatted text,
          .between '\\' "end\x7bquote".toList (by decide) (by decide) ends, by simp⟩
      · exact ⟨begins, mute_format text, ends, by simp⟩
  | paragraph text =>
      exact ⟨_, List.forall_mem_cons.mpr ⟨formatted text, List.forall_mem_singleton.mpr blank⟩,
        (Takes.of_mute (mute_format text)).cons (.of_mute silent), .refl _⟩

/-- Neither cutting a body into pieces nor trimming it changes what takes an option. -/
theorem takes_body {content : List Text}
    (code : ∀ line ∈ listedLines content, ¬ endEnvironment listing <:+: line) :
    Takes [body content] (((blocksOf content).flatMap Block.led).countP opensBracket) := by
  have spelled : ∃ pieces, (∀ piece ∈ pieces, Piece piece) ∧
      Takes pieces (((blocksOf content).flatMap Block.led).countP opensBracket) ∧
        Spells ((blocksOf content).flatMap Block.parts) pieces := by
    rw [listedLines] at code
    generalize blocksOf content = blocks at code
    induction blocks with
    | nil => exact ⟨[], by simp, .nil, .refl _⟩
    | cons block blocks ih =>
        rw [List.flatMap_cons, List.forall_mem_append] at code
        obtain ⟨pieces, each, takes, spells⟩ := exists_pieces code.1
        obtain ⟨later, eachLater, takesLater, behind⟩ := ih code.2
        refine ⟨pieces ++ later, List.forall_mem_append.mpr ⟨each, eachLater⟩, ?_,
          spells.append behind⟩
        rw [List.flatMap_cons, List.countP_append]
        exact takes.append takesLater
  obtain ⟨pieces, each, takes, spells⟩ := spelled
  obtain ⟨trimmed, kept, sum, same⟩ :=
    exists_trim_unlines (fun s => optionsTaken (terminated [s])) (by decide)
      (fun _ => Piece.trimStart) (fun _ => Piece.trimEnd) each
  have whole := Takes.of_forall fun piece member => (each piece member).takes
  have parts := Takes.of_forall fun piece member => (kept piece member).takes
  rw [body, spells.same, same, takes.unique whole, ← sum]
  exact parts.unlines

end Blocks

end Slide

/-! ## Documents -/

namespace Document

open SlideDeck.Slide

/-- A note takes an option for each line but the first that begins with a bracket. -/
theorem takes_noteLines (notes : List Text) :
    Takes (noteLines (Slide.noteBody notes))
      ((Slide.noteLines notes).tail.countP opensBracket) := by
  have mute : ∀ line ∈ Slide.noteLines notes, Mute line :=
    List.forall_mem_map.mpr fun text _ => mute_format text
  have begins : Mute "\\note\x7b".toList := .of_avoids (by decide)
  have ends : Rule "\x7d".toList :=
    ⟨.of_avoids (by decide), fun _ => opensBracket_cons (by decide) (by decide) _⟩
  rw [noteLines]
  split
  · next empty =>
    have first : (Slide.noteLines notes).tail = [] := by
      rw [List.isEmpty_iff, Slide.noteBody] at empty
      match same : Slide.noteLines notes with
      | [] => rfl
      | [_] => rfl
      | line :: next :: lines =>
          rw [same, join] at empty
          simp at empty
    rw [first]
    exact .nil
  · intro t
    have text := optionsTaken_join mute (ends.shut_terminated [] t)
    have whole := (begins.optionsTaken_line _).trans text
    rw [Takes.of_mute ends.toMute] at whole
    simpa [Slide.noteBody, terminated_cons, terminated_nil] using whole

/-- A frame takes an option for each text behind a command that begins with a bracket. -/
theorem takes_frame {slide : Slide}
    (code : ∀ line ∈ listedLines slide.content, ¬ endEnvironment listing <:+: line) :
    Takes (frame slide) ((ledTexts slide).countP opensBracket) := by
  have option : Mute (fragileOption (Slide.body slide.content)) := by
    rcases fragileOption_eq_or (Slide.body slide.content) with same | same <;> rw [same] <;>
      exact .of_avoids (by decide)
  have begins : Mute (beginEnvironment "frame".toList ++ frameArguments slide) :=
    .append (.of_avoids (by decide)) (option.append (mute_format slide.title).group)
  have body : Takes (bodyParts slide)
      (((blocksOf slide.content).flatMap Block.led).countP opensBracket) := by
    have takes := takes_body code
    rw [bodyParts]
    split
    · next empty =>
      rw [List.isEmpty_iff.mp empty] at takes
      rw [takes.unique (.of_mute (.of_not_mem List.not_mem_nil))]
      exact .nil
    · exact takes
  have ends : Takes [endEnvironment "frame".toList] 0 := .of_avoids (by decide)
  have blank : Takes [[]] 0 := .of_avoids (by decide)
  rw [frame_eq, ledTexts, List.countP_append]
  simpa using (Takes.of_mute begins).cons
    (body.append (ends.cons ((takes_noteLines slide.notes).append blank)))

theorem takes_opening {metadata : Entries} {options : Options}
    (theme : '\\' ∉ (settings metadata options).theme)
    (colorTheme : '\\' ∉ (settings metadata options).colorTheme) (hasNotes : Bool) :
    Takes (opening (settings metadata options) hasNotes) 0 := by
  have fixed : ∀ part ∈ commonParts, ∀ literal ∈ watched, avoids literal part = true := by
    decide +kernel
  have ratio : ∀ ratio ∈ aspectRatios, ∀ literal ∈ watched, avoids literal (commandWith
      "documentclass".toList ("aspectratio=".toList ++ ratio) "beamer".toList) = true := by
    decide +kernel
  have named :
      ∀ name ∈ settingNames, ∀ literal ∈ watched, avoids literal ('\\' :: name) = true := by
    decide
  have defaults : ∀ text ∈ ["Presentation".toList, [], "\\today".toList],
      ∀ literal ∈ watched, avoids literal text = true := by decide
  refine .of_forall_mute (forall_mem_opening (fun part member => .of_avoids (fixed part member))
    (fun value member => .of_avoids (ratio value member)) (fun name member {_} argument => ?_)
    (.of_not_mem theme) (.of_not_mem colorTheme) (fun text => mute_escape _)
    (fun text member => .of_avoids (defaults text member)) hasNotes)
  exact (Mute.of_avoids (named name member)).append argument.group

/-- **User text is taken as an option exactly where it begins with a bracket behind a command.** If
the themes are no LaTeX and no code ends its listing, then in the document of a source, listings
apart, as many items and ends of rows take an option as items, first cells of rows behind the first
and lines of notes behind the first begin with a bracket. -/
theorem optionsTaken_ofMarkdown (source : Text) (options : Options)
    (theme : '\\' ∉ (settings (Presentation.read source).metadata options).theme)
    (colorTheme : '\\' ∉ (settings (Presentation.read source).metadata options).colorTheme)
    (code : ∀ slide ∈ (Presentation.read source).slides,
      ∀ line ∈ listedLines slide.content, ¬ endEnvironment listing <:+: line) :
    optionsTaken (ofMarkdown source options) =
      ((Presentation.read source).slides.flatMap ledTexts).countP opensBracket := by
  have frames : Takes ((Presentation.read source).slides.flatMap frame)
      (((Presentation.read source).slides.flatMap ledTexts).countP opensBracket) :=
    .flatMap fun slide member => takes_frame (code slide member)
  have title : Takes titleFrame 0 := .of_avoids (by decide)
  have last : Takes closing 0 := .of_avoids (by decide)
  rw [← Nat.add_zero (List.countP _ _), ← Nat.zero_add (List.countP _ _)]
  exact ((((takes_opening theme colorTheme _).append title).append frames).append
    last).eq_optionsTaken.symm

/-- A slide with brackets in items, cells, its code and its notes. -/
def brackets : Text :=
  unlines [
    "## A".toList, "- a [x]".toList, "- [x] b".toList, "| a | b |".toList, "|---|---|".toList,
    "| [1] | 2 |".toList, "| [3] | [4] |".toList, "```".toList, "\\item [x]".toList, "```".toList,
    "Note: [a]".toList, "[b] c".toList]

theorem optionsTaken_ofMarkdown_brackets :
    '\\' ∉ (settings (Presentation.read brackets).metadata {}).theme ∧
      '\\' ∉ (settings (Presentation.read brackets).metadata {}).colorTheme ∧
      (∀ slide ∈ (Presentation.read brackets).slides,
        ∀ line ∈ listedLines slide.content, ¬ endEnvironment listing <:+: line) ∧
      optionsTaken (ofMarkdown brackets {}) = 3 := by
  have theme : '\\' ∉ (settings (Presentation.read brackets).metadata {}).theme := by
    decide +kernel
  have colorTheme : '\\' ∉ (settings (Presentation.read brackets).metadata {}).colorTheme := by
    decide +kernel
  have code : ∀ slide ∈ (Presentation.read brackets).slides,
      ∀ line ∈ listedLines slide.content, ¬ endEnvironment listing <:+: line := by
    simp only [← includes_iff]
    decide +kernel
  exact ⟨theme, colorTheme, code,
    (optionsTaken_ofMarkdown brackets {} theme colorTheme code).trans (by decide +kernel)⟩

/-- The text of an item is taken as its option. -/
theorem optionsTaken_ofMarkdown_checkbox :
    ¬ ∀ source options, optionsTaken (ofMarkdown source options) = 0 := by
  intro all
  have untaken := all (unlines ["## A".toList, "- [x] done".toList]) {}
  revert untaken
  decide +kernel

end Document

end SlideDeck
