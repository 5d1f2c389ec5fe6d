import SlideDeck.Proofs.Html.ListTag
import SlideDeck.Proofs.Html.Tabular
import SlideDeck.Proofs.Html.Weaving

/-!
# List tags between strands

Once the items of a page are closed, its text is woven of strands, of tags of lists and of tables
whose cells are strands (`Woven`). A conversion that works inside the strands, one by one, and
passes over everything between them (`Weaves`) leaves the text woven with the same tags
(`Weaves.woven`). Symbols, emphasis and comments are converted that way. There are no listings to
take out (`Woven.takeListings_eq`), and the tables become elements, which are strands
(`Woven.convertTables`).
-/

set_option autoImplicit false

namespace SlideDeck.Html

open SlideDeck SlideDeck.Text SlideDeck.Latex

/-! ## Conversions that pass over what is between the strands -/

/-- The texts of which what stands between the cells of a table is made. -/
def tableTexts : List Text := [
  beginEnvironment "tabular".toList, ['\x7b'], ['l'], ['\x7d'],
  "\n\\toprule\n".toList, " & ".toList, " \\\\\n".toList, "\\midrule\n".toList,
  "\\bottomrule\n".toList, endEnvironment "tabular".toList]

/-- The texts between strands, with tables or without. -/
def fixedTexts (tables : Bool) : List Text :=
  ListTag.all.map ListTag.written ++ if tables then tableTexts else []

/-- A conversion that turns strands into strands, one by one, and passes over the texts between
them. -/
structure Weaves (tables : Bool) (convert : Text → Text) : Prop where
  strand : ∀ {s}, Strand 0 s → Strand 0 (convert s)
  append : ∀ {s}, Strand 0 s → ∀ t, convert (s ++ t) = convert s ++ convert t
  fixed : ∀ part ∈ fixedTexts tables, ∀ t, convert (part ++ t) = part ++ convert t

namespace Weaves

variable {tables : Bool} {convert : Text → Text} {matcher : Matcher Text}

theorem of_weaving (weaving : Weaving Strand matcher)
    (silent : ∀ part ∈ fixedTexts tables, Silent matcher part) :
    Weaves tables (substitute matcher) where
  strand strand := (weaving.substitute strand).1
  append strand := (weaving.substitute strand).2
  fixed part member := (silent part member).substitute_append

theorem comp {later : Text → Text} (first : Weaves tables convert) (second : Weaves tables later) :
    Weaves tables fun s => later (convert s) where
  strand strand := second.strand (first.strand strand)
  append strand t := by rw [first.append strand, second.append (first.strand strand)]
  fixed part member t := by rw [first.fixed part member, second.fixed part member]

theorem nil (weaves : Weaves tables convert) : convert [] = [] := by
  have twice := weaves.append .nil []
  rwa [List.nil_append, List.self_eq_append_left] at twice

theorem flatten (weaves : Weaves tables convert) {parts : List Text}
    (each : ∀ part ∈ parts, part ∈ fixedTexts tables) (t : Text) :
    convert (parts.flatten ++ t) = parts.flatten ++ convert t := by
  induction parts with
  | nil => rfl
  | cons part parts ih =>
      rw [List.forall_mem_cons] at each
      rw [List.flatten_cons, List.append_assoc, weaves.fixed part each.1, ih each.2,
        List.append_assoc]

/-! ## Tables -/

variable {header : List Text} {rows : List (List Text)}

theorem table_part (weaves : Weaves true convert) {part : Text} (member : part ∈ tableTexts)
    (t : Text) :
    convert (part ++ t) = part ++ convert t :=
  weaves.fixed part (List.mem_append_right _ member) t

theorem rowText (weaves : Weaves true convert) {cells : List Text}
    (each : ∀ cell ∈ cells, Strand 0 cell) (t : Text) :
    convert (rowText cells ++ t) = Html.rowText (cells.map convert) ++ convert t := by
  have whole :
      ∀ cells t, Html.rowText cells ++ t = join " & ".toList cells ++ (" \\\\\n".toList ++ t) := by
    intro cells t
    simp [Html.rowText, Table.rowLine, Table.rowEnd]
  have ended := weaves.table_part (show " \\\\\n".toList ∈ tableTexts by decide)
  rw [whole, whole]
  induction cells with
  | nil => exact ended t
  | cons cell cells ih =>
      rw [List.forall_mem_cons] at each
      cases cells with
      | nil =>
          rw [join, List.map_cons, List.map_nil, weaves.append each.1, ended]
          rfl
      | cons next cells =>
          rw [join, List.append_assoc, List.append_assoc, weaves.append each.1,
            weaves.table_part (by decide), ih each.2]
          simp only [List.map_cons, join, List.append_assoc]

theorem rowTexts (weaves : Weaves true convert) (each : ∀ row ∈ rows, ∀ cell ∈ row, Strand 0 cell)
    (t : Text) :
    convert (rows.flatMap Html.rowText ++ t) =
      (rows.map fun row => row.map convert).flatMap Html.rowText ++ convert t := by
  induction rows with
  | nil => rfl
  | cons row rows ih =>
      rw [List.forall_mem_cons] at each
      rw [List.flatMap_cons, List.append_assoc, weaves.rowText each.1, ih each.2, List.map_cons,
        List.flatMap_cons, List.append_assoc]

/-- A table is converted cell by cell. -/
theorem tableText (weaves : Weaves true convert) (columns : Nat)
    (eachHeader : ∀ cell ∈ header, Strand 0 cell) (each : ∀ row ∈ rows, ∀ cell ∈ row, Strand 0 cell)
    (t : Text) :
    convert (tableText columns header rows ++ t) =
      Html.tableText columns (header.map convert) (rows.map fun row => row.map convert) ++
        convert t := by
  have spec : ∀ t, convert (group (List.replicate columns 'l') ++ t) =
      group (List.replicate columns 'l') ++ convert t := by
    have same : group (List.replicate columns 'l') =
        (['\x7b'] :: (List.replicate columns ['l'] ++ [['\x7d']])).flatten := by
      simp [group]
    rw [same]
    refine weaves.flatten fun part member => List.mem_append_right _ ?_
    simp only [List.mem_cons, List.mem_append, List.not_mem_nil, or_false] at member
    rcases member with rfl | member | rfl
    · decide
    · rw [List.eq_of_mem_replicate member]
      decide
    · decide
  have begun := weaves.table_part (show beginEnvironment "tabular".toList ∈ tableTexts by decide)
  have ended := weaves.table_part (show endEnvironment "tabular".toList ∈ tableTexts by decide)
  have top := weaves.table_part (show "\n\\toprule\n".toList ∈ tableTexts by decide)
  have middle := weaves.table_part (show "\\midrule\n".toList ∈ tableTexts by decide)
  have bottom := weaves.table_part (show "\\bottomrule\n".toList ∈ tableTexts by decide)
  rw [tableText_append, tableText_append, begun, spec, top, weaves.rowText eachHeader, middle,
    weaves.rowTexts each, bottom, ended]

end Weaves

/-! ## Woven text -/

/-- Text of strands, tags of lists and tables, with the tags of lists in it. -/
inductive Woven (tables : Bool) : Text → List ListTag → Prop where
  | nil : Woven tables [] []
  | strand {s t : Text} {tags : List ListTag} (strand : Strand 0 s) (rest : Woven tables t tags) :
      Woven tables (s ++ t) tags
  | tag (tag : ListTag) {t : Text} {tags : List ListTag} (rest : Woven tables t tags) :
      Woven tables (tag.written ++ t) (tag :: tags)
  | table {columns : Nat} {header : List Text} {rows : List (List Text)} {t : Text}
      {tags : List ListTag} (allowed : tables = true) (someHeader : header ≠ [])
      (filled : ∀ row ∈ rows, row ≠ []) (eachHeader : ∀ cell ∈ header, Strand 0 cell)
      (each : ∀ row ∈ rows, ∀ cell ∈ row, Strand 0 cell) (rest : Woven tables t tags) :
      Woven tables (tableText columns header rows ++ t) tags

theorem written_mem_fixedTexts (tables : Bool) (tag : ListTag) : tag.written ∈ fixedTexts tables :=
  List.mem_append_left _ (List.mem_map_of_mem tag.mem_all)

/-- **What works inside the strands leaves the text woven**, with the same tags. -/
theorem Weaves.woven {tables : Bool} {convert : Text → Text} (weaves : Weaves tables convert)
    {s : Text}
    {tags : List ListTag} (woven : Woven tables s tags) : Woven tables (convert s) tags := by
  induction woven with
  | nil =>
      rw [weaves.nil]
      exact .nil
  | strand strand _ ih =>
      rw [weaves.append strand]
      exact .strand (weaves.strand strand) ih
  | tag tag _ ih =>
      rw [weaves.fixed _ (written_mem_fixedTexts tables tag)]
      exact .tag tag ih
  | @table columns header rows t tags allowed someHeader filled eachHeader each _ ih =>
      subst allowed
      have converted : ∀ row : List Text, (∀ cell ∈ row, Strand 0 cell) →
          ∀ cell ∈ row.map convert, Strand 0 cell := by
        intro row each cell member
        obtain ⟨source, inside, rfl⟩ := List.mem_map.mp member
        exact weaves.strand (each source inside)
      rw [weaves.tableText columns eachHeader each]
      refine .table rfl (by simpa using someHeader) ?_ (converted header eachHeader) ?_ ih
      · intro row member
        obtain ⟨source, inside, rfl⟩ := List.mem_map.mp member
        simpa using filled source inside
      · intro row member
        obtain ⟨source, inside, rfl⟩ := List.mem_map.mp member
        exact converted source (each source inside)

/-! ## The conversions -/

theorem weaves_literally {name replacement : Text} {tables : Bool} (new : Strand 0 replacement)
    (known : ∀ entry ∈ words, avoids ('\\' :: name) entry.1 = true ∨
      entry.2 = .none ∧ entry.1 = '\\' :: name)
    (apart : ∀ part ∈ fixedTexts tables, avoids ('\\' :: name) part = true) :
    Weaves tables (replace ('\\' :: name) replacement) :=
  .of_weaving (weaving_literally new known) fun part member =>
    (ledBy_literally _ _).silent (List.forall_mem_singleton.mpr (apart part member))

theorem weaves_convertSymbols : Weaves true convertSymbols := by
  have backslashes : Weaves true (replace (symbol "textbackslash".toList) backslash) :=
    weaves_literally (.of_level (by decide)) (by decide) (by decide)
  have tildes : Weaves true (replace (symbol "textasciitilde".toList) ['~']) :=
    weaves_literally (.of_text (by decide)) (by decide) (by decide)
  have circumflexes : Weaves true (replace (symbol "textasciicircum".toList) ['^']) :=
    weaves_literally (.of_text (by decide)) (by decide) (by decide)
  exact (backslashes.comp tildes).comp circumflexes

theorem weaves_spanCommand {names : List Text} {tag : Text}
    (weaving : Weaving Strand (spanCommand names tag))
    (apart : ∀ part ∈ fixedTexts true, ∀ name ∈ names, avoids ('\\' :: name) part = true) :
    Weaves true (substitute (spanCommand names tag)) :=
  .of_weaving weaving fun part member => silent_spanCommand (apart part member)

theorem weaves_convertEmphasis : Weaves true convertEmphasis := by
  have bold : Weaves true convertBold := weaves_spanCommand weaving_bold (by decide)
  have italic := weaves_spanCommand weaving_italic (by decide)
  have code := weaves_spanCommand weaving_code (by decide)
  have round : Weaves true convertInnermost := (bold.comp italic).comp code
  exact ((round.comp round).comp round).comp round

/-- Whether nothing in the text begins a comment, and the character behind it is not escaped. -/
def uncommented : Bool → Text → Bool
  | escaped, [] => !escaped
  | escaped, c :: s => (c != '%' || escaped) && uncommented (c == '\\') s

theorem dropCommentsFrom_append {escaped : Bool} {s : Text} (quiet : uncommented escaped s = true)
    (t : Text) : dropCommentsFrom escaped false (s ++ t) = s ++ dropComments t := by
  induction s generalizing escaped with
  | nil =>
      cases escaped with
      | false => rfl
      | true => cases quiet
  | cons c s ih =>
      rw [uncommented, Bool.and_eq_true] at quiet
      have later := ih quiet.2
      have outside : (decide (c = '%') && !escaped) = false := by
        rcases Bool.or_eq_true_iff.mp quiet.1 with other | escaped
        · simp [bne_iff_ne.mp other]
        · simp [escaped]
      rw [List.cons_append, dropCommentsFrom]
      split
      · next newline =>
          subst newline
          rw [List.cons_append, ← later]
          rfl
      · rw [if_neg Bool.false_ne_true, outside, if_neg Bool.false_ne_true, later, List.cons_append]

theorem uncommented_append {s t : Text} {escaped : Bool} (first : uncommented escaped s = true)
    (second : uncommented false t = true) : uncommented escaped (s ++ t) = true := by
  induction s generalizing escaped with
  | nil =>
      cases escaped with
      | false => exact second
      | true => cases first
  | cons c s ih =>
      rw [uncommented, Bool.and_eq_true] at first
      rw [List.cons_append, uncommented, first.1, ih first.2]
      rfl

theorem Strand.uncommented {depth : Nat} {s : Text} (strand : Strand depth s) :
    uncommented false s = true := by
  induction strand with
  | nil => rfl
  | @char _ c s text _ ih =>
      have notPercent : c ≠ '%' := by
        rintro rfl
        exact absurd text (by decide)
      have notSlash : c ≠ '\\' := by
        rintro rfl
        exact absurd text (by decide)
      rw [Html.uncommented, beq_eq_false_iff_ne.mpr notSlash, ih]
      simp [notPercent]
  | word member _ ih =>
      have each : ∀ entry ∈ words, Html.uncommented false entry.1 = true := by decide
      exact uncommented_append (each _ member) ih

/-- There are no comments in a strand. -/
theorem Strand.dropComments_append {depth : Nat} {s : Text} (strand : Strand depth s) (t : Text) :
    dropComments (s ++ t) = s ++ dropComments t :=
  dropCommentsFrom_append strand.uncommented t

theorem Strand.dropComments_eq_self {depth : Nat} {s : Text} (strand : Strand depth s) :
    dropComments s = s := by
  have whole := strand.dropComments_append []
  rwa [List.append_nil, show dropComments [] = [] from rfl, List.append_nil] at whole

theorem weaves_dropComments : Weaves true dropComments where
  strand strand := strand.dropComments_eq_self.symm ▸ strand
  append strand t := by rw [strand.dropComments_append, strand.dropComments_eq_self]
  fixed part member t := by
    have each : ∀ part ∈ fixedTexts true, Html.uncommented false part = true := by decide
    exact dropCommentsFrom_append (each part member) t

/-! ## Tables and listings -/

theorem silent_tableText {columns : Nat} {header : List Text} {rows : List (List Text)}
    {name : Text}
    (known : ∀ entry ∈ words, avoids ('\\' :: name) entry.1 = true)
    (fixed : ∀ part ∈ tableTexts, avoids ('\\' :: name) part = true)
    (eachHeader : ∀ cell ∈ header, Strand 0 cell)
    (each : ∀ row ∈ rows, ∀ cell ∈ row, Strand 0 cell) :
    Silent (skip? ('\\' :: name)) (tableText columns header rows) := by
  have inner : Silent (skip? ('\\' :: name)) (tableRows header rows) := by
    refine silent_tableRows known (fun text member => fixed text ?_) eachHeader each
    exact (by decide : ∀ text ∈ ["\n\\toprule\n".toList, "\\midrule\n".toList,
      "\\bottomrule\n".toList, " \\\\\n".toList], text ∈ tableTexts) text member
  have spec : Silent (skip? ('\\' :: name)) (group (List.replicate columns 'l')) := by
    refine Text.silent_skip (avoids_of_not_mem fun member => ?_)
    exact absurd (mem_group_columns member) (by decide)
  have begun := Text.silent_skip (fixed (beginEnvironment "tabular".toList) (by decide))
  have ended := Text.silent_skip (fixed (endEnvironment "tabular".toList) (by decide))
  exact begun.append (spec.append (inner.append ended))

/-- A command is not found in woven text that is apart from all its words and from what stands
between its strands. -/
theorem Woven.silent_skip {tables : Bool} {s name : Text} {tags : List ListTag}
    (woven : Woven tables s tags) (known : ∀ entry ∈ words, avoids ('\\' :: name) entry.1 = true)
    (fixed : ∀ part ∈ fixedTexts tables, avoids ('\\' :: name) part = true) :
    Silent (skip? ('\\' :: name)) s := by
  induction woven with
  | nil => trivial
  | strand strand _ ih => exact (strand.silent_skip known).append ih
  | tag tag _ ih =>
      exact (Text.silent_skip (fixed _ (written_mem_fixedTexts tables tag))).append ih
  | table allowed _ _ eachHeader each _ ih =>
      subst allowed
      have parts : ∀ part ∈ tableTexts, avoids ('\\' :: name) part = true := fun part member =>
        fixed part (List.mem_append_right _ member)
      exact (silent_tableText known parts eachHeader each).append ih

/-- There are no listings in woven text. -/
theorem Woven.takeListings_eq {s : Text} {tags : List ListTag} (woven : Woven true s tags) :
    takeListings s = (s, []) := by
  have apart : ∀ name ∈ codeEnvironments.map beginEnvironment, Silent (skip? name) s := by
    intro name member
    simp only [codeEnvironments, List.map_cons, List.map_nil, List.mem_cons, List.not_mem_nil,
      or_false] at member
    rcases member with rfl | rfl
    · exact woven.silent_skip (by decide) (by decide)
    · exact woven.silent_skip (by decide) (by decide)
  exact takeListingsFrom_of_silent ((Silent.findSome? apart).bind _) 0

/-- **Tables become elements**, and nothing else changes. -/
theorem Woven.convertTables {s : Text} {tags : List ListTag} (woven : Woven true s tags) :
    Woven false (convertTables s) tags := by
  have passes : ∀ {s}, Silent (skip? (beginEnvironment "tabular".toList)) s → ∀ t,
      Html.convertTables (s ++ t) = s ++ Html.convertTables t :=
    fun silent t => (silent.bind _).substitute_append t
  induction woven with
  | nil => exact .nil
  | strand strand _ ih =>
      rw [passes (strand.silent_skip (by decide))]
      exact .strand strand ih
  | tag tag _ ih =>
      have apart :
          ∀ tag ∈ ListTag.all, avoids (beginEnvironment "tabular".toList) tag.written = true := by
        decide
      rw [passes (Text.silent_skip (apart tag tag.mem_all))]
      exact .tag tag ih
  | @table columns header rows t tags _ someHeader filled eachHeader each _ ih =>
      have found := tabular?_tableText columns someHeader filled eachHeader each t
      have nonempty : tableText columns header rows ≠ [] := by
        simp [tableText, beginEnvironment, command]
      rw [Html.convertTables, substitute_append_of_some found nonempty]
      exact .strand (strand_tableHtml eachHeader each) ih

end SlideDeck.Html
