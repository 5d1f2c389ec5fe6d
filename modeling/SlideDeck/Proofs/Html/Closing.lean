import SlideDeck.Proofs.Html.Layout

/-!
# Closing the items of lists

What comes first in the making of a fragment takes a layout from one style of lists to the next:
the ends of lists become tags (`Layout.convertEnds`), then the commands of items do
(`Layout.convertItems`). The lines that are read then are the lines that were written
(`Layout.lines`), and closing the items weaves the tags of the layout into them
(`Layout.closes`).

The command of an item takes all blanks behind it along, line ends included. So each item has to
leave something visible: else the next line would not begin with its own tag, and the reader of
lines would miss it.
-/

set_option autoImplicit false

namespace SlideDeck.Html

open SlideDeck SlideDeck.Text SlideDeck.Latex

/-! ## Strands before the items are closed -/

section Strands

variable {depth : Nat} {s : Text}

/-- Text that begins no word can be taken out of a strand. -/
theorem Strand.replace_text {c : Char} {literal : Text} (text : ∀ d ∈ c :: literal, isText d = true)
    (absent : ∀ entry ∈ words, c ∉ entry.1) (strand : Strand depth s) :
    Strand depth (replace (c :: literal) [] s) := by
  induction size : s.length using Nat.strong_induction_on generalizing depth s with
  | _ n ih =>
      subst size
      have whole := strand
      cases strand with
      | nil => exact .nil
      | @char _ d s isChar rest =>
          by_cases begins : c :: literal <+: d :: s
          · obtain ⟨behind, same⟩ := begins
            rw [← same] at whole ih ⊢
            have shorter : behind.length < (c :: literal ++ behind).length := by
              rw [List.length_append, List.length_cons]
              omega
            rw [replace_append_self]
            exact ih behind.length shorter (whole.behind text) rfl
          · rw [replace_cons [] begins]
            exact .char isChar (ih s.length (by simp) rest rfl)
      | @word _ w s effect member rest =>
          have silent : Silent (literally (c :: literal) []) w :=
            (Text.silent_skip (avoids_of_not_mem (absent _ member))).map _
          have nonempty := List.length_pos_iff.mpr (ne_nil_of_mem_words member)
          rw [replace, silent.substitute_append]
          exact .word member (ih s.length (by simp; omega) rest rfl)

/-- In a strand, only the environments of quotes become elements. -/
theorem Strand.convertEnvironments (strand : Strand depth s) :
    Strand depth (convertEnvironments s) := by
  have kept : ∀ {name}, (∀ entry ∈ words, avoids ('\\' :: name) entry.1 = true) → ∀ replacement,
      replace ('\\' :: name) replacement s = s :=
    fun known replacement => ((strand.silent_skip known).map _).substitute_eq_self
  have bulleted : convertEnvironment s ("itemize".toList, "ul".toList) = s := by
    refine (congrArg (replace _ _) (kept (by decide) _)).trans (kept (by decide) _)
  have numbered : convertEnvironment s ("enumerate".toList, "ol".toList) = s :=
    (congrArg (replace _ _) (kept (by decide) _)).trans (kept (by decide) _)
  have lists :
      Html.convertEnvironments s = convertEnvironment s ("quote".toList, "blockquote".toList) := by
    rw [Html.convertEnvironments, listEnvironments, List.foldl_cons, List.foldl_cons,
      List.foldl_cons, List.foldl_nil, bulleted, numbered]
  have begun :
      Weaving Strand (literally (beginEnvironment "quote".toList) (openTag "blockquote".toList)) :=
    weaving_literally (.of_level (by decide)) (by decide)
  have ended :
      Weaving Strand (literally (endEnvironment "quote".toList) (closeTag "blockquote".toList)) :=
    weaving_literally (.of_level (by decide)) (by decide)
  rw [lists]
  exact (ended.substitute (begun.substitute strand).1).1

end Strands

/-! ## The ends of lists -/

/-- The conversions before those of items. -/
def convertEnds (s : Text) : Text := convertEnvironments (replace "[fragile]".toList [] s)

theorem wordwise_convertEnds : Wordwise convertEnds := by
  have environment :
      ∀ names, (∀ c ∈ beginEnvironment names.1 ++ endEnvironment names.1, isBlank c = false) →
      Wordwise fun s => convertEnvironment s names := by
    intro names noBlank
    rw [List.forall_mem_append] at noBlank
    exact (Wordwise.replace noBlank.1 _).comp (.replace noBlank.2 _)
  have fragile : Wordwise (replace "[fragile]".toList []) := .replace (by decide) _
  have bulleted := environment ("itemize".toList, "ul".toList) (by decide)
  have numbered := environment ("enumerate".toList, "ol".toList) (by decide)
  have quote := environment ("quote".toList, "blockquote".toList) (by decide)
  exact ((fragile.comp bulleted).comp numbered).comp quote

theorem Fit.convertEnds {s : Text} (fit : Fit s) : Fit (convertEnds s) := by
  refine ⟨(fit.strand.replace_text (by decide) (by decide)).convertEnvironments, ?_⟩
  have unwritten :
      ∀ names ∈ listEnvironments, '\n' ∉ openTag names.2 ∧ '\n' ∉ closeTag names.2 := by
    decide
  have absent : '\n' ∉ replace "[fragile]".toList [] s := not_mem_replace fit.oneLine (by simp)
  rw [Html.convertEnds, Html.convertEnvironments]
  refine List.foldlRecOn (motive := fun t => '\n' ∉ t) listEnvironments convertEnvironment absent ?_
  intro t absent names member
  exact not_mem_replace (not_mem_replace absent (unwritten names member).1)
    (unwritten names member).2

/-- What is visible stays so when the ends of environments become tags. -/
theorem isBlankText_convertEnds {s : Text}
    (isShown : isBlankText (replace "[fragile]".toList [] s) = false) :
    isBlankText (convertEnds s) = false := by
  have visible : ∀ names ∈ listEnvironments, isBlankText (openTag names.2) = false ∧
      isBlankText (closeTag names.2) = false := by decide
  rw [convertEnds, Html.convertEnvironments]
  refine List.foldlRecOn (motive := fun t => isBlankText t = false) listEnvironments
    convertEnvironment
    isShown ?_
  intro t isShown names member
  exact isBlankText_replace (visible names member).2
    (isBlankText_replace (visible names member).1 isShown)

theorem convertEnds_eq_self {s : Text} (fragile : Silent (skip? "[fragile]".toList) s)
    (silent : ∀ names ∈ listEnvironments,
      Silent (skip? (beginEnvironment names.1)) s ∧ Silent (skip? (endEnvironment names.1)) s) :
    convertEnds s = s := by
  have kept : replace "[fragile]".toList [] s = s := (fragile.map _).substitute_eq_self
  rw [convertEnds, Html.convertEnvironments]
  refine List.foldlRecOn (motive := fun t => t = s) listEnvironments convertEnvironment kept ?_
  rintro t rfl names member
  have begun : replace (beginEnvironment names.1) (openTag names.2) t = t :=
    ((silent names member).1.map _).substitute_eq_self
  rw [convertEnvironment, begun]
  exact ((silent names member).2.map _).substitute_eq_self

/-- The line that begins a table. -/
theorem convertEnds_tabular (columns : Nat) :
    convertEnds (beginEnvironment "tabular".toList ++ group (List.replicate columns 'l')) =
      beginEnvironment "tabular".toList ++ group (List.replicate columns 'l') := by
  have passes : ∀ {c : Char} {name : Text}, c ∉ "\x7bl\x7d".toList →
      avoids (c :: name) (beginEnvironment "tabular".toList) = true →
      Silent (skip? (c :: name))
        (beginEnvironment "tabular".toList ++ group (List.replicate columns 'l')) :=
    fun other apart => (silent_skip apart).append
      (silent_skip (avoids_of_not_mem fun member => other (mem_group_columns member)))
  have apart : ∀ names ∈ listEnvironments,
      avoids (beginEnvironment names.1) (beginEnvironment "tabular".toList) = true ∧
        avoids (endEnvironment names.1) (beginEnvironment "tabular".toList) = true := by decide
  exact convertEnds_eq_self (passes (by decide) (by decide)) fun names member =>
    ⟨passes (by decide) (apart names member).1, passes (by decide) (apart names member).2⟩

/-- **The ends of lists become tags**, line by line. -/
theorem Layout.convertEnds {around : Option Bool} {ls : List Text} {tags : List ListTag}
    (layout : Layout .latex (fun text => isBlankText (replace "[fragile]".toList [] text) = false)
      around ls tags) :
    Layout .mixed (fun text => isBlankText text = false) around (ls.map Html.convertEnds) tags := by
  have ends :
      ∀ ordered, Html.convertEnds (ListStyle.latex.opening ordered) =
        ListStyle.mixed.opening ordered ∧
      Html.convertEnds (ListStyle.latex.closing ordered) = ListStyle.mixed.closing ordered := by
    decide +kernel
  induction layout with
  | nil => exact .nil
  | line fit _ ih => exact .line fit.convertEnds ih
  | table someHeader filled eachHeader each _ ih =>
      rw [List.map_append, map_tableLines (convertEnds_tabular _) (by decide)
        (convert_rowLine (wordwise_convertEnds.breaksAt (by decide)) (by decide) (by decide))]
      refine .table (by simpa using someHeader) ?_ ?_ ?_ ih
      · intro row member
        obtain ⟨source, inside, rfl⟩ := List.mem_map.mp member
        simpa using filled source inside
      · intro cell member
        obtain ⟨source, inside, rfl⟩ := List.mem_map.mp member
        exact (eachHeader source inside).convertEnds
      · intro row member cell isCell
        obtain ⟨sources, inside, rfl⟩ := List.mem_map.mp member
        obtain ⟨source, isSource, rfl⟩ := List.mem_map.mp isCell
        exact (each sources inside source isSource).convertEnds
  | opening ordered _ ih =>
      rw [List.map_cons, (ends ordered).1]
      exact .opening ordered ih
  | item fit isShown _ ih =>
      have kept : Html.convertEnds "\\item".toList = "\\item".toList := by decide
      have spelled : ∀ t : Text, "\\item ".toList ++ t = "\\item".toList ++ ' ' :: t := fun _ => rfl
      have marked : ∀ t, Html.convertEnds ("\\item ".toList ++ t) =
          "\\item ".toList ++ Html.convertEnds t := by
        intro t
        rw [spelled, spelled, wordwise_convertEnds.word kept (by decide)]
      rw [List.map_cons, ListStyle.latex, marked]
      exact .item fit.convertEnds (isBlankText_convertEnds isShown) ih
  | @closing ordered _ _ _ ih =>
      rw [List.map_cons, (ends ordered).2]
      exact .closing ih

/-! ## The commands of items -/

/-- A line that is left where the commands of items become tags. -/
def Stays (line : Text) : Prop :=
  convertItems line = line ∧ ∀ t, convertItems (line ++ '\n' :: t) = line ++ '\n' :: convertItems t

theorem silent_itemCommand {s : Text} (apart : avoids "\\item".toList s = true) :
    Silent itemCommand s :=
  (silent_skip apart).bind _

theorem Stays.of_silent {line : Text} (silent : Silent itemCommand line) : Stays line := by
  have newline : Silent itemCommand ['\n'] := silent_itemCommand (by decide)
  refine ⟨silent.substitute_eq_self, fun t => ?_⟩
  rw [convertItems, silent.substitute_append]
  exact congrArg (line ++ ·) (newline.substitute_append t)

theorem Strand.silent_itemCommand {depth : Nat} {s : Text} (strand : Strand depth s) :
    Silent itemCommand s := (strand.silent_skip (by decide)).bind _

/-- The backslash at the end of a row begins no command, for a newline comes behind it. -/
theorem stays_rowLine {cells : List Text} (each : ∀ cell ∈ cells, Strand 0 cell) :
    Stays (Table.rowLine cells) := by
  have front : Silent itemCommand (join " & ".toList cells ++ [' ']) :=
    (Silent.join (silent_itemCommand (by decide)) fun cell member =>
      (each cell member).silent_itemCommand).append (silent_itemCommand (by decide))
  have ending : Silent itemCommand "\\\\\n".toList := silent_itemCommand (by decide)
  have whole : Table.rowLine cells = join " & ".toList cells ++ [' '] ++ "\\\\".toList := by
    simp [Table.rowLine, Table.rowEnd]
  rw [whole]
  generalize join " & ".toList cells ++ [' '] = row at front
  refine ⟨front.substitute_append _, fun t => ?_⟩
  calc convertItems (row ++ "\\\\".toList ++ '\n' :: t)
      = convertItems (row ++ ("\\\\".toList ++ '\n' :: t)) := by rw [List.append_assoc]
    _ = row ++ convertItems ("\\\\".toList ++ '\n' :: t) := front.substitute_append _
    _ = row ++ ("\\\\".toList ++ '\n' :: convertItems t) :=
      congrArg (row ++ ·) (ending.substitute_append t)
    _ = row ++ "\\\\".toList ++ '\n' :: convertItems t := (List.append_assoc _ _ _).symm

theorem stays_tableLines {columns : Nat} {header : List Text} {rows : List (List Text)}
    (eachHeader : ∀ cell ∈ header, Strand 0 cell)
    (each : ∀ row ∈ rows, ∀ cell ∈ row, Strand 0 cell) :
    ∀ line ∈ tableLines columns header rows, Stays line := by
  have rules : ∀ line ∈ ["\\toprule".toList, "\\midrule".toList, "\\bottomrule".toList,
      endEnvironment "tabular".toList], avoids "\\item".toList line = true := by decide
  refine forall_mem_tableLines (.of_silent ?_) (fun line member => ?_) (stays_rowLine eachHeader)
    fun row member => stays_rowLine (each row member)
  · refine (silent_itemCommand (by decide)).append
      (silent_itemCommand (avoids_of_not_mem fun member => ?_))
    exact absurd (mem_group_columns member) (by decide)
  · exact .of_silent (silent_itemCommand (rules line member))

/-- The command of an item becomes a tag, and the blanks in front of its text go. -/
theorem convertItems_item {text : Text} (isShown : isBlankText text = false)
    (silent : Silent itemCommand text) (t : Text) :
    convertItems ("\\item ".toList ++ text ++ t) =
      ListTag.opensItem.written ++ trimStart text ++ convertItems t := by
  have nonempty : trimStart text ≠ [] := by
    intro empty
    have blank : isBlankText text = true :=
      List.all_eq_true.mpr (List.dropWhile_eq_nil_iff.mp empty)
    rw [isShown] at blank
    cases blank
  have wordEnd : atWordEnd (' ' :: (text ++ t)) = true := by
    have blank : isWordCharacter ' ' = false := by decide +kernel
    simp [atWordEnd, blank]
  have found : itemCommand ('\\' :: ("item ".toList ++ (text ++ t))) =
      some (openTag "li".toList, trimStart text ++ t) := by
    have skipped : skip? "\\item".toList ('\\' :: ("item ".toList ++ (text ++ t))) =
        some (' ' :: (text ++ t)) := rfl
    rw [itemCommand, skipped, Option.bind_some, if_pos wordEnd, trimStart_cons_of_blank (by decide),
      trimStart_append nonempty]
  have suffix : trimStart text ++ t <:+ "item ".toList ++ (text ++ t) := by
    obtain ⟨blanks, whole⟩ := trimStart_isSuffix text
    exact ⟨"item ".toList ++ blanks, by rw [List.append_assoc, ← List.append_assoc blanks, whole]⟩
  have behind : Silent itemCommand (trimStart text) := silent.of_isSuffix (trimStart_isSuffix text)
  calc convertItems ("\\item ".toList ++ text ++ t)
      = substitute itemCommand ('\\' :: ("item ".toList ++ (text ++ t))) := by
        rw [convertItems, List.append_assoc]
        rfl
    _ = openTag "li".toList ++ substitute itemCommand (trimStart text ++ t) :=
        substitute_cons_of_some found suffix
    _ = openTag "li".toList ++ (trimStart text ++ convertItems t) := by
        rw [behind.substitute_append, convertItems]
    _ = ListTag.opensItem.written ++ trimStart text ++ convertItems t :=
      (List.append_assoc _ _ _).symm

/-- **The commands of items become tags**, line by line. -/
theorem Layout.convertItems {around : Option Bool} {ls : List Text} {tags : List ListTag}
    (layout : Layout .mixed (fun text => isBlankText text = false) around ls tags) :
    Layout .html (fun _ => True) around (ls.map Html.convertItems) tags ∧
      ∀ line ∈ ls, ∀ t, Html.convertItems (line ++ '\n' :: t) =
        Html.convertItems line ++ '\n' :: Html.convertItems t := by
  have ends :
      ∀ ordered, Stays (ListStyle.mixed.opening ordered) ∧
        Stays (ListStyle.mixed.closing ordered) := by
    rintro (_ | _) <;>
      exact ⟨.of_silent (silent_itemCommand (by decide)),
        .of_silent (silent_itemCommand (by decide))⟩
  have goesOn : ∀ {line : Text}, Stays line → ∀ t, Html.convertItems (line ++ '\n' :: t) =
      Html.convertItems line ++ '\n' :: Html.convertItems t :=
    fun stays t => by rw [stays.2, stays.1]
  induction layout with
  | nil => exact ⟨.nil, List.forall_mem_nil _⟩
  | line fit _ ih =>
      have stays := Stays.of_silent fit.strand.silent_itemCommand
      rw [List.map_cons, stays.1, List.forall_mem_cons]
      exact ⟨.line fit ih.1, goesOn stays, ih.2⟩
  | @table columns header rows _ _ someHeader filled eachHeader each _ ih =>
      have stay : ∀ line ∈ tableLines columns header rows, Stays line :=
        stays_tableLines (fun cell member => (eachHeader cell member).strand)
          fun row member cell inside => (each row member cell inside).strand
      have kept :
          (tableLines columns header rows).map Html.convertItems = tableLines columns header rows :=
        (List.map_congr_left fun line member => (stay line member).1).trans (List.map_id _)
      rw [List.map_append, kept, List.forall_mem_append]
      exact ⟨.table someHeader filled eachHeader each ih.1,
        fun line member => goesOn (stay line member), ih.2⟩
  | opening ordered _ ih =>
      have stays := (ends ordered).1
      rw [List.map_cons, stays.1, List.forall_mem_cons]
      exact ⟨.opening ordered ih.1, goesOn stays, ih.2⟩
  | @item _ text _ _ fit isShown _ ih =>
      have turned := convertItems_item isShown fit.strand.silent_itemCommand
      have alone : Html.convertItems ("\\item ".toList ++ text) =
          ListTag.opensItem.written ++ Text.trimStart text := by
        have whole := turned []
        rwa [List.append_nil, show Html.convertItems [] = [] from rfl, List.append_nil] at whole
      have newline : Stays [] := .of_silent trivial
      rw [List.map_cons, ListStyle.mixed, alone, List.forall_mem_cons]
      refine ⟨.item fit.trimStart trivial ih.1, fun t => ?_, ih.2⟩
      rw [turned, alone]
      exact congrArg (_ ++ ·) (newline.2 t)
  | @closing ordered _ _ _ ih =>
      have stays := (ends ordered).2
      rw [List.map_cons, stays.1, List.forall_mem_cons]
      exact ⟨.closing ih.1, goesOn stays, ih.2⟩

/-! ## The lines with elements -/

theorem kept_rowLine {cells : List Text} (each : ∀ cell ∈ cells, Fit cell) :
    '\n' ∉ Table.rowLine cells ∧ Table.rowLine cells ≠ [] ∧
      dropReturn (Table.rowLine cells) = Table.rowLine cells := by
  have whole : Table.rowLine cells = (join " & ".toList cells ++ " \\".toList) ++ ['\\'] := by
    simp [Table.rowLine, Table.rowEnd]
  have inner : '\n' ∉ join " & ".toList cells :=
    not_mem_join (by decide) fun cell member => (each cell member).oneLine
  rw [whole]
  generalize join " & ".toList cells = row at inner
  exact ⟨by simp [inner], by simp, dropReturn_append_singleton _ (by decide)⟩

theorem kept_tableLines {columns : Nat} {header : List Text} {rows : List (List Text)}
    (eachHeader : ∀ cell ∈ header, Fit cell) (each : ∀ row ∈ rows, ∀ cell ∈ row, Fit cell) :
    ∀ line ∈ tableLines columns header rows, '\n' ∉ line ∧ line ≠ [] ∧ dropReturn line = line := by
  refine forall_mem_tableLines ⟨?_, by simp [group], ?_⟩ (by decide) (kept_rowLine eachHeader)
    fun row member => kept_rowLine (each row member)
  · rw [List.mem_append, not_or]
    exact ⟨by decide, fun member => absurd (mem_group_columns member) (by decide)⟩
  · exact dropReturn_append_singleton
      (beginEnvironment "tabular".toList ++ '\x7b' :: List.replicate columns 'l') (by decide)

/-- Reading the lines again leaves their layout. -/
theorem Layout.lines {shown : Text → Prop} {around : Option Bool} {ls : List Text}
    {tags : List ListTag}
    (layout : Layout .html shown around ls tags) :
    Layout .html (fun _ => True) around (lines (unlines ls)) tags := by
  have ends : ∀ ordered, ∀ line ∈ [ListStyle.html.opening ordered, ListStyle.html.closing ordered],
      '\n' ∉ line ∧ line ≠ [] ∧ dropReturn line = line := by decide
  have first : ∀ {line : Text} {back : List Text}, '\n' ∉ line → back ≠ [] →
      Text.lines (unlines (line :: back)) = dropReturn line :: Text.lines (unlines back) :=
    fun oneLine nonempty => lines_unlines_append (List.forall_mem_singleton.mpr oneLine) nonempty
  have alone : ∀ {line : Text}, '\n' ∉ line ∧ line ≠ [] ∧ dropReturn line = line → ∀ back,
      Text.lines (unlines (line :: back)) = line :: Text.lines (unlines back) :=
    fun kept back => lines_unlines_append_of_kept (List.forall_mem_singleton.mpr kept.1)
      (List.forall_mem_singleton.mpr kept.2) back
  induction layout with
  | nil => exact .nil
  | @line s ls tags fit rest ih =>
      by_cases empty : ls = []
      · subst empty
        have single : Text.lines (unlines [s]) = linesOfPieces [s] := by
          rw [Text.lines, splitAt_unlines (by simp) (List.forall_mem_singleton.mpr fit.oneLine)]
        rw [single, linesOfPieces]
        split
        · exact ih
        · exact .line fit ih
      · rw [first fit.oneLine empty]
        exact .line fit.dropReturn ih
  | @table columns header rows _ _ someHeader filled eachHeader each _ ih =>
      have kept : ∀ line ∈ tableLines columns header rows,
          '\n' ∉ line ∧ line ≠ [] ∧ dropReturn line = line := kept_tableLines eachHeader each
      rw [lines_unlines_append_of_kept (fun line member => (kept line member).1)
        fun line member => (kept line member).2]
      exact .table someHeader filled eachHeader each ih
  | opening ordered _ ih =>
      rw [alone (ends ordered _ (by simp))]
      exact .opening ordered ih
  | @item _ text ls _ fit _ rest ih =>
      have oneLine : '\n' ∉ ListStyle.html.marker ++ text := by
        rw [List.mem_append, not_or]
        exact ⟨by decide, fit.oneLine⟩
      have marked :
          dropReturn (ListStyle.html.marker ++ text) = ListStyle.html.marker ++
            dropReturn text := by
        by_cases empty : text = []
        · rw [empty]
          decide
        · exact dropReturn_append _ empty
      rw [first oneLine rest.ne_nil, marked]
      exact .item fit.dropReturn trivial ih
  | @closing ordered _ _ _ ih =>
      rw [alone (ends ordered _ (by simp))]
      exact .closing ih

/-! ## The closing tags of items -/

/-- No tag of a list stands in the text, whatever is behind it. -/
def Untagged (s : Text) : Prop := ∀ tag : ListTag, Silent (skip? tag.written) s

theorem Untagged.of_not_mem {s : Text} (noLess : '<' ∉ s) : Untagged s := by
  intro tag
  obtain ⟨inner, shape, -⟩ := tag.isTag_written.shape
  rw [shape]
  exact silent_skip (avoids_of_not_mem noLess)

theorem Strand.untagged {depth : Nat} {s : Text} (strand : Strand depth s) : Untagged s := by
  intro tag
  have known : ∀ tag ∈ ListTag.all, ∀ entry ∈ words, avoids tag.written entry.1 = true := by
    decide +kernel
  have apart := known tag tag.mem_all
  obtain ⟨inner, shape, -⟩ := tag.isTag_written.shape
  rw [shape] at apart ⊢
  exact strand.silent_special (by decide) apart

theorem Untagged.append {s t : Text} (first : Untagged s) (second : Untagged t) :
    Untagged (s ++ t) :=
  fun tag => (first tag).append (second tag)

/-- A line without tags leaves the items around it as they are. -/
theorem Untagged.mark {line : Text} (untagged : Untagged line) : ListMark.of line = .none := by
  have begins : ∀ tag : ListTag, startsWith tag.written (trimStart line) = false := by
    intro tag
    have silent := (untagged tag).of_isSuffix (trimStart_isSuffix line)
    obtain ⟨inner, shape, -⟩ := tag.isTag_written.shape
    rw [shape] at silent ⊢
    exact silent.startsWith_eq_false
  have bulleted : startsWith (openTag "ul".toList) (trimStart line) = false :=
    begins (.opensList false)
  have numbered : startsWith (openTag "ol".toList) (trimStart line) = false :=
    begins (.opensList true)
  have item : startsWith (openTag "li".toList) (trimStart line) = false := begins .opensItem
  have endBulleted : startsWith (closeTag "ul".toList) (trimStart line) = false :=
    begins (.closesList false)
  have endNumbered : startsWith (closeTag "ol".toList) (trimStart line) = false :=
    begins (.closesList true)
  simp only [ListMark.of, bulleted, numbered, item, endBulleted, endNumbered, Bool.or_self,
    Bool.false_eq_true, if_false]

theorem untagged_tableLines {columns : Nat} {header : List Text} {rows : List (List Text)}
    (eachHeader : ∀ cell ∈ header, Strand 0 cell)
    (each : ∀ row ∈ rows, ∀ cell ∈ row, Strand 0 cell) :
    ∀ line ∈ tableLines columns header rows, Untagged line := by
  have row : ∀ cells : List Text, (∀ cell ∈ cells, Strand 0 cell) →
      Untagged (Table.rowLine cells) := by
    intro cells strands tag
    refine (Silent.join (Untagged.of_not_mem (by decide) tag) fun cell member => ?_).append
      (Untagged.of_not_mem (by decide) tag)
    exact (strands cell member).untagged tag
  have rules : ∀ line ∈ ["\\toprule".toList, "\\midrule".toList, "\\bottomrule".toList,
      endEnvironment "tabular".toList], '<' ∉ line := by decide
  refine forall_mem_tableLines ?_ (fun line member => .of_not_mem (rules line member))
    (row header eachHeader) fun cells member => row cells (each cells member)
  refine (Untagged.of_not_mem (by decide)).append (.of_not_mem fun member => ?_)
  exact absurd (mem_group_columns member) (by decide)

theorem closeItemsFrom_append (opened : List Bool) {front : List Text}
    (untagged : ∀ line ∈ front, Untagged line) (back : List Text) :
    closeItemsFrom opened (front ++ back) = front ++ closeItemsFrom opened back := by
  induction front with
  | nil => rfl
  | cons line front ih =>
      rw [List.forall_mem_cons] at untagged
      rw [List.cons_append, closeItemsFrom, untagged.1.mark]
      exact congrArg (line :: ·) (ih untagged.2)

/-- Lines with tags in front of woven lines. -/
theorem Woven.unlines_append {front back : List Text} {first tags : List ListTag}
    (nonempty : front ≠ [])
    (wrap : ∀ {t tags}, Woven true t tags → Woven true (unlines front ++ t) (first ++ tags))
    (woven : Woven true (unlines back) tags) :
    Woven true (unlines (front ++ back)) (first ++ tags) := by
  obtain ⟨t, same, rfl | rfl⟩ := exists_unlines_append nonempty back
  · rw [same]
    exact wrap woven
  · have newline : Strand 0 ['\n'] := .of_text (by decide)
    rw [same]
    exact wrap (.strand newline woven)

/-- A line with a tag at its front. -/
theorem Woven.tag_cons (tag : ListTag) {line s : Text} {ls : List Text} {tags : List ListTag}
    (begins : line = tag.written ++ s) (strand : Strand 0 s)
    (woven : Woven true (unlines ls) tags) :
    Woven true (unlines (line :: ls)) (tag :: tags) := by
  have wrap : ∀ {t tags}, Woven true t tags → Woven true (unlines [line] ++ t) ([tag] ++ tags) := by
    intro t tags rest
    change Woven true (line ++ t) (tag :: tags)
    rw [begins, List.append_assoc]
    exact .tag tag (.strand strand rest)
  exact woven.unlines_append (List.cons_ne_nil line []) wrap

/-- What the tags of lines become when the items among them are closed. In a list it depends on
whether an item is open in front of them. -/
def Closes : Option Bool → List Text → List ListTag → Prop
  | none, ls, tags => Woven true (unlines (closeItemsFrom [] ls)) tags
  | some _, ls, tags => ∀ itemOpen, Woven true (unlines (closeItemsFrom [itemOpen] ls))
      ((if itemOpen then [.closesItem] else []) ++ tags)

theorem Woven.closeItem {ls : List Text} {tags : List ListTag}
    (woven : Woven true (unlines ls) tags)
    (itemOpen : Bool) :
    Woven true (unlines ((if itemOpen then [closeTag "li".toList] else []) ++ ls))
      ((if itemOpen then [.closesItem] else []) ++ tags) := by
  cases itemOpen with
  | false => exact woven
  | true => exact woven.tag_cons .closesItem (List.append_nil _).symm .nil

/-- **Closing the items** weaves the tags of the layout into its lines. -/
theorem Layout.closes {shown : Text → Prop} {around : Option Bool} {ls : List Text}
    {tags : List ListTag}
    (layout : Layout .html shown around ls tags) : Closes around ls tags := by
  induction layout with
  | nil => exact .nil
  | @line s ls tags fit _ ih =>
      have same := closeItemsFrom_append [] (List.forall_mem_singleton.mpr fit.strand.untagged) ls
      change Woven true (unlines (closeItemsFrom [] ([s] ++ ls))) ([] ++ tags)
      rw [same]
      exact Woven.unlines_append (List.cons_ne_nil s []) (fun rest => .strand fit.strand rest) ih
  | @table columns header rows ls tags someHeader filled eachHeader each _ ih =>
      have header' : ∀ cell ∈ header, Strand 0 cell :=
        fun cell member => (eachHeader cell member).strand
      have rows' : ∀ row ∈ rows, ∀ cell ∈ row, Strand 0 cell :=
        fun row member cell inside => (each row member cell inside).strand
      change Woven true (unlines (closeItemsFrom [] (tableLines columns header rows ++ ls)))
        ([] ++ tags)
      rw [closeItemsFrom_append [] (untagged_tableLines header' rows')]
      refine Woven.unlines_append (List.cons_ne_nil _ _) (fun rest => ?_) ih
      rw [unlines_tableLines]
      exact .table rfl someHeader filled header' rows' rest
  | @opening ordered ls tags _ ih =>
      have mark : ListMark.of (ListStyle.html.opening ordered) = .opensList := by
        cases ordered <;> decide
      rw [Closes, closeItemsFrom, mark]
      exact Woven.tag_cons (.opensList ordered) (List.append_nil _).symm .nil (ih false)
  | @item ordered text ls tags fit _ _ ih =>
      have mark : ListMark.of (ListStyle.html.marker ++ text) = .item := rfl
      have woven :
          Woven true (unlines ((ListStyle.html.marker ++ text) :: closeItemsFrom [true] ls))
          (.opensItem :: .closesItem :: tags) := Woven.tag_cons .opensItem rfl fit.strand (ih true)
      intro itemOpen
      rw [closeItemsFrom, mark]
      exact woven.closeItem itemOpen
  | @closing ordered ls tags _ ih =>
      have mark : ListMark.of (ListStyle.html.closing ordered) = .closesList := by
        cases ordered <;> decide
      have woven : Woven true (unlines (ListStyle.html.closing ordered :: closeItemsFrom [] ls))
          (.closesList ordered :: tags) :=
        Woven.tag_cons (.closesList ordered) (List.append_nil _).symm .nil ih
      intro itemOpen
      rw [closeItemsFrom, mark]
      exact woven.closeItem itemOpen

/-! ## The whole sequence -/

/-- **The list tags of a fragment** are those of the layout of its lines. -/
theorem Layout.listTags_fragment {body : Text} {ls : List Text} {tags : List ListTag}
    (layout : Layout .latex (fun text => isBlankText (replace "[fragile]".toList [] text) = false)
      none ls tags) (same : escapeAngles body = unlines ls) : listTags (fragment body) = tags := by
  have prepared := layout.convertEnds
  obtain ⟨converted, lineByLine⟩ := prepared.convertItems
  have ended : convertEnvironments (replace "[fragile]".toList [] (escapeAngles body)) =
      unlines (ls.map Html.convertEnds) := by
    rw [same]
    exact wordwise_convertEnds.unlines ls
  have items : Html.convertItems (unlines (ls.map Html.convertEnds)) =
      unlines ((ls.map Html.convertEnds).map Html.convertItems) := convert_unlines rfl lineByLine
  refine Html.listTags_fragment rfl ?_
  rw [ended, items]
  exact converted.lines.closes

end SlideDeck.Html
