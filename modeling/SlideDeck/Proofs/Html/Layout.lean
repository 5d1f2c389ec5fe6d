import SlideDeck.Proofs.Html.Code
import SlideDeck.Proofs.Html.Commands
import SlideDeck.Proofs.Text.Wordwise

/-!
# The lines of a page

The lines of a page, its angle brackets written as entities, are strands, tables and lists
(`Layout`). A list is a line that opens it, a line for each item and a line that closes it; how
these look depends on how far the page has been converted (`ListStyle`). A layout comes with
the tags of lists that its lines are to have in the end.

Whatever the lines are, these tags are nested (`Layout.nestedIn`), and in LaTeX there are as many
commands of items as tags that open an item (`Layout.occurrences_item`). Trimming a page leaves a
layout with the same tags (`Layout.trim`).
-/

set_option autoImplicit false

namespace SlideDeck.Html

open SlideDeck SlideDeck.Text SlideDeck.Latex

/-! ## Angle brackets as entities -/

theorem escapeAngles_append (s t : Text) :
    escapeAngles (s ++ t) = escapeAngles s ++ escapeAngles t :=
  List.flatMap_append

theorem escapeAngle_of_isBlank {c : Char} (blank : isBlank c = true) : escapeAngle c = [c] := by
  have notLess : c ≠ '<' := by
    rintro rfl
    exact absurd blank (by decide)
  have notGreater : c ≠ '>' := by
    rintro rfl
    exact absurd blank (by decide)
  rw [escapeAngle, if_neg notLess, if_neg notGreater]

/-- A visible character is written between visible characters. -/
theorem escapeAngle_of_visible {c : Char} (visible : isBlank c = false) :
    (∃ d tail, escapeAngle c = d :: tail ∧ isBlank d = false) ∧
      ∃ front d, escapeAngle c = front ++ [d] ∧ isBlank d = false := by
  unfold escapeAngle
  split
  · exact ⟨⟨'&', "lt;".toList, rfl, by decide⟩, "&lt".toList, ';', rfl, by decide⟩
  · split
    · exact ⟨⟨'&', "gt;".toList, rfl, by decide⟩, "&gt".toList, ';', rfl, by decide⟩
    · exact ⟨⟨c, [], rfl, visible⟩, [], c, rfl, visible⟩

theorem wordwise_escapeAngles : Wordwise escapeAngles where
  nil := rfl
  blank s t {c} blank := by
    rw [escapeAngles_append, escapeAngles, escapeAngles, List.flatMap_cons,
      escapeAngle_of_isBlank blank]
    rfl

theorem trimStart_escapeAngles (s : Text) :
    trimStart (escapeAngles s) = escapeAngles (trimStart s) := by
  induction s with
  | nil => rfl
  | cons c s ih =>
      cases blank : isBlank c with
      | true =>
          rw [escapeAngles, List.flatMap_cons, escapeAngle_of_isBlank blank, List.singleton_append,
            trimStart_cons_of_blank blank, trimStart_cons_of_blank blank]
          exact ih
      | false =>
          obtain ⟨⟨d, tail, same, visible⟩, -⟩ := escapeAngle_of_visible blank
          rw [trimStart_cons blank, escapeAngles, List.flatMap_cons, same]
          exact trimStart_cons visible _

theorem trimEnd_escapeAngles (s : Text) : trimEnd (escapeAngles s) = escapeAngles (trimEnd s) := by
  induction s with
  | nil => rfl
  | cons c s ih =>
      have whole : escapeAngles (c :: s) = escapeAngle c ++ escapeAngles s := List.flatMap_cons
      have nonempty : ∀ {s}, s ≠ [] → escapeAngles s ≠ [] := by
        intro s notEmpty
        obtain ⟨d, rest, rfl⟩ := List.exists_cons_of_ne_nil notEmpty
        rcases writesEntities_escapeAngle d with same | ⟨tail, same, -⟩ <;>
          simp [escapeAngles, same]
      rw [whole]
      by_cases empty : trimEnd s = []
      · rw [empty] at ih
        rw [trimEnd_append_of_eq_nil _ ih]
        cases blank : isBlank c with
        | true => simp [escapeAngle_of_isBlank blank, trimEnd, empty, blank, escapeAngles]
        | false =>
            obtain ⟨-, front, d, same, visible⟩ := escapeAngle_of_visible blank
            have alone : escapeAngles [c] = escapeAngle c := List.flatMap_singleton _ _
            rw [trimEnd_cons blank, empty, alone, same, trimEnd_append_singleton _ visible]
      · rw [trimEnd_cons_of_ne_nil c empty, trimEnd_append_of_ne_nil _ (ih ▸ nonempty empty), ih]
        exact List.flatMap_cons.symm

/-- Escaping leaves the blanks at the ends. -/
theorem trim_escapeAngles (s : Text) : trim (escapeAngles s) = escapeAngles (trim s) := by
  rw [trim, trimStart_escapeAngles, trimEnd_escapeAngles, trim]

/-- Escaping makes nothing occur that has none of the entities' characters. -/
theorem occurrences_escapeAngles {d : Char} {literal : Text} (absent : '&' ∉ d :: literal)
    (first : d ∉ "ltg;".toList) (noAngle : '<' ∉ d :: literal ∧ '>' ∉ d :: literal) (s : Text) :
    occurrences (d :: literal) (escapeAngles s) = occurrences (d :: literal) s := by
  induction s using occurrence_induction d literal with
  | nil => rfl
  | occurs rest ih =>
      rw [escapeAngles_append, escapeAngles_eq_self noAngle.1 noAngle.2, occurrences_append_self,
        occurrences_append_self, ih]
  | other c s begins ih =>
      have other : ¬ d :: literal <+: escapeAngles (c :: s) := fun begun =>
        begins (isPrefix_of_isPrefix_flatMap writesEntities_escapeAngle absent begun)
      rw [occurrences_cons begins, ← ih]
      rw [escapeAngles, List.flatMap_cons] at other ⊢
      rcases writesEntities_escapeAngle c with same | ⟨tail, same, part⟩
      · rw [same] at other ⊢
        exact occurrences_cons other
      · have silent : Silent (skip? (d :: literal)) tail :=
          silent_skip (avoids_of_not_mem fun member => first (part member))
        rw [same] at other ⊢
        exact (occurrences_cons other).trans (silent.occurrences_append _)

/-! ## Lines of tables -/

/-- The lines of a table. -/
def tableLines (columns : Nat) (header : List Text) (rows : List (List Text)) : List Text :=
  (beginEnvironment "tabular".toList ++ group (List.replicate columns 'l')) :: "\\toprule".toList ::
    Table.rowLine header :: "\\midrule".toList ::
      (rows.map Table.rowLine ++ ["\\bottomrule".toList, endEnvironment "tabular".toList])

section Tables

variable {columns : Nat} {header : List Text} {rows : List (List Text)}

theorem unlines_rowLines {back : List Text} (nonempty : back ≠ []) :
    unlines (rows.map Table.rowLine ++ back) = rows.flatMap rowText ++ unlines back := by
  induction rows with
  | nil => rfl
  | cons row rows ih =>
      obtain ⟨next, later, same⟩ := List.exists_cons_of_ne_nil
        (List.append_ne_nil_of_right_ne_nil (rows.map Table.rowLine) nonempty)
      rw [List.map_cons, List.cons_append, same, unlines_cons_cons, ← same, ih, List.flatMap_cons]
      simp [rowText]

theorem unlines_tableLines :
    unlines (tableLines columns header rows) = tableText columns header rows := by
  have spec : ∀ s next ls, unlines (s :: "\\toprule".toList :: next :: ls) =
      s ++ ("\n\\toprule\n".toList ++ unlines (next :: ls)) := by
    intro s next ls
    rw [unlines_cons_cons, unlines_cons_cons]
    rfl
  have head : ∀ ls, unlines (Table.rowLine header :: "\\midrule".toList :: ls) =
      rowText header ++ unlines ("\\midrule".toList :: ls) := by
    intro ls
    rw [unlines_cons_cons, rowText, List.append_assoc, List.singleton_append]
  have middle : ∀ back, back ≠ [] → unlines ("\\midrule".toList :: back) =
      "\\midrule\n".toList ++ unlines back := by
    intro back nonempty
    obtain ⟨next, later, rfl⟩ := List.exists_cons_of_ne_nil nonempty
    rw [unlines_cons_cons]
    rfl
  have last : ∀ s, unlines ["\\bottomrule".toList, s] = "\\bottomrule\n".toList ++ s := fun _ => rfl
  have data : ∀ ended, unlines ("\\midrule".toList ::
      (rows.map Table.rowLine ++ ["\\bottomrule".toList, ended])) =
        "\\midrule\n".toList ++ (rows.flatMap rowText ++ ("\\bottomrule\n".toList ++ ended)) := by
    intro ended
    rw [middle _ (List.append_ne_nil_of_right_ne_nil _ (List.cons_ne_nil _ _)),
      unlines_rowLines (List.cons_ne_nil _ _), last]
  unfold tableLines tableText tableRows
  generalize endEnvironment "tabular".toList = ended
  generalize beginEnvironment "tabular".toList = begun
  rw [spec, head, data]
  generalize "\n\\toprule\n".toList = top
  generalize "\\midrule\n".toList = middle
  generalize "\\bottomrule\n".toList = bottom
  simp only [List.append_assoc]

/-- What holds of the rows of a table and of the lines around them holds of all its lines. -/
theorem forall_mem_tableLines {P : Text → Prop}
    (spec : P (beginEnvironment "tabular".toList ++ group (List.replicate columns 'l')))
    (rules : ∀ line ∈ ["\\toprule".toList, "\\midrule".toList, "\\bottomrule".toList,
      endEnvironment "tabular".toList], P line)
    (head : P (Table.rowLine header)) (each : ∀ row ∈ rows, P (Table.rowLine row)) :
    ∀ line ∈ tableLines columns header rows, P line := by
  simp only [List.forall_mem_cons, List.not_mem_nil, IsEmpty.forall_iff, implies_true,
    and_true] at rules
  obtain ⟨top, middle, bottom, last⟩ := rules
  simp only [tableLines, List.forall_mem_cons, List.forall_mem_append, List.forall_mem_map]
  exact ⟨spec, top, head, middle, each, bottom, last, by simp⟩

/-- A conversion of the cells of a table that leaves the lines around its rows. -/
theorem map_tableLines {convert : Text → Text}
    (spec : convert (beginEnvironment "tabular".toList ++ group (List.replicate columns 'l')) =
      beginEnvironment "tabular".toList ++ group (List.replicate columns 'l'))
    (rules : ∀ line ∈ ["\\toprule".toList, "\\midrule".toList, "\\bottomrule".toList,
      endEnvironment "tabular".toList], convert line = line)
    (row : ∀ cells, convert (Table.rowLine cells) = Table.rowLine (cells.map convert)) :
    (tableLines columns header rows).map convert =
      tableLines columns (header.map convert) (rows.map fun row => row.map convert) := by
  have each := List.forall_mem_cons.mp rules
  have data : (rows.map Table.rowLine).map convert =
      (rows.map fun row => row.map convert).map Table.rowLine := by
    rw [List.map_map, List.map_map]
    exact List.map_congr_left fun cells _ => row cells
  simp only [List.forall_mem_cons, List.not_mem_nil, IsEmpty.forall_iff, implies_true,
    and_true] at rules
  obtain ⟨top, middle, bottom, last⟩ := rules
  simp only [tableLines, List.map_cons, List.map_append, List.map_nil, data, spec, top, row, middle,
    bottom, last]

end Tables

/-- The line that begins a table. -/
theorem escapeAngles_tabular (columns : Nat) :
    escapeAngles (beginEnvironment "tabular".toList ++ group (List.replicate columns 'l')) =
      beginEnvironment "tabular".toList ++ group (List.replicate columns 'l') := by
  have absent : ∀ c, c ∉ beginEnvironment "tabular".toList ++ "\x7bl\x7d".toList →
      c ∉ beginEnvironment "tabular".toList ++ group (List.replicate columns 'l') := by
    intro c other member
    rw [List.mem_append] at other member
    exact other (member.imp_right mem_group_columns)
  exact escapeAngles_eq_self (absent '<' (by decide)) (absent '>' (by decide))

/-- Rows are converted cell by cell. -/
theorem convert_rowLine {convert : Text → Text} (breaks : BreaksAt ' ' convert)
    (between : convert ['&'] = ['&']) (ended : convert "\\\\".toList = "\\\\".toList)
    (cells : List Text) :
    convert (Table.rowLine cells) = Table.rowLine (cells.map convert) := by
  have ending : ∀ s, convert (s ++ Table.rowEnd) = convert s ++ Table.rowEnd := by
    intro s
    have whole := breaks.around s "\\\\".toList
    rwa [ended] at whole
  have next :
      ∀ s t, convert (s ++ (" & ".toList ++ t)) = convert s ++ (" & ".toList ++ convert t) := by
    intro s t
    have whole := breaks.around s (['&'] ++ ' ' :: t)
    rwa [breaks.around ['&'] t, between] at whole
  unfold Table.rowLine
  induction cells with
  | nil =>
      have whole := ending []
      rwa [breaks.nil] at whole
  | cons cell cells ih =>
      cases cells with
      | nil => exact ending cell
      | cons second cells =>
          rw [join, List.append_assoc, List.append_assoc, next, ih]
          simp only [List.map_cons, join, List.append_assoc]

/-! ## Texts in lines -/

/-- A strand in one line. -/
structure Fit (s : Text) : Prop where
  strand : Strand 0 s
  oneLine : '\n' ∉ s

namespace Fit

variable {s : Text}

theorem trimStart (fit : Fit s) : Fit (trimStart s) :=
  ⟨fit.strand.trimStart, fun inside => fit.oneLine ((trimStart_isSuffix s).subset inside)⟩

theorem trimEnd (fit : Fit s) : Fit (trimEnd s) :=
  ⟨fit.strand.trimEnd, fun inside => fit.oneLine ((trimEnd_isPrefix s).subset inside)⟩

theorem dropReturn (fit : Fit s) : Fit (dropReturn s) :=
  ⟨fit.strand.dropReturn, fun inside => fit.oneLine ((dropReturn_isPrefix s).subset inside)⟩

end Fit

/-! ## Lists among lines -/

/-- How lists are written: the lines around them, by whether they are ordered, and what
stands in front of an item. -/
structure ListStyle where
  opening : Bool → Text
  closing : Bool → Text
  marker : Text

namespace ListStyle

/-- The environment of a list. -/
def environment (ordered : Bool) : Text := if ordered then "enumerate".toList else "itemize".toList

/-- Lists as environments. -/
def latex : ListStyle where
  opening ordered := beginEnvironment (environment ordered)
  closing ordered := endEnvironment (environment ordered)
  marker := "\\item ".toList

/-- Lists as elements in which the items are commands. -/
def mixed : ListStyle where
  opening ordered := (ListTag.opensList ordered).written
  closing ordered := (ListTag.closesList ordered).written
  marker := "\\item ".toList

/-- Lists as elements. -/
def html : ListStyle := { mixed with marker := ListTag.opensItem.written }

end ListStyle

/-- The lines of a page, where the texts of items are `shown`: outside of lists a line is a strand
or belongs to a table. Inside of a list, which `around` tells, each line is an item. Along
with the lines go the tags of lists that they have when their items are closed. -/
inductive Layout (style : ListStyle) (shown : Text → Prop) :
    Option Bool → List Text → List ListTag → Prop where
  | nil : Layout style shown none [] []
  | line {s : Text} {ls : List Text} {tags : List ListTag} (fit : Fit s)
      (rest : Layout style shown none ls tags) : Layout style shown none (s :: ls) tags
  | table {columns : Nat} {header : List Text} {rows : List (List Text)} {ls : List Text}
      {tags : List ListTag} (someHeader : header ≠ []) (filled : ∀ row ∈ rows, row ≠ [])
      (eachHeader : ∀ cell ∈ header, Fit cell) (each : ∀ row ∈ rows, ∀ cell ∈ row, Fit cell)
      (rest : Layout style shown none ls tags) :
      Layout style shown none (tableLines columns header rows ++ ls) tags
  | opening (ordered : Bool) {ls : List Text} {tags : List ListTag}
      (rest : Layout style shown (some ordered) ls tags) :
      Layout style shown none (style.opening ordered :: ls) (.opensList ordered :: tags)
  | item {ordered : Bool} {text : Text} {ls : List Text} {tags : List ListTag} (fit : Fit text)
      (isShown : shown text) (rest : Layout style shown (some ordered) ls tags) :
      Layout style shown (some ordered) ((style.marker ++ text) :: ls)
        (.opensItem :: .closesItem :: tags)
  | closing {ordered : Bool} {ls : List Text} {tags : List ListTag}
      (rest : Layout style shown none ls tags) :
      Layout style shown (some ordered) (style.closing ordered :: ls) (.closesList ordered :: tags)

namespace Layout

variable {style : ListStyle} {shown : Text → Prop} {around : Option Bool} {front ls : List Text}
  {first tags : List ListTag}

theorem append (layout : Layout style shown around front first)
    (behind : Layout style shown none ls tags) :
    Layout style shown around (front ++ ls) (first ++ tags) := by
  induction layout with
  | nil => exact behind
  | line fit _ ih => exact .line fit ih
  | table someHeader filled eachHeader each _ ih =>
      rw [List.append_assoc]
      exact .table someHeader filled eachHeader each ih
  | opening ordered _ ih => exact .opening ordered ih
  | item fit isShown _ ih => exact .item fit isShown ih
  | closing _ ih => exact .closing ih

theorem ne_nil {ordered : Bool} (layout : Layout style shown (some ordered) ls tags) : ls ≠ [] := by
  cases layout <;> exact List.cons_ne_nil _ _

/-- The tags of a layout are nested. -/
theorem nestedIn (layout : Layout style shown around ls tags) :
    nestedIn (around.map Enclosing.list).toList tags = true := by
  induction layout with
  | nil => rfl
  | line _ _ ih => exact ih
  | table _ _ _ _ _ ih => exact ih
  | opening _ _ ih => exact ih
  | item _ _ _ ih => exact ih
  | @closing ordered _ _ _ ih =>
      have same : (ordered == ordered) = true := beq_self_eq_true ordered
      change (ordered == ordered && Html.nestedIn [] _) = true
      rw [same]
      exact ih

/-- The commands of items are those of the list tags. -/
theorem occurrences_item (layout : Layout .latex shown around ls tags) :
    occurrences "\\item".toList (unlines ls) = tags.count .opensItem := by
  have known : ∀ entry ∈ words, avoids "\\item".toList entry.1 = true := by decide
  have newline : Silent (skip? "\\item".toList) ['\n'] := silent_skip (by decide)
  have behind : ∀ {front : List Text}, front ≠ [] → ∀ back, ∃ t, unlines (front ++ back) =
      unlines front ++ t ∧
      occurrences "\\item".toList t = occurrences "\\item".toList (unlines back) := by
    intro front nonempty back
    obtain ⟨t, same, rfl | rfl⟩ := exists_unlines_append nonempty back
    · exact ⟨_, same, rfl⟩
    · exact ⟨_, same, newline.occurrences_append _⟩
  have passes :
      ∀ {front back : List Text}, front ≠ [] → Silent (skip? "\\item".toList) (unlines front) →
      occurrences "\\item".toList (unlines (front ++ back)) = occurrences "\\item".toList
        (unlines back) := by
    intro front back nonempty silent
    obtain ⟨t, same, count⟩ := behind nonempty back
    rw [same, silent.occurrences_append, count]
  have ends : ∀ ordered, Silent (skip? "\\item".toList) (ListStyle.latex.opening ordered) ∧
      Silent (skip? "\\item".toList) (ListStyle.latex.closing ordered) := by
    rintro (_ | _) <;> exact ⟨silent_skip (by decide), silent_skip (by decide)⟩
  induction layout with
  | nil => rfl
  | @line s _ _ fit _ ih =>
      exact (passes (List.cons_ne_nil s []) (fit.strand.silent_skip known)).trans ih
  | @table columns header rows _ _ _ _ eachHeader each _ ih =>
      have silent : Silent (skip? "\\item".toList) (unlines (tableLines columns header rows)) := by
        rw [unlines_tableLines]
        exact silent_tableText known (by decide)
          (fun cell member => (eachHeader cell member).strand)
          fun row member cell inside => (each row member cell inside).strand
      exact (passes (List.cons_ne_nil _ _) silent).trans ih
  | opening ordered _ ih => exact (passes (List.cons_ne_nil _ []) (ends ordered).1).trans ih
  | @item _ text ls _ fit _ _ ih =>
      obtain ⟨t, same, count⟩ := behind (List.cons_ne_nil ("\\item ".toList ++ text) []) ls
      have silent : Silent (skip? "\\item".toList) (' ' :: text) :=
        (silent_skip (s := [' ']) (by decide)).append (fit.strand.silent_skip known)
      have whole :
          unlines (("\\item ".toList ++ text) :: ls) = "\\item".toList ++ (' ' :: text ++ t) := same
      have first := occurrences_append_self '\\' "item".toList (' ' :: text ++ t)
      calc occurrences "\\item".toList (unlines (("\\item ".toList ++ text) :: ls))
          = occurrences "\\item".toList (' ' :: text ++ t) + 1 := whole ▸ first
        _ = occurrences "\\item".toList (unlines ls) + 1 := by rw [silent.occurrences_append, count]
        _ = _ := by
          rw [ih]
          exact List.count_cons_self.symm
  | @closing ordered _ _ _ ih => exact (passes (List.cons_ne_nil _ []) (ends ordered).2).trans ih

/-! ## Trimming -/

/-- Blank lines in front go, and the blanks in front of the first line that is left. -/
theorem trimStart (layout : Layout .latex shown around ls tags) :
    ∃ trimmed, Layout .latex shown around trimmed tags ∧ trimStart (unlines ls) =
      unlines trimmed := by
  induction layout with
  | nil => exact ⟨[], .nil, rfl⟩
  | @line s ls _ fit rest ih =>
      by_cases empty : Text.trimStart s = []
      · rw [trimStart_unlines_of_eq_nil empty]
        exact ih
      · exact ⟨_, .line fit.trimStart rest, trimStart_unlines_of_ne_nil empty ls⟩
  | table someHeader filled eachHeader each rest _ =>
      exact ⟨_, .table someHeader filled eachHeader each rest, trimStart_unlines (by decide) _ _⟩
  | opening ordered rest _ => exact ⟨_, .opening ordered rest, trimStart_unlines (by decide) _ _⟩
  | item fit isShown rest _ => exact ⟨_, .item fit isShown rest, trimStart_unlines (by decide) _ _⟩
  | closing rest _ => exact ⟨_, .closing rest, trimStart_unlines (by decide) _ _⟩

/-- What trimming the back of lines leaves: nothing, or lines with the same tags. -/
def TrimsEnd (shown : Text → Prop) (around : Option Bool) (ls : List Text)
    (tags : List ListTag) : Prop :=
  (around = none ∧ Text.trimEnd (unlines ls) = [] ∧ tags = []) ∨
    ∃ trimmed, Layout .latex shown around trimmed tags ∧
      Text.trimEnd (unlines ls) = unlines trimmed ∧ unlines trimmed ≠ []

/-- Lines that begin and end in visible characters stay in front of what is trimmed. -/
theorem TrimsEnd.solid {group rest : List Text} {s t : Text} {b c : Char}
    (visible : isBlank c = false)
    (ends : front = group ++ [s ++ [c]]) (begins : front = (b :: t) :: rest)
    (wrap : ∀ {back}, Layout .latex shown none back first →
      Layout .latex shown around (front ++ back) tags)
    (trims : TrimsEnd shown none ls first) : TrimsEnd shown around (front ++ ls) tags := by
  have someFront : front ≠ [] := begins ▸ List.cons_ne_nil _ _
  have visibleFront : ∀ back, unlines (front ++ back) ≠ [] := by
    intro back
    rw [begins]
    exact unlines_ne_nil b t (rest ++ back)
  rcases trims with ⟨-, empty, rfl⟩ | ⟨trimmed, layout, same, nonempty⟩
  · refine .inr ⟨front ++ [], wrap .nil, ?_, visibleFront []⟩
    rw [trimEnd_unlines_of_eq_nil someFront empty, List.append_nil, ends]
    exact trimEnd_unlines_concat group s visible
  · exact .inr ⟨front ++ trimmed, wrap layout, trimEnd_unlines_of_ne_nil someFront same nonempty,
      visibleFront trimmed⟩

/-- Blank lines at the end go, and the blanks behind the last line that is left. -/
theorem trimsEnd (layout : Layout .latex shown around ls tags) : TrimsEnd shown around ls tags := by
  induction layout with
  | nil => exact .inl ⟨rfl, rfl, rfl⟩
  | @line s ls tags fit rest ih =>
      rcases ih with ⟨-, isNil, rfl⟩ | ⟨trimmed, layout, same, nonempty⟩
      · have alone : Text.trimEnd (unlines (s :: ls)) = Text.trimEnd s :=
          trimEnd_unlines_of_eq_nil (List.cons_ne_nil s []) isNil
        by_cases blank : Text.trimEnd s = []
        · exact .inl ⟨rfl, alone.trans blank, rfl⟩
        · exact .inr ⟨[Text.trimEnd s], .line fit.trimEnd .nil, alone, blank⟩
      · refine .inr ⟨s :: trimmed, .line fit layout,
          trimEnd_unlines_of_ne_nil (List.cons_ne_nil s []) same nonempty, ?_⟩
        obtain ⟨next, later, rfl⟩ : ∃ next later, trimmed = next :: later :=
          List.exists_cons_of_ne_nil fun empty => nonempty (by rw [empty]; rfl)
        simp
  | @table columns header rows ls tags someHeader filled eachHeader each rest ih =>
      have ends : tableLines columns header rows =
          (beginEnvironment "tabular".toList ++ group (List.replicate columns 'l')) ::
            "\\toprule".toList :: Table.rowLine header :: "\\midrule".toList ::
              (rows.map Table.rowLine ++ ["\\bottomrule".toList]) ++
                ["\\end\x7btabular".toList ++ ['\x7d']] := by
        simp only [List.cons_append, List.append_assoc]
        rfl
      exact ih.solid (by decide) ends rfl fun layout =>
        .table someHeader filled eachHeader each layout
  | opening ordered rest ih =>
      obtain ⟨nothing, -⟩ | ⟨trimmed, layout, same, nonempty⟩ := ih
      · cases nothing
      · exact .inr ⟨_, .opening ordered layout,
          trimEnd_unlines_of_ne_nil (List.cons_ne_nil _ []) same nonempty, unlines_ne_nil _ _ _⟩
  | item fit isShown rest ih =>
      obtain ⟨nothing, -⟩ | ⟨trimmed, layout, same, nonempty⟩ := ih
      · cases nothing
      · exact .inr ⟨_, .item fit isShown layout,
          trimEnd_unlines_of_ne_nil (List.cons_ne_nil _ []) same nonempty, unlines_ne_nil _ _ _⟩
  | @closing ordered ls tags rest ih =>
      have ends : [ListStyle.latex.closing ordered] =
          [] ++ [('\\' :: "end".toList ++ '\x7b' :: ListStyle.environment ordered) ++
            ['\x7d']] := by
        simp [ListStyle.latex, endEnvironment, command, group]
      exact ih.solid (by decide) ends rfl fun layout => .closing layout

theorem trim (layout : Layout .latex shown none ls tags) :
    ∃ trimmed, Layout .latex shown none trimmed tags ∧ trim (unlines ls) = unlines trimmed := by
  obtain ⟨begun, layoutBegun, same⟩ := layout.trimStart
  rw [Text.trim, same]
  rcases layoutBegun.trimsEnd with ⟨-, empty, rfl⟩ | ⟨trimmed, layoutTrimmed, sameEnd, -⟩
  · exact ⟨[], .nil, empty⟩
  · exact ⟨trimmed, layoutTrimmed, sameEnd⟩

end Layout

end SlideDeck.Html
