import SlideDeck.Proofs.Latex.Option
import SlideDeck.Proofs.Lint.Nested
import SlideDeck.Proofs.Slide.Body

/-!
# Reading the environments of a page

A page is a sequence of *segments* (`Segment`): rows, and listings with the code in them. Whoever
reads it outside of the code keeps the environments that are open, each with the number that it was
begun with (`Nest`), and meets items in them (`itemLines`). Environments that belong together in
pairs leave nothing open behind (`exists_foldl_meet`).

Most rows say nothing to this reader (`Plain`). Trimming a page changes plain rows only, as long as
everything else stands in groups with something visible at both ends (`Firm`, `Firm.trim`). So the
trimmed page has the same segments that say something, and all that is read comes from these
(`environmentEnds_telling`, `itemLines_telling`).

LaTeX reads the listings of a page up to their first end. Where the segments are such that it finds
them (`Segment.Legible`), the page without its listings is made of what is left of each segment
(`Segment.withoutListings_unlines`). Which rows there are does not depend on the choice of the
segments: the page and its listings determine it, empty rows apart (`Segment.countP_rows`).
-/

set_option autoImplicit false

namespace SlideDeck.Slide

open SlideDeck SlideDeck.Text SlideDeck.Latex SlideDeck.Lint

/-! ## Segments -/

/-- A part of a page: a row, or a listing with its option and its code. -/
inductive Segment where
  | row (text : Text)
  | code (option : Text) (body : List Text)

namespace Segment

/-- The lines of a segment. -/
def lines : Segment → List Text
  | row text => [text]
  | code option body =>
    (beginEnvironment Slide.listing ++ option) :: (body ++ [endEnvironment Slide.listing])

/-- The lines of a segment that are not in the body of a listing. -/
def outside : Segment → List Text
  | row text => [text]
  | code option _ => [beginEnvironment Slide.listing ++ option, endEnvironment Slide.listing]

/-- The option and the code of a listing. -/
def listing? : Segment → Option (Text × List Text)
  | row _ => none
  | code option body => some (option, body)

end Segment

/-! ## Reading -/

/-- The environments that are open, innermost first, each with its number, and how many have
begun. -/
structure Nest where
  opened : List (Text × Nat) := []
  begun : Nat := 0

namespace Nest

/-- Reads one end of an environment. -/
def meet (nest : Nest) : EnvironmentEnd → Nest
  | .opens name => { opened := (name, nest.begun) :: nest.opened, begun := nest.begun + 1 }
  | .closes _ => { nest with opened := nest.opened.tail }

/-- Reads the ends of environments on a line. -/
def behind (nest : Nest) (line : Text) : Nest := (environmentEnds line).foldl meet nest

end Nest

/-- The command of an item. -/
def itemCommand : Text := "\\item".toList

/-- The lines with an item, each with the innermost environment that it stands in. -/
def itemLines (nest : Nest) : List Text → List (Text × Option (Text × Nat))
  | [] => []
  | line :: rest =>
    let later := itemLines (nest.behind line) rest
    if includes itemCommand line then (line, nest.opened.head?) :: later else later

section Reading

variable {ends : List EnvironmentEnd} {ls : List Text}

theorem itemLines_append (nest : Nest) (front back : List Text) :
    itemLines nest (front ++ back) =
      itemLines nest front ++ itemLines (front.foldl Nest.behind nest) back := by
  induction front generalizing nest with
  | nil => rfl
  | cons line front ih =>
      rw [List.cons_append, itemLines, itemLines, ih, List.foldl_cons]
      split
      · rfl
      · rfl

theorem itemLines_of_itemless (nest : Nest) (itemless : ∀ line ∈ ls, ¬ itemCommand <:+: line) :
    itemLines nest ls = [] := by
  induction ls generalizing nest with
  | nil => rfl
  | cons line ls ih =>
      rw [List.forall_mem_cons] at itemless
      rw [itemLines, if_neg (mt includes_iff.mp itemless.1)]
      exact ih _ itemless.2

/-- Lines are read by the ends on them. -/
theorem foldl_behind (nest : Nest) (ls : List Text) :
    ls.foldl Nest.behind nest = (ls.flatMap environmentEnds).foldl Nest.meet nest :=
  List.foldl_flatMap.symm

/-- Behind a well-nested word the same environments are open as before, and those that have begun in
it are counted. -/
theorem exists_foldl_meet (nested : WellNested ends) (nest : Nest) :
    ∃ n, ends.foldl Nest.meet nest = { nest with begun := nest.begun + n } ∧
      (ends ≠ [] → 0 < n) := by
  induction nested generalizing nest with
  | nil => exact ⟨0, rfl, fun nonempty => absurd rfl nonempty⟩
  | environment name _ _ ihInner ihRest =>
      obtain ⟨m, inner, -⟩ := ihInner (nest.meet (.opens name))
      obtain ⟨n, later, -⟩ := ihRest { nest with begun := nest.begun + 1 + m }
      refine ⟨1 + m + n, ?_, fun _ => by omega⟩
      rw [List.foldl_cons, List.foldl_append, inner, List.foldl_cons]
      refine later.trans ?_
      simp only [Nat.add_assoc]

end Reading

/-! ## Rows that say nothing -/

/-- A line without an item and without an end of an environment. -/
structure Plain (line : Text) : Prop where
  itemless : ¬ itemCommand <:+: line
  calm : Calm line

instance (line : Text) : Decidable (Plain line) :=
  decidable_of_iff (¬ includes itemCommand line = true ∧ Calm line) (by
    rw [includes_iff]
    exact ⟨fun both => ⟨both.1, both.2⟩, fun plain => ⟨plain.1, plain.2⟩⟩)

/-- Whether a segment says something to a reader of environments and items. -/
def Segment.telling : Segment → Bool
  | .row text => !decide (Plain text)
  | .code .. => true

/-- A part of a plain line is plain. -/
theorem Plain.of_isInfix {s t : Text} (plain : Plain t) (part : s <:+: t) : Plain s :=
  ⟨fun occurs => plain.itemless (occurs.trans part), plain.calm.of_isInfix part⟩

section Telling

variable {text : Text} {segments : List Segment}

/-- A plain row does not count among the segments that say something. -/
theorem Plain.filter_cons (plain : Plain text) (rest : List Segment) :
    (Segment.row text :: rest).filter Segment.telling = rest.filter Segment.telling := by
  simp [Segment.telling, plain]

theorem Plain.of_telling_eq_false {segment : Segment} (silent : segment.telling = false) :
    ∃ text, segment = .row text ∧ Plain text := by
  cases segment with
  | row text => exact ⟨text, rfl, by simpa [Segment.telling] using silent⟩
  | code option body => cases silent

/-- What is read from each segment comes from those that say something. -/
theorem flatMap_telling {α : Type} {read : Segment → List α}
    (quiet : ∀ text, Plain text → read (.row text) = []) (segments : List Segment) :
    (segments.filter Segment.telling).flatMap read = segments.flatMap read := by
  induction segments with
  | nil => rfl
  | cons segment segments ih =>
      cases tells : segment.telling with
      | true => rw [List.filter_cons_of_pos tells, List.flatMap_cons, List.flatMap_cons, ih]
      | false =>
          obtain ⟨text, rfl, plain⟩ := Plain.of_telling_eq_false tells
          rw [List.filter_cons_of_neg (by simp [tells]), List.flatMap_cons, ih, quiet text plain,
            List.nil_append]

/-- The listings in segments are among those that say something. -/
theorem listing?_telling (segments : List Segment) :
    (segments.filter Segment.telling).filterMap Segment.listing? =
      segments.filterMap Segment.listing? := by
  rw [List.filterMap_eq_flatMap_toList, List.filterMap_eq_flatMap_toList]
  exact flatMap_telling (fun _ _ => rfl) segments

/-- The environments in segments begin and end in those that say something. -/
theorem environmentEnds_telling (segments : List Segment) :
    ((segments.filter Segment.telling).flatMap Segment.outside).flatMap environmentEnds =
      (segments.flatMap Segment.outside).flatMap environmentEnds := by
  rw [List.flatMap_assoc, List.flatMap_assoc]
  refine flatMap_telling (fun text plain => ?_) segments
  rw [Segment.outside, List.flatMap_singleton, environmentEnds_of_calm plain.calm]

/-- The items in segments are in those that say something. -/
theorem itemLines_telling (nest : Nest) (segments : List Segment) :
    itemLines nest ((segments.filter Segment.telling).flatMap Segment.outside) =
      itemLines nest (segments.flatMap Segment.outside) := by
  induction segments generalizing nest with
  | nil => rfl
  | cons segment segments ih =>
      cases tells : segment.telling with
      | true =>
          rw [List.filter_cons_of_pos tells, List.flatMap_cons, List.flatMap_cons, itemLines_append,
            itemLines_append, ih]
      | false =>
          obtain ⟨text, rfl, plain⟩ := Plain.of_telling_eq_false tells
          have same : nest.behind text = nest := by
            rw [Nest.behind, environmentEnds_of_calm plain.calm]
            rfl
          have noItem : includes itemCommand text = false :=
            Bool.eq_false_iff.mpr (mt includes_iff.mp plain.itemless)
          rw [List.filter_cons_of_neg (by simp [tells]), ih]
          simp [Segment.outside, itemLines, same, noItem]

end Telling

/-! ## Trimming -/

/-- The lines of segments. -/
def linesOf (segments : List Segment) : List Text := segments.flatMap Segment.lines

/-- Segments that trimming leaves as they are. -/
structure Solid (group : List Segment) : Prop where
  nonempty : unlines (linesOf group) ≠ []
  begins : trimStart (unlines (linesOf group)) = unlines (linesOf group)
  ends : trimEnd (unlines (linesOf group)) = unlines (linesOf group)

/-- Plain rows, and groups of segments that trimming leaves as they are. -/
inductive Firm : List Segment → Prop where
  | nil : Firm []
  | plain {text : Text} {rest : List Segment} (plain : Plain text) (later : Firm rest) :
      Firm (.row text :: rest)
  | solid {group rest : List Segment} (solid : Solid group) (later : Firm rest) :
      Firm (group ++ rest)

theorem linesOf_singleton (segment : Segment) : linesOf [segment] = segment.lines :=
  List.flatMap_singleton ..

theorem linesOf_append (front back : List Segment) :
    linesOf (front ++ back) = linesOf front ++ linesOf back :=
  List.flatMap_append

/-- Segments whose lines are single lines. -/
def SingleLines (segments : List Segment) : Prop := ∀ line ∈ linesOf segments, '\n' ∉ line

theorem singleLines_append {front back : List Segment} :
    SingleLines (front ++ back) ↔ SingleLines front ∧ SingleLines back := by
  rw [SingleLines, linesOf_append]
  exact List.forall_mem_append

theorem singleLines_cons {text : Text} {rest : List Segment} :
    SingleLines (.row text :: rest) ↔ '\n' ∉ text ∧ SingleLines rest :=
  List.forall_mem_cons

theorem Solid.linesOf_ne_nil {group : List Segment} (solid : Solid group) : linesOf group ≠ [] := by
  intro empty
  apply solid.nonempty
  rw [empty]
  rfl

/-- A group whose first and last line have something visible at the outer end. -/
theorem Solid.of_lines {group : List Segment} {first last : Char} {front back : Text}
    {inner : List Text} (visible : isBlank first = false) (visibleLast : isBlank last = false)
    (same : unlines (linesOf group) = unlines ((first :: front) :: (inner ++ [back ++ [last]]))) :
    Solid group where
  nonempty := by
    rw [same]
    exact unlines_ne_nil _ _ _
  begins := by
    rw [same]
    exact trimStart_unlines visible _ _
  ends := by
    rw [same, ← List.cons_append]
    exact trimEnd_unlines_concat _ _ visibleLast

namespace Firm

variable {segments front back : List Segment}

theorem append (first : Firm front) (second : Firm back) : Firm (front ++ back) := by
  induction first with
  | nil => exact second
  | plain plain _ ih => exact .plain plain ih
  | solid solid _ ih =>
      rw [List.append_assoc]
      exact .solid solid ih

theorem of_solid (solid : Solid segments) : Firm segments := by
  rw [← List.append_nil segments]
  exact .solid solid .nil

theorem of_plain_rows {ls : List Text} (each : ∀ line ∈ ls, Plain line) : Firm (ls.map .row) := by
  induction ls with
  | nil => exact .nil
  | cons line ls ih =>
      rw [List.forall_mem_cons] at each
      exact .plain each.1 (ih each.2)

theorem flatMap {α : Type} {items : List α} {write : α → List Segment}
    (each : ∀ item ∈ items, Firm (write item)) : Firm (items.flatMap write) := by
  induction items with
  | nil => exact .nil
  | cons item items ih =>
      rw [List.forall_mem_cons] at each
      rw [List.flatMap_cons]
      exact each.1.append (ih each.2)

/-- Other segments that say the same. -/
structure Kept (segments kept : List Segment) : Prop where
  firm : Firm kept
  same : kept.filter Segment.telling = segments.filter Segment.telling
  singleLines : SingleLines segments → SingleLines kept

theorem trimStart (firm : Firm segments) :
    ∃ kept, Kept segments kept ∧ trimStart (unlines (linesOf segments)) =
      unlines (linesOf kept) := by
  induction firm with
  | nil => exact ⟨[], ⟨.nil, rfl, id⟩, rfl⟩
  | @plain text rest plain later ih =>
      have whole : linesOf (.row text :: rest) = text :: linesOf rest := rfl
      by_cases empty : Text.trimStart text = []
      · obtain ⟨kept, ⟨firm, same, single⟩, trimmed⟩ := ih
        refine ⟨kept, ⟨firm, ?_, fun lines => single (singleLines_cons.mp lines).2⟩, ?_⟩
        · rw [same, plain.filter_cons]
        · rw [whole, trimStart_unlines_of_eq_nil empty, trimmed]
      · have part := trimStart_isSuffix text
        have plainTrimmed := plain.of_isInfix part.isInfix
        refine ⟨.row (Text.trimStart text) :: rest,
          ⟨.plain plainTrimmed later, ?_, fun lines => ?_⟩, trimStart_unlines_of_ne_nil empty _⟩
        · rw [plain.filter_cons, plainTrimmed.filter_cons]
        · rw [singleLines_cons] at lines ⊢
          exact lines.imp_left (mt fun inside => part.subset inside)
  | @solid group rest solid later _ =>
      refine ⟨group ++ rest, ⟨.solid solid later, rfl, id⟩, ?_⟩
      obtain ⟨t, whole, -⟩ := exists_unlines_append solid.linesOf_ne_nil (linesOf rest)
      rw [linesOf_append, whole, trimStart_append (solid.begins.symm ▸ solid.nonempty),
        solid.begins]

/-- Segments without text say nothing. -/
theorem filter_eq_nil (firm : Firm segments) (empty : unlines (linesOf segments) = []) :
    segments.filter Segment.telling = [] := by
  induction firm with
  | nil => rfl
  | @plain text rest plain later ih =>
      have whole : linesOf (.row text :: rest) = text :: linesOf rest := rfl
      rw [plain.filter_cons]
      apply ih
      rw [whole] at empty
      cases ls : linesOf rest with
      | nil => rfl
      | cons next ls =>
          rw [ls, unlines_cons_cons] at empty
          exact absurd empty (by simp)
  | @solid group rest solid later _ =>
      obtain ⟨t, whole, -⟩ := exists_unlines_append solid.linesOf_ne_nil (linesOf rest)
      rw [linesOf_append, whole] at empty
      exact absurd (List.append_eq_nil_iff.mp empty).1 solid.nonempty

theorem trimEnd (firm : Firm segments) :
    ∃ kept, Kept segments kept ∧ trimEnd (unlines (linesOf segments)) = unlines (linesOf kept) := by
  induction firm with
  | nil => exact ⟨[], ⟨.nil, rfl, id⟩, rfl⟩
  | @plain text rest plain later ih =>
      have whole : linesOf (.row text :: rest) = [text] ++ linesOf rest := rfl
      obtain ⟨kept, ⟨firm, same, single⟩, trimmed⟩ := ih
      rw [whole]
      by_cases empty : unlines (linesOf kept) = []
      · have part := trimEnd_isPrefix text
        have plainTrimmed := plain.of_isInfix part.isInfix
        refine ⟨[.row (Text.trimEnd text)], ⟨.plain plainTrimmed .nil, ?_, fun lines => ?_⟩, ?_⟩
        · rw [plain.filter_cons, plainTrimmed.filter_cons, ← same, firm.filter_eq_nil empty]
          rfl
        · rw [singleLines_cons] at lines ⊢
          exact ⟨mt (fun inside => part.subset inside) lines.1, fun _ member => nomatch member⟩
        · exact trimEnd_unlines_of_eq_nil (List.cons_ne_nil _ _) (trimmed.trans empty)
      · refine ⟨.row text :: kept, ⟨.plain plain firm, ?_, fun lines => ?_⟩,
          trimEnd_unlines_of_ne_nil (List.cons_ne_nil _ _) trimmed empty⟩
        · rw [plain.filter_cons, plain.filter_cons, same]
        · rw [singleLines_cons] at lines ⊢
          exact lines.imp_right single
  | @solid group rest solid later ih =>
      obtain ⟨kept, ⟨firm, same, single⟩, trimmed⟩ := ih
      rw [linesOf_append]
      by_cases empty : unlines (linesOf kept) = []
      · refine ⟨group, ⟨.of_solid solid, ?_, fun lines => (singleLines_append.mp lines).1⟩, ?_⟩
        · rw [List.filter_append, ← same, firm.filter_eq_nil empty, List.append_nil]
        · rw [trimEnd_unlines_of_eq_nil solid.linesOf_ne_nil (trimmed.trans empty), solid.ends]
      · refine ⟨group ++ kept, ⟨.solid solid firm, ?_, fun lines => ?_⟩, ?_⟩
        · rw [List.filter_append, List.filter_append, same]
        · rw [singleLines_append] at lines ⊢
          exact lines.imp_right single
        · rw [linesOf_append]
          exact trimEnd_unlines_of_ne_nil solid.linesOf_ne_nil trimmed empty

/-- **Trimming keeps what is read.** The lines that are left of a page are those of segments of
which the same say something. -/
theorem trim (firm : Firm segments) :
    ∃ kept, Kept segments kept ∧ trim (unlines (linesOf segments)) = unlines (linesOf kept) := by
  obtain ⟨begun, first, same⟩ := firm.trimStart
  obtain ⟨kept, second, trimmed⟩ := first.firm.trimEnd
  refine ⟨kept, ⟨second.firm, second.same.trans first.same,
    second.singleLines ∘ first.singleLines⟩, ?_⟩
  rw [Text.trim, same, trimmed]

end Firm

/-! ## Without the code -/

namespace Segment

/-- The row that a segment is. -/
def row? : Segment → Option Text
  | row text => some text
  | code .. => none

/-- What is left of a segment without code: a row as it is, and the two ends of a listing. -/
def remnant : Segment → Text
  | row text => text
  | code .. => beginEnvironment Slide.listing ++ endEnvironment Slide.listing

/-- A segment that is read as it is meant: no listing begins in a row, and nothing ends a listing
before its end. -/
def Legible : Segment → Prop
  | row text => ¬ beginEnvironment Slide.listing <:+: text
  | code option body => ∀ part ∈ option :: body, ¬ endEnvironment Slide.listing <:+: part

theorem mem_rows_iff {text : Text} {segments : List Segment} :
    text ∈ segments.filterMap row? ↔ .row text ∈ segments := by
  rw [List.mem_filterMap]
  constructor
  · rintro ⟨segment, member, isRow⟩
    cases segment with
    | row text =>
        cases isRow
        exact member
    | code => cases isRow
  · exact fun member => ⟨_, member, rfl⟩

/-- The lines of segments are their rows and the lines of their listings. -/
theorem countP_linesOf (p : Text → Bool) (segments : List Segment) :
    (linesOf segments).countP p = (segments.filterMap row?).countP p +
      ((segments.filterMap listing?).flatMap fun listed =>
        (code listed.1 listed.2).lines).countP p := by
  induction segments with
  | nil => rfl
  | cons segment segments ih =>
      rw [linesOf, List.flatMap_cons, List.countP_append, ← linesOf, ih]
      cases segment with
      | row text =>
          have isRow : row? (row text) = some text := rfl
          have noListing : listing? (row text) = none := rfl
          rw [List.filterMap_cons_some isRow, List.filterMap_cons_none noListing, lines,
            List.countP_cons, List.countP_cons, List.countP_nil, Nat.zero_add]
          omega
      | code option body =>
          have noRow : row? (code option body) = none := rfl
          have listed : listing? (code option body) = some (option, body) := rfl
          rw [List.filterMap_cons_none noRow, List.filterMap_cons_some listed, List.flatMap_cons,
            List.countP_append, Nat.add_left_comm]

/-- Segments of the same page with the same listings have the same rows, empty ones apart. -/
theorem countP_rows {p : Text → Bool} (visible : p [] = false) {first second : List Segment}
    (same : unlines (linesOf first) = unlines (linesOf second)) (oneLine : SingleLines first)
    (oneLine' : SingleLines second)
    (listings : first.filterMap listing? = second.filterMap listing?) :
    (first.filterMap row?).countP p = (second.filterMap row?).countP p := by
  have whole : (linesOf first).countP p = (linesOf second).countP p := by
    rw [← countP_splitAt_unlines visible oneLine, ← countP_splitAt_unlines visible oneLine', same]
  rw [countP_linesOf, countP_linesOf, listings] at whole
  exact Nat.add_right_cancel whole

theorem terminated_lines_code (option : Text) (body : List Text) (t : Text) :
    terminated (code option body).lines ++ t = beginEnvironment Slide.listing ++
      (terminated (option :: body) ++ (endEnvironment Slide.listing ++ '\n' :: t)) := by
  simp [lines, terminated_cons, terminated_append, terminated_nil]

theorem unlines_lines_code (option : Text) (body : List Text) :
    unlines (code option body).lines = beginEnvironment Slide.listing ++
      (terminated (option :: body) ++ (endEnvironment Slide.listing ++ [])) := by
  rw [lines, ← List.cons_append, unlines_append_of_ne_nil _ (List.cons_ne_nil _ _),
    terminated_cons, terminated_cons, List.append_assoc, List.append_assoc, List.append_assoc,
    List.append_nil]
  rfl

variable {segments : List Segment}

/-- Whoever passes over the code finds the segments that were written. -/
theorem withoutListings_terminated (each : ∀ segment ∈ segments, segment.Legible) (t : Text) :
    withoutListings (terminated (linesOf segments) ++ t) =
      terminated (segments.map remnant) ++ withoutListings t := by
  induction segments with
  | nil => rfl
  | cons segment segments ih =>
      rw [List.forall_mem_cons] at each
      rw [linesOf, List.flatMap_cons, terminated_append, List.append_assoc, ← linesOf,
        List.map_cons, terminated_cons, List.append_assoc, List.cons_append, ← ih each.2]
      cases segment with
      | row text =>
          rw [lines, terminated_cons, terminated_nil, List.append_assoc]
          exact withoutListings_line each.1 _
      | code option body =>
          have newline := Mute.newline.withoutListings_append (terminated (linesOf segments) ++ t)
          rw [terminated_lines_code, withoutListings_listing each.1, remnant, List.append_assoc]
          exact congrArg (fun rest => _ ++ (_ ++ rest)) newline

/-- So it is without the newline behind the last. -/
theorem withoutListings_unlines (each : ∀ segment ∈ segments, segment.Legible) :
    withoutListings (unlines (linesOf segments)) = unlines (segments.map remnant) := by
  rcases List.eq_nil_or_concat segments with rfl | ⟨front, last, rfl⟩
  · rfl
  · rw [List.concat_eq_append] at each ⊢
    rw [List.forall_mem_append, List.forall_mem_singleton] at each
    have lined : last.lines ≠ [] := by cases last <;> exact List.cons_ne_nil _ _
    have alone : withoutListings (unlines last.lines) = last.remnant := by
      cases last with
      | row text => exact withoutListings_eq_self each.2
      | code option body =>
          rw [unlines_lines_code, withoutListings_listing each.2]
          exact congrArg _ (List.append_nil _)
    rw [linesOf_append, linesOf_singleton, unlines_append_of_ne_nil _ lined,
      withoutListings_terminated each.1, alone, List.map_append, List.map_singleton,
      unlines_append_of_ne_nil _ (List.cons_ne_nil _ _)]
    rfl

end Segment

end SlideDeck.Slide
