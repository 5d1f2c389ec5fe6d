import SlideDeck.Build.PageRange
import SlideDeck.Proofs.Text.Number
import SlideDeck.Proofs.Text.Search

/-!
# How page ranges are written

A range is the text of a page, with a hyphen behind it if the range goes to the end, or the texts of
two pages with a hyphen between them (`Writes`). No text of a page holds a hyphen, so a range is cut
at its first hyphen and in no other way.

The reader takes a text for a range just if it is written so, its ranges are the proper ones, and
from the shortest text of a proper range it gets the range back (`read_iff_writes`).
-/

set_option autoImplicit false

namespace SlideDeck.PageRange

open SlideDeck.Text

variable {s : Text} {number : Nat} {range : PageRange}

/-! ## Pages -/

/-- The text writes the page: its number, from 1 on and of 32 bits, with blanks around it. -/
inductive WritesPage : Text → Nat → Prop
  | within {front digits back : Text} {number : Nat} (first : ∀ c ∈ front, isBlank c = true)
      (written : WritesNat digits number) (last : ∀ c ∈ back, isBlank c = true)
      (positive : 1 ≤ number) (small : number < bound32) :
      WritesPage (front ++ (digits ++ back)) number

theorem page_eq_ok_iff :
    page s = .ok number ↔ WritesNat (trim s) number ∧ number < bound32 ∧ 0 < number := by
  rw [← and_assoc, ← boundedNat?_eq_some_iff, page, nat32?]
  cases boundedNat? bound32 (trim s) with
  | none => simp
  | some value =>
      by_cases positive : 0 < value
      · simp only [Option.filter_some, positive, decide_true, if_true, Except.ok.injEq,
          Option.some.injEq]
        exact ⟨fun same => ⟨same, same ▸ positive⟩, And.left⟩
      · simp only [Option.filter_some, positive, decide_false, Bool.false_eq_true, if_false,
          reduceCtorEq, Option.some.injEq, false_iff]
        rintro ⟨rfl, more⟩
        exact positive more

/-- The reader of pages takes exactly the texts that write one. -/
theorem page_eq_ok_iff_writesPage : page s = .ok number ↔ WritesPage s number := by
  rw [page_eq_ok_iff]
  constructor
  · rintro ⟨written, small, positive⟩
    obtain ⟨front, back, whole, first, last⟩ := exists_blanks_trim s
    rw [whole]
    exact .within first written last positive small
  · rintro ⟨first, written, last, positive, small⟩
    rw [trim_between_blanks first last, trim_of_visible written.isBlank]
    exact ⟨written, small, positive⟩

theorem WritesPage.hyphen_not_mem (written : WritesPage s number) : '-' ∉ s := by
  obtain ⟨first, digits, last, -, -⟩ := written
  simp only [List.mem_append, not_or]
  exact ⟨fun member => absurd (first '-' member) (by decide), digits.hyphen_not_mem,
    fun member => absurd (last '-' member) (by decide)⟩

theorem WritesPage.ne_nil (written : WritesPage s number) : s ≠ [] := by
  obtain ⟨first, ⟨nonempty, -⟩ | ⟨nonempty, -⟩, last, -, -⟩ := written
  · simp [nonempty]
  · simp

/-- The decimal form of a page writes it. -/
theorem writesPage_ofNat (positive : 1 ≤ number) (small : number < bound32) :
    WritesPage (ofNat number) number := by
  have blank : ∀ c ∈ ([] : Text), isBlank c = true := List.forall_mem_nil _
  have written : WritesPage ([] ++ (ofNat number ++ [])) number :=
    .within blank (writesNat_ofNat number) blank positive small
  rwa [List.append_nil] at written

/-! ## Ranges -/

/-- The text writes the range: `N`, `N-` or `N-M`. -/
inductive Writes : Text → PageRange → Prop
  | single {s : Text} {number : Nat} (written : WritesPage s number) :
      Writes s ⟨number, some number⟩
  | onwards {s : Text} {number : Nat} (written : WritesPage s number) :
      Writes (s ++ ['-']) ⟨number, none⟩
  | between {s t : Text} {first last : Nat} (start : WritesPage s first) (stop : WritesPage t last)
      (ordered : first ≤ last) : Writes (s ++ '-' :: t) ⟨first, some last⟩

/-- A range that does not end before it starts, from page 1 on, with numbers of 32 bits. -/
structure IsProper (range : PageRange) : Prop where
  positive : 1 ≤ range.first
  small : range.first < bound32
  ordered : ∀ last ∈ range.last, range.first ≤ last ∧ last < bound32

theorem WritesPage.positive (written : WritesPage s number) : 1 ≤ number := by
  cases written; assumption

theorem WritesPage.small (written : WritesPage s number) : number < bound32 := by
  cases written; assumption

theorem Writes.isProper (written : Writes s range) : range.IsProper := by
  cases written with
  | single written =>
      refine ⟨written.positive, written.small, ?_⟩
      rintro _ ⟨⟩
      exact ⟨Nat.le_refl _, written.small⟩
  | onwards written => exact ⟨written.positive, written.small, nofun⟩
  | between start stop ordered =>
      refine ⟨start.positive, start.small, ?_⟩
      rintro _ ⟨⟩
      exact ⟨ordered, stop.small⟩

/-- The shortest text of a proper range writes it. -/
theorem IsProper.writes_render (proper : range.IsProper) : Writes range.render range := by
  obtain ⟨first, last⟩ := range
  have start := writesPage_ofNat proper.positive proper.small
  cases last with
  | none => exact .onwards start
  | some last =>
      obtain ⟨ordered, small⟩ := proper.ordered last rfl
      have stop := writesPage_ofNat (Nat.le_trans proper.positive ordered) small
      by_cases same : last = first
      · subst same
        simpa only [render, if_true] using Writes.single stop
      · simpa only [render, if_neg same] using Writes.between start stop ordered

/-! ## Reading -/

/-- Without a hyphen the text is read as one page. -/
theorem read_single (absent : '-' ∉ s) :
    read s = .ok range ↔ ∃ number, WritesPage s number ∧ range = ⟨number, some number⟩ := by
  have whole : splitOnce '-' s = none := by
    cases cut : splitOnce '-' s with
    | none => rfl
    | some parts => exact absurd (by simp [(splitOnce_eq_some cut).1]) absent
  simp only [← page_eq_ok_iff_writesPage]
  cases start : page s with
  | error failure => simp [read, ends, whole, start, Except.map, bind, Except.bind]
  | ok number =>
      simp [read, ends, whole, start, Except.map, bind, Except.bind, PageRange.ordered, eq_comm]

/-- With a hyphen at its end the text is read as the page from which the range goes on. -/
theorem read_onwards (absent : '-' ∉ s) :
    read (s ++ ['-']) = .ok range ↔ ∃ number, WritesPage s number ∧ range = ⟨number, none⟩ := by
  have cut := splitOnce_append absent []
  simp only [← page_eq_ok_iff_writesPage]
  cases start : page s with
  | error failure => simp [read, ends, cut, start, Except.map, bind, Except.bind]
  | ok number =>
      simp [read, ends, cut, start, Except.map, bind, Except.bind, PageRange.ordered, eq_comm]

/-- With something behind its first hyphen the text is read as two pages. -/
theorem read_between {t : Text} (absent : '-' ∉ s) (nonempty : t ≠ []) :
    read (s ++ '-' :: t) = .ok range ↔ ∃ first last, WritesPage s first ∧ WritesPage t last ∧
      first ≤ last ∧ range = ⟨first, some last⟩ := by
  have cut := splitOnce_append absent t
  simp only [← page_eq_ok_iff_writesPage]
  cases start : page s with
  | error failure => simp [read, ends, cut, start, bind, Except.bind]
  | ok first =>
      cases stop : page t with
      | error failure => simp [read, ends, cut, start, stop, bind, Except.bind]
      | ok last =>
          by_cases reversed : last < first
          · have apart := Nat.not_le.mpr reversed
            simp [read, ends, cut, start, stop, bind, Except.bind, pure, Except.pure,
              PageRange.ordered, reversed, apart]
          · simp [read, ends, cut, start, stop, bind, Except.bind, pure, Except.pure,
              PageRange.ordered, reversed, Nat.le_of_not_lt reversed, eq_comm]

/-- The reader takes a text for a range just if it is written so. -/
theorem read_eq_ok_iff : read s = .ok range ↔ Writes s range := by
  constructor
  · intro done
    by_cases absent : '-' ∉ s
    · obtain ⟨number, written, rfl⟩ := (read_single absent).mp done
      exact .single written
    · obtain ⟨front, back, rfl, before⟩ := List.eq_append_cons_of_mem (not_not.mp absent)
      by_cases empty : back = []
      · subst empty
        obtain ⟨number, written, rfl⟩ := (read_onwards before).mp done
        exact .onwards written
      · obtain ⟨first, last, start, stop, ordered, rfl⟩ := (read_between before empty).mp done
        exact .between start stop ordered
  · intro written
    cases written with
    | single written =>
        exact (read_single written.hyphen_not_mem).mpr ⟨_, written, rfl⟩
    | onwards written =>
        exact (read_onwards written.hyphen_not_mem).mpr ⟨_, written, rfl⟩
    | between start stop ordered =>
        exact (read_between start.hyphen_not_mem stop.ne_nil).mpr
          ⟨_, _, start, stop, ordered, rfl⟩

/-- **Ranges are read just where they are written, and they are the proper ones.** A text is read as
a range if it writes it as `N`, `N-` or `N-M`. A range is read from some text just if it is proper,
and just then it is read from its shortest text. -/
theorem read_iff_writes (range : PageRange) :
    (∀ s, read s = .ok range ↔ Writes s range) ∧
      ((∃ s, read s = .ok range) ↔ range.IsProper) ∧
      (range.IsProper ↔ read range.render = .ok range) := by
  have sound : ∀ s, read s = .ok range → range.IsProper := fun s done =>
    (read_eq_ok_iff.mp done).isProper
  have back : range.IsProper → read range.render = .ok range := fun proper =>
    read_eq_ok_iff.mpr proper.writes_render
  exact ⟨fun s => read_eq_ok_iff,
    ⟨fun ⟨s, done⟩ => sound s done, fun proper => ⟨range.render, back proper⟩⟩,
    ⟨back, sound range.render⟩⟩

/-- Blanks, plus signs and zeros in front of a number are taken, a second hyphen is not. -/
example : read " +07 - 9".toList = .ok ⟨7, some 9⟩ ∧ (read "1--2".toList).toOption = none := by
  decide

end SlideDeck.PageRange
