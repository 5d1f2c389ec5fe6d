import SlideDeck.Proofs.Lint.Rule
import SlideDeck.Proofs.Lint.Tracker

/-!
# Nested environments

The ends of environments in a source form a word. It is *well nested* (`WellNested`) if each end
closes the most recent beginning that is still open, under the same name, and nothing stays open.

Reading such a word keeps the names of what is open on a stack (`openedAfter`), which a wrong end
stops. The word is well nested just if the stack is empty again behind it
(`wellNested_iff`): what is put on the stack and is not there any more has been closed by a part of
the word that is well nested itself (`exists_closing`).

The check of environments keeps the same stack, and goes on behind a wrong end. It has reported
something by then, so on a line, and on all lines, it is silent just if the reading is not stopped
(`openedAfter_run`, `environmentIssuesFrom_eq_nil_iff`). Where no environment without LaTeX begins,
the check therefore accepts the well-nested sources and no others (`accepts_iff_wellNested`).
-/

set_option autoImplicit false

namespace SlideDeck.Lint

open SlideDeck SlideDeck.Text SlideDeck.Latex

/-! ## Well-nested words -/

/-- Ends of environments that belong together in pairs, one pair in or behind another. -/
inductive WellNested : List EnvironmentEnd → Prop where
  | nil : WellNested []
  | environment (name : Text) {inner rest : List EnvironmentEnd} (inside : WellNested inner)
      (behind : WellNested rest) : WellNested (.opens name :: (inner ++ .closes name :: rest))

/-- The names of the environments that are open behind the ends, innermost first, when `opened` are
open before. There are none if an end is not that of the innermost. -/
def openedAfter : List Text → List EnvironmentEnd → Option (List Text)
  | opened, [] => some opened
  | opened, .opens name :: rest => openedAfter (name :: opened) rest
  | [], .closes _ :: _ => none
  | innermost :: opened, .closes name :: rest =>
    if innermost = name then openedAfter opened rest else none

section Words

variable {ends : List EnvironmentEnd} {opened last : List Text} {name : Text}

theorem openedAfter_append (opened : List Text) (front back : List EnvironmentEnd) :
    openedAfter opened (front ++ back) = (openedAfter opened front).bind (openedAfter · back) := by
  fun_induction openedAfter opened front <;> simp_all [openedAfter]

/-- Behind a well-nested word the same environments are open as before. -/
theorem WellNested.openedAfter (nested : WellNested ends) (opened : List Text) :
    openedAfter opened ends = some opened := by
  induction nested generalizing opened with
  | nil => rfl
  | environment name _ _ inside behind =>
      rw [Lint.openedAfter, openedAfter_append, inside, Option.bind_some, Lint.openedAfter,
        if_pos rfl, behind]

/-- An environment that is open before and not behind ends where everything in it has ended. -/
theorem exists_closing (leads : openedAfter (name :: opened) ends = some last)
    (fewer : last.length ≤ opened.length) :
    ∃ inner rest, ends = inner ++ .closes name :: rest ∧ WellNested inner ∧
      openedAfter opened rest = some last := by
  induction size : ends.length using Nat.strong_induction_on generalizing ends name opened with
  | _ n ih =>
      match ends with
      | [] =>
          obtain rfl : name :: opened = last := Option.some.inj leads
          exact absurd fewer (Nat.not_succ_le_self _)
      | .closes other :: rest =>
          rw [openedAfter, Option.ite_none_right_eq_some] at leads
          obtain ⟨rfl, leads⟩ := leads
          exact ⟨[], rest, rfl, .nil, leads⟩
      | .opens other :: rest =>
          -- the environment that begins here ends first
          have deeper : openedAfter (other :: name :: opened) rest = some last := leads
          rw [List.length_cons] at size
          obtain ⟨inner, later, rfl, inside, around⟩ :=
            ih _ (by omega) deeper (Nat.le_succ_of_le fewer) rfl
          rw [List.length_append, List.length_cons] at size
          obtain ⟨next, behind, rfl, nested, leads⟩ := ih _ (by omega) around fewer rfl
          exact ⟨.opens other :: (inner ++ .closes other :: next), behind, by simp,
            .environment other inside nested, leads⟩

/-- A word is well nested just if it leads from nothing open to nothing open. -/
theorem wellNested_iff : WellNested ends ↔ openedAfter [] ends = some [] := by
  refine ⟨fun nested => nested.openedAfter [], fun leads => ?_⟩
  induction size : ends.length using Nat.strong_induction_on generalizing ends with
  | _ n ih =>
      match ends with
      | [] => exact .nil
      | .closes name :: rest => cases leads
      | .opens name :: rest =>
          obtain ⟨inner, behind, rfl, inside, leads⟩ := exists_closing leads (Nat.le_refl 0)
          rw [List.length_cons, List.length_append, List.length_cons] at size
          exact .environment name inside (ih _ (by omega) leads rfl)

theorem WellNested.append {front back : List EnvironmentEnd} (first : WellNested front)
    (second : WellNested back) : WellNested (front ++ back) := by
  rw [wellNested_iff] at *
  rw [openedAfter_append, first, Option.bind_some, second]

instance (ends : List EnvironmentEnd) : Decidable (WellNested ends) :=
  decidable_of_iff (openedAfter [] ends = some []) wellNested_iff.symm

end Words

/-! ## The check -/

/-- The names of the environments that are open. -/
def Nesting.names (nesting : Nesting) : List Text := nesting.opened.map Prod.fst

section Check

variable {nesting : Nesting} {ends : List EnvironmentEnd}

/-- Reading one end leads to the stack of the check, unless this reports it. -/
theorem openedAfter_step (outside : nesting.verbatim = none) (number : Nat)
    (found : EnvironmentEnd) :
    openedAfter nesting.names [found] =
      if (nesting.step number found).1 = [] then some (nesting.step number found).2.names
      else none := by
  obtain ⟨opened, verbatim⟩ := nesting
  obtain rfl : verbatim = none := outside
  cases found with
  | opens name => rfl
  | closes name =>
      cases opened with
      | nil => rfl
      | cons innermost opened =>
          by_cases same : innermost.1 = name <;>
            simp [Nesting.names, Nesting.step, Nesting.sees, Nesting.meet, openedAfter, same]

/-- Reading the ends on a line leads to the stack of the check, unless this reports one of them. -/
theorem openedAfter_run (outside : nesting.verbatim = none)
    (others : ∀ found ∈ ends, opensVerbatim found = false) (number : Nat) :
    openedAfter nesting.names ends =
      if (nesting.run number ends).1 = [] then some (nesting.run number ends).2.names
        else none := by
  induction ends generalizing nesting with
  | nil => rfl
  | cons found ends ih =>
      rw [List.forall_mem_cons] at others
      have next : (nesting.step number found).2.verbatim = none := by
        rw [step_verbatim, outside]
        exact foldl_openBehind_none (List.forall_mem_singleton.mpr others.1)
      have first : openedAfter nesting.names (found :: ends) =
          (openedAfter nesting.names [found]).bind (openedAfter · ends) :=
        openedAfter_append nesting.names [found] ends
      have issues : (nesting.run number (found :: ends)).1 =
          (nesting.step number found).1 ++ ((nesting.step number found).2.run number ends).1 := rfl
      have behind : (nesting.run number (found :: ends)).2 =
          ((nesting.step number found).2.run number ends).2 := rfl
      rw [first, issues, behind, openedAfter_step outside number]
      by_cases silent : (nesting.step number found).1 = []
      · rw [if_pos silent, Option.bind_some, ih next others.2, silent, List.nil_append]
      · have both : (nesting.step number found).1 ++
            ((nesting.step number found).2.run number ends).1 ≠ [] :=
          List.append_ne_nil_of_left_ne_nil silent _
        rw [if_neg silent, if_neg both]
        rfl

/-- The check is silent about lines just if reading all their ends leads to nothing open. -/
theorem environmentIssuesFrom_eq_nil_iff {ls : List Text} (outside : nesting.verbatim = none)
    (others : ∀ line ∈ ls, ∀ found ∈ environmentEnds (codeOf line), opensVerbatim found = false)
    (number : Nat) :
    environmentIssuesFrom nesting (numberedFrom number ls) = [] ↔
      openedAfter nesting.names
        (ls.flatMap fun line => environmentEnds (codeOf line)) = some [] := by
  induction ls generalizing nesting number with
  | nil => simp [numberedFrom, environmentIssuesFrom, Nesting.unclosed, Nesting.names, openedAfter]
  | cons line ls ih =>
      rw [List.forall_mem_cons] at others
      have next := outside_of_run outside others.1 number
      rw [numberedFrom, environmentIssuesFrom, visible_of_outside outside, List.append_eq_nil_iff,
        ih next others.2, List.flatMap_cons, openedAfter_append,
        openedAfter_run outside others.1 number]
      split
      · next silent => simp [silent]
      · next heard => simp [heard]

/-- Under the rule of the check of environments, only this check reports. -/
theorem environmentIssues_eq_nil_iff (source : Text) :
    environmentIssues (numbered (lines source)) = [] ↔
      ∀ issue ∈ issues source, issue.finding.rule ≠ "environment-balance".toList := by
  constructor
  · intro silent issue member
    rw [mem_issues, silent] at member
    rcases member with marker | brace | environment | title | underscore
    · exact ne_of_mem_of_not_mem (rule_of_mem_markerIssues marker) (by decide)
    · rw [rule_of_mem_braceIssues brace]
      decide
    · cases environment
    · rw [rule_of_mem_titleIssues title]
      decide
    · rw [rule_of_mem_underscoreIssues underscore]
      decide
  · intro noIssue
    rw [List.eq_nil_iff_forall_not_mem]
    exact fun issue member => noIssue issue (mem_issues.mpr (.inr (.inr (.inl member))))
      (rule_of_mem_environmentIssues member)

/-- **The check of environments accepts exactly the well-nested sources**, if no environment
without LaTeX begins in the code of a line. -/
theorem accepts_iff_wellNested {source : Text}
    (others : ∀ line ∈ lines source, ∀ found ∈ environmentEnds (codeOf line),
      opensVerbatim found = false) :
    (∀ issue ∈ issues source, issue.finding.rule ≠ "environment-balance".toList) ↔
      WellNested ((lines source).flatMap fun line => environmentEnds (codeOf line)) := by
  rw [← environmentIssues_eq_nil_iff, wellNested_iff]
  exact environmentIssuesFrom_eq_nil_iff rfl others 1

/-- Environments in each other, with blanks around a name, and an end in a comment. -/
theorem accepts_iff_wellNested_comment :
    WellNested [.opens "frame".toList, .opens "itemize".toList, .closes "itemize".toList,
        .closes "frame".toList] ∧
      ∀ issue ∈ issues ("\\begin\x7bframe\x7d\\begin\x7b itemize \x7d\n" ++
          "\\end\x7bitemize\x7d % \\end\x7bitemize\x7d\n\\end\x7bframe\x7d").toList,
        issue.finding.rule ≠ "environment-balance".toList :=
  ⟨by decide, (accepts_iff_wellNested (by decide +kernel)).mpr (by decide +kernel)⟩

end Check

end SlideDeck.Lint
