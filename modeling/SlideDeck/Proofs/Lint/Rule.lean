import Mathlib.Data.List.Sort
import SlideDeck.Proofs.Lint.Fit

/-!
# The rules of the checks

Each check reports under a rule of its own, so its part of the findings about a source can be told
from the others by the rule (`mem_issues`, `rule_of_mem_environmentIssues` and so on). The findings
are put in the order of their lines, which keeps those of a rule as the check found them, if it
found them in this order (`filter_byLine`).
-/

set_option autoImplicit false

namespace SlideDeck.Lint

open SlideDeck SlideDeck.Text SlideDeck.Latex

/-! ## The order of findings -/

theorem insert_eq_orderedInsert (issue : Issue) (issues : List Issue) :
    issue.insert issues = issues.orderedInsert (fun a b => a.line ≤ b.line) issue := by
  induction issues with
  | nil => rfl
  | cons other issues ih => rw [Issue.insert, List.orderedInsert_cons, ih]

theorem byLine_eq_insertionSort (issues : List Issue) :
    byLine issues = issues.insertionSort fun a b => a.line ≤ b.line := by
  induction issues with
  | nil => rfl
  | cons issue issues ih =>
      rw [List.insertionSort_cons, ← ih, ← insert_eq_orderedInsert]
      rfl

/-- Findings of a kind that are in order stay as they are. -/
theorem filter_byLine {kind : Issue → Bool} {issues : List Issue}
    (ordered : (issues.filter kind).Pairwise fun a b => a.line ≤ b.line) :
    (byLine issues).filter kind = issues.filter kind := by
  rw [byLine_eq_insertionSort]
  have kept := (List.sublist_insertionSort ordered List.filter_sublist).filter kind
  rw [List.filter_filter] at kept
  simp only [Bool.and_self] at kept
  refine (kept.eq_of_length ?_).symm
  exact ((List.perm_insertionSort _ issues).filter kind).length_eq.symm

/-! ## The findings of each check -/

theorem mem_markerIssues {source : Text} {issue : Issue} :
    issue ∈ markerIssues source ↔
      ∃ marker : Marker, ¬ marker.text <:+: source ∧ issue = ⟨1, .missingMarker marker⟩ := by
  have all : ∀ marker : Marker, marker ∈ Marker.all := by
    intro marker
    cases marker <;> decide
  have absent : ∀ marker : Marker,
      (!includes marker.text source) = true ↔ ¬ marker.text <:+: source := by
    intro marker
    rw [← includes_iff, Bool.not_eq_true', Bool.not_eq_true]
  simp only [markerIssues, List.mem_map, List.mem_filter, all, absent, true_and,
    eq_comm (b := issue)]

theorem rule_of_mem_markerIssues {source : Text} {issue : Issue}
    (member : issue ∈ markerIssues source) : issue.finding.rule ∈ Marker.all.map Marker.rule := by
  obtain ⟨marker, -, rfl⟩ := mem_markerIssues.mp member
  cases marker <;> decide

theorem rule_of_mem_step {number : Nat} {nesting : Nesting} {found : EnvironmentEnd} {issue : Issue}
    (member : issue ∈ (nesting.step number found).1) :
    issue.finding.rule = "environment-balance".toList := by
  rw [Nesting.step] at member
  split at member
  · cases found with
    | opens name => cases member
    | closes name =>
        rw [Nesting.meet] at member
        split at member
        · rw [List.mem_singleton.mp member]
          rfl
        · simp only [List.mem_ite_nil_left, List.mem_singleton] at member
          rw [member.2]
          rfl
  · cases member

theorem rule_of_mem_run {number : Nat} {nesting : Nesting} {ends : List EnvironmentEnd}
    {issue : Issue}
    (member : issue ∈ (nesting.run number ends).1) :
    issue.finding.rule = "environment-balance".toList := by
  induction ends generalizing nesting with
  | nil => cases member
  | cons found ends ih =>
      rcases List.mem_append.mp member with here | later
      · exact rule_of_mem_step here
      · exact ih later

theorem rule_of_mem_environmentIssues {ls : List NumberedLine} {issue : Issue}
    (member : issue ∈ environmentIssues ls) :
    issue.finding.rule = "environment-balance".toList := by
  rw [environmentIssues] at member
  generalize ({} : Nesting) = nesting at member
  induction ls generalizing nesting with
  | nil =>
      obtain ⟨⟨name, line⟩, -, rfl⟩ := List.mem_map.mp member
      rfl
  | cons line ls ih =>
      rcases List.mem_append.mp member with here | later
      · exact rule_of_mem_run here
      · exact ih _ later

theorem rule_of_mem_titleIssues {mask : List Bool} {ls : List NumberedLine} {issue : Issue}
    (member : issue ∈ titleIssues mask ls) : issue.finding.rule = "frame-title".toList := by
  fun_induction titleIssues mask ls with
  | case1 inside mask number line rest next later lacks ih =>
      rcases List.mem_cons.mp member with rfl | later
      · rfl
      · exact ih later
  | case2 inside mask number line rest next later lacks ih => exact ih member
  | case3 => cases member

theorem rule_of_mem_underscoreIssues {mask : List Bool} {ls : List NumberedLine} {issue : Issue}
    (member : issue ∈ underscoreIssues mask ls) :
    issue.finding.rule = "unescaped-underscore".toList := by
  obtain ⟨line, -, rfl⟩ := List.mem_map.mp member
  rfl

/-- The findings about a source, check by check. -/
theorem mem_issues {source : Text} {issue : Issue} :
    issue ∈ issues source ↔
      issue ∈ markerIssues source ∨
        issue ∈ braceIssues (lastLine (lines source)) (numbered (lines source)) ∨
        issue ∈ environmentIssues (numbered (lines source)) ∨
        issue ∈ titleIssues (verbatimMask (lines source)) (numbered (lines source)) ∨
        issue ∈ underscoreIssues (verbatimMask (lines source)) (numbered (lines source)) := by
  simp only [issues, mem_byLine, List.mem_append, or_assoc]

end SlideDeck.Lint
