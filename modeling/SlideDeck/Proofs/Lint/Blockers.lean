import SlideDeck.Proofs.Lint.Fit

/-!
# A source without errors and the gate of a build

A check of a source counts all of its braces; the gate of a build passes over those of
environments without LaTeX. So the gate can stop a source in which the check finds no error.
It does so only because of braces, and exactly if those that it counts are not balanced
(`blockers_of_clean`).

Whether they are can be told from the other braces. All together are balanced when no error
is found, and leaving some out keeps them so if these are *settled* (`settledFrom`): wherever
a brace is kept, the ones left out before it have closed at least as many as they have
opened, and in the end just as many. Then no kept brace has its partner among them
(`depthAfter_keptBraces`).
-/

set_option autoImplicit false

namespace SlideDeck.Lint

open SlideDeck SlideDeck.Text SlideDeck.Latex

/-! ## Leaving braces out -/

/-- The braces that are kept. The mark is set at those that are left out. -/
def keptBraces (braces : List (Bool × Brace)) : List Brace :=
  (braces.filter fun brace => !brace.1).map Prod.snd

/-- Whether the marked braces are settled, when `surplus` more of them have been opened than
closed before. -/
def settledFrom : Int → List (Bool × Brace) → Bool
  | surplus, [] => surplus == 0
  | surplus, (true, .opening) :: rest => settledFrom (surplus + 1) rest
  | surplus, (true, .closing) :: rest => settledFrom (surplus - 1) rest
  | surplus, (false, _) :: rest => decide (surplus ≤ 0) && settledFrom surplus rest

/-- Braces stay as deep as they are when settled ones are left out. The depth among the kept
ones is that of all less the surplus of the others. -/
theorem depthAfter_keptBraces {depth kept last : Nat} {surplus : Int}
    {braces : List (Bool × Brace)} (leads : depthAfter depth (braces.map Prod.snd) = some last)
    (settled : settledFrom surplus braces = true) (difference : (kept : Int) = depth - surplus) :
    depthAfter kept (keptBraces braces) = some last := by
  induction braces generalizing depth kept surplus with
  | nil =>
      cases leads
      have even : surplus = 0 := by simpa [settledFrom] using settled
      have same : kept = last := by omega
      rw [same]
      rfl
  | cons brace braces ih =>
      obtain ⟨marked, brace⟩ := brace
      cases marked with
      | true =>
          -- the depth of all and the surplus move together
          cases brace with
          | opening => exact ih leads settled (by omega)
          | closing =>
              cases depth with
              | zero => cases leads
              | succ depth => exact ih leads settled (by omega)
      | false =>
          obtain ⟨low, later⟩ : surplus ≤ 0 ∧ settledFrom surplus braces = true := by
            simpa [settledFrom] using settled
          cases brace with
          | opening =>
              refine ih leads later ?_
              omega
          | closing =>
              cases depth with
              | zero => cases leads
              | succ depth =>
                  -- as the surplus is low, a brace is open among the kept ones, too
                  obtain ⟨outer, rfl⟩ : ∃ outer, kept = outer + 1 := ⟨kept - 1, by omega⟩
                  refine ih leads later ?_
                  omega

/-! ## The braces of marked lines -/

/-- The braces of lines, each with the mark of its line. -/
def markedBraces : List Bool → List NumberedLine → List (Bool × Brace)
  | inside :: mask, (_, line) :: rest =>
    (bracesOf (codeOf line)).map (fun brace => (inside, brace)) ++ markedBraces mask rest
  | _, _ => []

theorem bracesOfLines_cons (number : Nat) (line : Text) (ls : List NumberedLine) :
    (bracesOfLines ((number, line) :: ls)).map Prod.snd =
      bracesOf (codeOf line) ++ (bracesOfLines ls).map Prod.snd := by
  simp [bracesOfLines, Function.comp_def]

theorem map_snd_markedBraces {mask : List Bool} {ls : List NumberedLine}
    (same : mask.length = ls.length) :
    (markedBraces mask ls).map Prod.snd = (bracesOfLines ls).map Prod.snd := by
  induction mask generalizing ls with
  | nil =>
      rw [List.length_nil, eq_comm, List.length_eq_zero_iff] at same
      subst same
      rfl
  | cons inside mask ih =>
      obtain ⟨⟨number, line⟩, ls, rfl⟩ := List.exists_cons_of_length_eq_add_one same.symm
      rw [List.length_cons, List.length_cons, Nat.add_right_cancel_iff] at same
      rw [markedBraces, List.map_append, ih same, bracesOfLines_cons]
      simp [Function.comp_def]

/-- The gate counts the braces that are kept when those of marked lines are left out. -/
theorem keptBraces_markedBraces (mask : List Bool) (ls : List NumberedLine) :
    keptBraces (markedBraces mask ls) = countedBraces mask ls := by
  induction mask generalizing ls with
  | nil => rfl
  | cons inside mask ih =>
      cases ls with
      | nil => rfl
      | cons first ls =>
          obtain ⟨number, line⟩ := first
          have rest := ih ls
          rw [keptBraces] at rest
          cases inside with
          | false =>
              rw [countedBraces_cons, ← rest]
              simp [keptBraces, markedBraces, List.filter_map, Function.comp_def]
          | true =>
              have skipped : countedBraces (true :: mask) ((number, line) :: ls) =
                  countedBraces mask ls := rfl
              rw [skipped, ← rest]
              simp [keptBraces, markedBraces]

/-! ## The gate -/

section Clean

variable {source : Text}

/-- The checks that the gate makes, too, find no error in such a source. -/
theorem isError_eq_false (clean : ∀ issue ∈ issues source, issue.isError = false) {issue : Issue}
    (member : issue ∈ markerIssues source ++
      braceIssues (lastLine (lines source)) (numbered (lines source)) ++
      environmentIssues (numbered (lines source))) : issue.isError = false := by
  refine clean issue ?_
  rw [issues, mem_byLine]
  exact List.mem_append_left _ (List.mem_append_left _ member)

/-- The braces of a source without errors are balanced. -/
theorem balanced_of_clean (clean : ∀ issue ∈ issues source, issue.isError = false) :
    Balanced ((bracesOfLines (numbered (lines source))).map Prod.snd) := by
  refine (braceIssues_eq_nil_iff (lastLine (lines source))).mp ?_
  rw [List.eq_nil_iff_forall_not_mem]
  intro issue member
  have harmless := isError_eq_false clean (List.mem_append_left _ (List.mem_append_right _ member))
  rw [isError_of_mem_braceIssues member] at harmless
  cases harmless

/-- What stops the build of a source without errors are the braces that the gate counts. -/
theorem mem_blockers_of_clean (clean : ∀ issue ∈ issues source, issue.isError = false)
    {issue : Issue} :
    issue ∈ blockers source ↔
      issue ∈ braceIssues (lastLine (lines source))
        (unmasked (verbatimMask (lines source)) (numbered (lines source))) := by
  rw [blockers, mem_byLine, List.mem_filter, List.mem_append, List.mem_append]
  constructor
  · rintro ⟨(marker | brace) | environment, isError⟩
    · rw [isError_eq_false clean (List.mem_append_left _
        (List.mem_append_left _ marker))] at isError
      cases isError
    · exact brace
    · rw [isError_eq_false clean (List.mem_append_right _ environment)] at isError
      cases isError
  · intro brace
    exact ⟨.inl (.inr brace), isError_of_mem_braceIssues brace⟩

/-- A source in which the check finds no error is stopped by the gate because of braces only,
and just if those outside of environments without LaTeX are not balanced. It passes if the
braces inside of them are settled. -/
theorem blockers_of_clean (source : Text)
    (clean : ∀ issue ∈ issues source, issue.isError = false) :
    (∀ issue ∈ blockers source, issue.finding.rule = "brace-balance".toList) ∧
      (blockers source = [] ↔
        Balanced (countedBraces (verbatimMask (lines source)) (numbered (lines source)))) ∧
      (settledFrom 0 (markedBraces (verbatimMask (lines source)) (numbered (lines source))) = true →
        blockers source = []) := by
  have passes : blockers source = [] ↔
      Balanced (countedBraces (verbatimMask (lines source)) (numbered (lines source))) := by
    rw [countedBraces, ← braceIssues_eq_nil_iff (lastLine (lines source)),
      List.eq_nil_iff_forall_not_mem, List.eq_nil_iff_forall_not_mem]
    simp only [mem_blockers_of_clean clean]
  refine ⟨fun issue member => ?_, passes, fun settled => passes.mpr ?_⟩
  · exact rule_of_mem_braceIssues ((mem_blockers_of_clean clean).mp member)
  · have same : (verbatimMask (lines source)).length = (numbered (lines source)).length :=
      length_verbatimMask 1 (lines source)
    have all := balanced_of_clean clean
    rw [← map_snd_markedBraces same] at all
    rw [← keptBraces_markedBraces]
    exact depthAfter_keptBraces all settled rfl

/-- A listing whose braces are balanced lets a source pass. -/
theorem blockers_of_clean_settled :
    (∀ issue ∈ issues ("\\documentclass\n\\begin\x7bdocument\x7d\n\\begin\x7bverbatim\x7d\n" ++
        "\x7b \x7d\n\\end\x7bverbatim\x7d\n\\end\x7bdocument\x7d").toList, issue.isError = false) ∧
      blockers ("\\documentclass\n\\begin\x7bdocument\x7d\n\\begin\x7bverbatim\x7d\n" ++
        "\x7b \x7d\n\\end\x7bverbatim\x7d\n\\end\x7bdocument\x7d").toList = [] := by
  have clean : ∀ issue ∈ issues
      ("\\documentclass\n\\begin\x7bdocument\x7d\n\\begin\x7bverbatim\x7d\n" ++
        "\x7b \x7d\n\\end\x7bverbatim\x7d\n\\end\x7bdocument\x7d").toList,
          issue.isError = false := by
    decide +kernel
  exact ⟨clean, (blockers_of_clean _ clean).2.2 (by decide +kernel)⟩

/-- A closing brace in a listing hides from the check that a brace outside is left open. -/
theorem blockers_of_clean_openBrace :
    ¬ ∀ source, (∀ issue ∈ issues source, issue.isError = false) → blockers source = [] := by
  intro passes
  have stopped := passes
    ("\\documentclass\n\\begin\x7bdocument\x7d\n\x7b\n\\begin\x7bverbatim\x7d\n" ++
      "\x7d\n\\end\x7bverbatim\x7d\n\\end\x7bdocument\x7d").toList (by decide +kernel)
  revert stopped
  decide +kernel

end Clean

end SlideDeck.Lint
