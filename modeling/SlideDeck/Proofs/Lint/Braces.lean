import SlideDeck.Proofs.Latex.Escaping
import SlideDeck.Proofs.Latex.Matching
import SlideDeck.Proofs.Lint.Rule

/-!
# The check of braces

The check counts: it reports a closing brace where it would fall below zero and goes on from zero,
and in the end it reports how many braces are open. What it reports is what matching the braces
with each other finds. A closing brace is reported just if it is lone (`strayBracesFrom_eq`), since
the braces open at some point are those in front that have no partner up to there
(`exists_open`); and as many are open in the end as opening braces are lone (`openBracesFrom_eq`),
since one more brace that is open before stays open behind just if nothing stray would have closed
it (`openBracesFrom_succ`).

The reports are stated for the significant braces of the whole source and for those of the lines
that the mask leaves (`reports_braces`).
-/

set_option autoImplicit false

namespace SlideDeck.Lint

open SlideDeck SlideDeck.Text SlideDeck.Latex

/-! ## Counting -/

section Counting

variable {braces front back : List (Nat × Brace)} {depth : Nat}

theorem openBracesFrom_append (depth : Nat) (front back : List (Nat × Brace)) :
    openBracesFrom depth (front ++ back) = openBracesFrom (openBracesFrom depth front) back := by
  fun_induction openBracesFrom depth front <;> simp_all [openBracesFrom]

/-- Braces that pair up close nothing that is open before. -/
theorem openBracesFrom_of_paired (paired : Paired (braces.map Prod.snd)) (depth : Nat) :
    openBracesFrom depth braces = depth :=
  (depthAfter_eq_some_iff.mp (paired.balanced.depthAfter depth)).2

/-- The innermost of the open braces, with braces that pair up behind it. -/
theorem exists_open (isOpen : openBracesFrom 0 braces = depth + 1) :
    ∃ front line inner, braces = front ++ (line, .opening) :: inner ∧
      Paired (inner.map Prod.snd) ∧ openBracesFrom 0 front = depth := by
  induction size : braces.length using Nat.strong_induction_on generalizing braces depth with
  | _ n ih =>
      rcases List.eq_nil_or_concat braces with rfl | ⟨init, ⟨line, brace⟩, rfl⟩
      · cases isOpen
      · rw [List.concat_eq_append] at isOpen size ⊢
        rw [List.length_append, List.length_singleton] at size
        rw [openBracesFrom_append] at isOpen
        cases brace with
        | opening => exact ⟨init, line, [], rfl, .nil, Nat.succ.inj isOpen⟩
        | closing =>
            -- this one closes the innermost brace, so the one around it is asked for
            have more : openBracesFrom 0 init = depth + 1 + 1 := by
              have less : openBracesFrom 0 init - 1 = depth + 1 := isOpen
              omega
            obtain ⟨around, closed, inner, rfl, inside, rest⟩ := ih _ (by omega) more rfl
            rw [List.length_append, List.length_cons] at size
            obtain ⟨front, outer, beside, rfl, paired, last⟩ := ih _ (by omega) rest rfl
            refine ⟨front, outer, beside ++ (closed, .opening) :: (inner ++ [(line, .closing)]),
              by simp, ?_, last⟩
            rw [List.map_append, List.map_cons, List.map_append]
            exact paired.append (.pair inside .nil)

/-- Whether a brace is open tells whether a closing one would be lone. -/
theorem openBracesFrom_eq_zero_iff :
    openBracesFrom 0 braces = 0 ↔
      ¬ ∃ before inner, braces.map Prod.snd = before ++ .opening :: inner ∧ Paired inner := by
  constructor
  · rintro closed ⟨before, inner, parts, paired⟩
    obtain ⟨front, behind, rfl, rfl, later⟩ := List.map_eq_append_iff.mp parts
    obtain ⟨⟨line, brace⟩, inside, rfl, opening, rfl⟩ := List.map_eq_cons_iff.mp later
    obtain rfl : brace = .opening := opening
    rw [openBracesFrom_append, openBracesFrom, openBracesFrom_of_paired paired] at closed
    cases closed
  · intro unpaired
    cases isOpen : openBracesFrom 0 braces with
    | zero => rfl
    | succ depth =>
        obtain ⟨front, line, inner, rfl, paired, -⟩ := exists_open isOpen
        exact absurd ⟨front.map Prod.snd, inner.map Prod.snd, by simp, paired⟩ unpaired

/-- One more brace that is open before is open behind just if no closing brace is stray. -/
theorem openBracesFrom_succ (depth : Nat) (braces : List (Nat × Brace)) :
    openBracesFrom (depth + 1) braces =
      openBracesFrom depth braces + if strayBracesFrom depth braces = [] then 1 else 0 := by
  fun_induction strayBracesFrom depth braces with
  | case1 depth => rfl
  | case2 depth line rest ih => exact ih
  | case3 line rest ih => rfl
  | case4 depth line rest ih => exact ih

theorem strayBracesFrom_eq_nil_iff :
    strayBracesFrom depth braces = [] ↔ depthAfter depth (braces.map Prod.snd) ≠ none := by
  rw [Option.ne_none_iff_exists']
  simp only [depthAfter_eq_some_iff, exists_and_left, exists_eq', and_true]

end Counting

/-! ## Lone braces -/

/-- The line of a brace that is of the kind and has no partner. -/
def loneLine? (kind : Brace) (braces : List (Nat × Brace)) : (Nat × Brace) × Nat → Option Nat
  | ((line, brace), position) =>
    if brace = kind ∧ Lone (braces.map Prod.snd) position then some line else none

/-- The lines of the lone braces of a kind, in order. -/
def loneLines (kind : Brace) (braces : List (Nat × Brace)) : List Nat :=
  braces.zipIdx.filterMap (loneLine? kind braces)

section Lone

variable {braces front rest : List (Nat × Brace)}

/-- The closing braces of a part that are reported are the lone ones. The part stands behind
`front`. -/
theorem strayBracesFrom_eq (whole : braces = front ++ rest) :
    strayBracesFrom (openBracesFrom 0 front) rest =
      (rest.zipIdx front.length).filterMap (loneLine? .closing braces) := by
  induction rest generalizing front with
  | nil => rfl
  | cons brace rest ih =>
      obtain ⟨line, brace⟩ := brace
      have parts : braces = front ++ [(line, brace)] ++ rest := by
        rw [whole, List.append_assoc]
        rfl
      have later := ih parts
      rw [openBracesFrom_append, List.length_append, List.length_singleton] at later
      rw [List.zipIdx_cons, List.filterMap_cons, ← later]
      cases brace with
      | opening => rfl
      | closing =>
          have kinds :
              braces.map Prod.snd = front.map Prod.snd ++ .closing :: rest.map Prod.snd := by
            rw [whole, List.map_append, List.map_cons]
          have lone : Lone (braces.map Prod.snd) front.length ↔ openBracesFrom 0 front = 0 := by
            rw [kinds, ← List.length_map Prod.snd, lone_closing_iff, openBracesFrom_eq_zero_iff]
          simp only [loneLine?, true_and, lone]
          cases openBracesFrom 0 front with
          | zero => rfl
          | succ depth => rfl

/-- As many braces are open behind a part as opening ones of it are lone. -/
theorem openBracesFrom_eq (whole : braces = front ++ rest) :
    openBracesFrom 0 rest =
      ((rest.zipIdx front.length).filterMap (loneLine? .opening braces)).length := by
  induction rest generalizing front with
  | nil => rfl
  | cons brace rest ih =>
      obtain ⟨line, brace⟩ := brace
      have parts : braces = front ++ [(line, brace)] ++ rest := by
        rw [whole, List.append_assoc]
        rfl
      have later := ih parts
      rw [List.length_append, List.length_singleton] at later
      rw [List.zipIdx_cons, List.filterMap_cons]
      cases brace with
      | closing => exact later
      | opening =>
          have kinds :
              braces.map Prod.snd = front.map Prod.snd ++ .opening :: rest.map Prod.snd := by
            rw [whole, List.map_append, List.map_cons]
          have lone : Lone (braces.map Prod.snd) front.length ↔ strayBracesFrom 0 rest = [] := by
            rw [kinds, ← List.length_map Prod.snd, lone_opening_iff,
              strayBracesFrom_eq_nil_iff, ne_eq, depthAfter_eq_none_iff]
          rw [openBracesFrom, openBracesFrom_succ, later]
          simp only [loneLine?, true_and, lone]
          split <;> rfl

theorem strayBracesFrom_eq_loneLines (braces : List (Nat × Brace)) :
    strayBracesFrom 0 braces = loneLines .closing braces :=
  strayBracesFrom_eq (List.nil_append braces).symm

theorem openBracesFrom_eq_length_loneLines (braces : List (Nat × Brace)) :
    openBracesFrom 0 braces = (loneLines .opening braces).length :=
  openBracesFrom_eq (List.nil_append braces).symm

end Lone

/-! ## The order of the reports -/

section Order

variable {ls : List NumberedLine} {last number : Nat}

theorem unmasked_sublist (mask : List Bool) (ls : List NumberedLine) :
    (unmasked mask ls).Sublist ls := by
  fun_induction unmasked mask ls with
  | case1 mask line rest ih => exact ih.cons _
  | case2 inside mask line rest outside ih => exact ih.cons_cons _
  | case3 => exact List.nil_sublist _

theorem map_fst_numberedFrom (number : Nat) (ls : List Text) :
    (numberedFrom number ls).map Prod.fst = List.range' number ls.length := by
  induction ls generalizing number with
  | nil => rfl
  | cons line ls ih => rw [numberedFrom, List.map_cons, ih, List.length_cons, List.range'_succ]

theorem pairwise_numbered (ls : List Text) : ((numbered ls).map Prod.fst).Pairwise (· ≤ ·) := by
  rw [numbered, map_fst_numberedFrom]
  exact List.pairwise_le_range' 1

theorem le_of_mem_numbered {ls : List Text} {line : NumberedLine} (member : line ∈ numbered ls) :
    line.1 ≤ ls.length := by
  have inside : line.1 ∈ (numbered ls).map Prod.fst := List.mem_map_of_mem member
  rw [numbered, map_fst_numberedFrom, List.mem_range'_1] at inside
  omega

theorem strayBracesFrom_sublist (depth : Nat) (braces : List (Nat × Brace)) :
    (strayBracesFrom depth braces).Sublist (braces.map Prod.fst) := by
  fun_induction strayBracesFrom depth braces with
  | case1 => exact List.nil_sublist _
  | case2 depth line rest ih => exact ih.cons _
  | case3 line rest ih => exact ih.cons_cons _
  | case4 depth line rest ih => exact ih.cons _

/-- The braces of ordered lines are in order. -/
theorem pairwise_bracesOfLines (ordered : (ls.map Prod.fst).Pairwise (· ≤ ·)) :
    ((bracesOfLines ls).map Prod.fst).Pairwise (· ≤ ·) := by
  rw [List.pairwise_map] at ordered ⊢
  rw [bracesOfLines, List.pairwise_flatMap]
  refine ⟨fun line _ => ?_, ordered.imp fun before first inFirst second inSecond => ?_⟩
  · rw [List.pairwise_map]
    exact List.pairwise_of_forall fun _ _ => le_rfl
  · obtain ⟨-, -, rfl⟩ := List.mem_map.mp inFirst
    obtain ⟨-, -, rfl⟩ := List.mem_map.mp inSecond
    exact before

theorem le_of_mem_bracesOfLines (bound : ∀ line ∈ ls, line.1 ≤ last) {line : Nat}
    (member : line ∈ (bracesOfLines ls).map Prod.fst) : line ≤ last := by
  simp only [bracesOfLines, List.mem_map, List.mem_flatMap] at member
  obtain ⟨-, ⟨found, inside, -, -, rfl⟩, rfl⟩ := member
  exact bound found inside

/-- The reports about the braces of ordered lines are in order. -/
theorem pairwise_braceIssues (ordered : (ls.map Prod.fst).Pairwise (· ≤ ·))
    (bound : ∀ line ∈ ls, line.1 ≤ last) :
    (braceIssues last ls).Pairwise fun a b => a.line ≤ b.line := by
  have strays := strayBracesFrom_sublist 0 (bracesOfLines ls)
  rw [braceIssues, List.pairwise_append]
  refine ⟨?_, ?_, fun stray inStrays left inLeft => ?_⟩
  · rw [List.pairwise_map]
    exact (pairwise_bracesOfLines ordered).sublist strays
  · split
    · exact .nil
    · exact List.pairwise_singleton _ _
  · obtain ⟨line, member, rfl⟩ := List.mem_map.mp inStrays
    split at inLeft
    · cases inLeft
    · rw [List.mem_singleton.mp inLeft]
      exact le_of_mem_bracesOfLines bound (strays.subset member)

end Order

/-! ## The reports -/

/-- What a reader is told under a rule: the line, the severity and the wording of each issue. -/
def reports (rule : Text) (issues : List Issue) : List (Nat × Severity × Text) :=
  (issues.filter fun issue => issue.finding.rule = rule).map fun issue =>
    (issue.line, issue.finding.severity, issue.finding.message)

/-- The significant braces of lines, with the numbers of their lines. -/
def significantOfLines (ls : List NumberedLine) : List (Nat × Brace) :=
  ls.flatMap fun (number, line) => (significantBraces line).map fun brace => (number, brace)

/-- What matching finds: one error for each lone closing brace, and one at the last line for all
lone opening braces if there are any. -/
def loneReports (last : Nat) (braces : List (Nat × Brace)) : List (Nat × Severity × Text) :=
  let left := (loneLines .opening braces).length
  (loneLines .closing braces).map (fun line => (line, .error, "Unmatched closing brace".toList)) ++
    if left = 0 then []
    else [(last, .error, Text.ofNat left ++ " unclosed brace(s)".toList)]

theorem bracesOfLines_eq (ls : List NumberedLine) : bracesOfLines ls = significantOfLines ls := by
  simp only [bracesOfLines, significantOfLines, bracesOf_codeOf]

theorem filter_braceIssues (last : Nat) (ls : List NumberedLine) :
    ((braceIssues last ls).filter fun issue => issue.finding.rule = "brace-balance".toList) =
      braceIssues last ls := by
  rw [List.filter_eq_self]
  exact fun issue member => decide_eq_true (rule_of_mem_braceIssues member)

/-- The check reports what matching finds. -/
theorem reports_braceIssues (last : Nat) (ls : List NumberedLine) :
    reports "brace-balance".toList (braceIssues last ls) =
      loneReports last (significantOfLines ls) := by
  rw [reports, filter_braceIssues, braceIssues, loneReports, bracesOfLines_eq,
    strayBracesFrom_eq_loneLines, openBracesFrom_eq_length_loneLines, List.map_append, List.map_map]
  refine congrArg₂ _ rfl ?_
  split <;> rfl

section Source

variable {rule : Text} {found : List Issue}

theorem reports_append (rule : Text) (first second : List Issue) :
    reports rule (first ++ second) = reports rule first ++ reports rule second := by
  rw [reports, List.filter_append, List.map_append]
  rfl

/-- Other rules do not matter. -/
theorem reports_eq_nil (others : ∀ issue ∈ found, issue.finding.rule ≠ rule) :
    reports rule found = [] := by
  rw [reports, List.map_eq_nil_iff, List.filter_eq_nil_iff]
  exact fun issue member => by simpa using others issue member

/-- Ordering by line keeps reports that are in order. -/
theorem reports_byLine
    (ordered : (found.filter fun issue => issue.finding.rule = rule).Pairwise
      fun a b => a.line ≤ b.line) :
    reports rule (byLine found) = reports rule found := by
  rw [reports, filter_byLine ordered]
  rfl

/-- Findings of other checks around those about braces change nothing in the reports. -/
theorem reports_parts (before after : List Issue) {last : Nat} {ls : List NumberedLine}
    (ordered : (ls.map Prod.fst).Pairwise (· ≤ ·)) (bound : ∀ line ∈ ls, line.1 ≤ last)
    (others : ∀ issue ∈ before ++ after, issue.finding.rule ≠ "brace-balance".toList) :
    reports "brace-balance".toList (byLine (before ++ braceIssues last ls ++ after)) =
      loneReports last (significantOfLines ls) := by
  rw [List.forall_mem_append] at others
  have front := reports_eq_nil others.1
  have back := reports_eq_nil others.2
  rw [reports_byLine, reports_append, reports_append, front, back, List.nil_append, List.append_nil,
    reports_braceIssues]
  rw [reports, List.map_eq_nil_iff] at front back
  rw [List.filter_append, List.filter_append, front, back, filter_braceIssues, List.nil_append,
    List.append_nil]
  exact pairwise_braceIssues ordered bound

/-- A source without lines has no braces, so it does not matter which line is its last. -/
theorem loneReports_lastLine {ls : List Text} {kept : List NumberedLine}
    (part : kept.Sublist (numbered ls)) :
    loneReports (lastLine ls) (significantOfLines kept) =
      loneReports ls.length (significantOfLines kept) := by
  cases ls with
  | nil =>
      rw [List.sublist_nil.mp part]
      rfl
  | cons line ls => rw [lastLine, List.length_cons, Nat.max_eq_left (Nat.le_add_left 1 _)]

theorem rule_ne_of_mem_markerIssues {source : Text} :
    ∀ issue ∈ markerIssues source, issue.finding.rule ≠ "brace-balance".toList :=
  fun _ member => ne_of_mem_of_not_mem (rule_of_mem_markerIssues member) (by decide)

theorem rule_ne_of_mem_environmentIssues {ls : List NumberedLine} :
    ∀ issue ∈ environmentIssues ls, issue.finding.rule ≠ "brace-balance".toList := by
  intro issue member
  rw [rule_of_mem_environmentIssues member]
  decide

theorem le_lastLine_of_mem_numbered {ls : List Text} :
    ∀ line ∈ numbered ls, line.1 ≤ lastLine ls :=
  fun _ member => Nat.le_trans (le_of_mem_numbered member) (Nat.le_max_left _ _)

/-- The reports of the linter about braces. -/
theorem reports_issues (source : Text) :
    reports "brace-balance".toList (issues source) =
      loneReports (lines source).length (significantOfLines (numbered (lines source))) := by
  have others : ∀ issue ∈ markerIssues source ++ (environmentIssues (numbered (lines source)) ++
      (titleIssues (verbatimMask (lines source)) (numbered (lines source)) ++
        underscoreIssues (verbatimMask (lines source)) (numbered (lines source)))),
      issue.finding.rule ≠ "brace-balance".toList := by
    intro issue member
    simp only [List.mem_append] at member
    rcases member with marker | environment | title | underscore
    · exact rule_ne_of_mem_markerIssues issue marker
    · exact rule_ne_of_mem_environmentIssues issue environment
    · rw [rule_of_mem_titleIssues title]
      decide
    · rw [rule_of_mem_underscoreIssues underscore]
      decide
  rw [← loneReports_lastLine (.refl _),
    ← reports_parts _ _ (pairwise_numbered _) le_lastLine_of_mem_numbered others]
  simp only [issues, List.append_assoc]

/-- The reports of the gate about braces. -/
theorem reports_blockers (source : Text) :
    reports "brace-balance".toList (blockers source) =
      loneReports (lines source).length
        (significantOfLines
          (unmasked (verbatimMask (lines source)) (numbered (lines source)))) := by
  have part := unmasked_sublist (verbatimMask (lines source)) (numbered (lines source))
  have ordered := (pairwise_numbered (lines source)).sublist (part.map _)
  have bound := fun line member => le_lastLine_of_mem_numbered line (part.subset member)
  have others : ∀ issue ∈ (markerIssues source).filter Issue.isError ++
      (environmentIssues (numbered (lines source))).filter Issue.isError,
      issue.finding.rule ≠ "brace-balance".toList := by
    intro issue member
    rcases List.mem_append.mp member with marker | environment
    · exact rule_ne_of_mem_markerIssues issue (List.mem_of_mem_filter marker)
    · exact rule_ne_of_mem_environmentIssues issue (List.mem_of_mem_filter environment)
  have errors : ∀ last ls, (braceIssues last ls).filter Issue.isError = braceIssues last ls :=
    fun _ _ => List.filter_eq_self.mpr fun _ => isError_of_mem_braceIssues
  rw [← loneReports_lastLine part, ← reports_parts _ _ ordered bound others]
  simp only [blockers, List.filter_append, errors]

/-- **The check of braces matches brackets.** Under its rule it reports each significant closing
brace without partner, at its line and in order, and the number of the significant opening braces
without partner, at the last line if there are any. The gate of a build reports the same about the
lines that the mask leaves. -/
theorem reports_braces (source : Text) :
    reports "brace-balance".toList (issues source) =
        loneReports (lines source).length (significantOfLines (numbered (lines source))) ∧
      reports "brace-balance".toList (blockers source) =
        loneReports (lines source).length (significantOfLines
          (unmasked (verbatimMask (lines source)) (numbered (lines source)))) :=
  ⟨reports_issues source, reports_blockers source⟩

/-- Braces of several lines, one of them escaped and one in a comment. -/
example :
    let source := "\x7d\x7b\n\x7d\x7d\x7b\\\x7b\n\x7b\\\\%\x7d % \x7b".toList
    reports "brace-balance".toList (issues source) =
      [(1, .error, "Unmatched closing brace".toList), (2, .error, "Unmatched closing brace".toList),
        (3, .error, "2 unclosed brace(s)".toList)] := by
  decide +kernel

end Source

end SlideDeck.Lint
