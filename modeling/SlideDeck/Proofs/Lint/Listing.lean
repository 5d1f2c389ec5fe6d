import SlideDeck.Proofs.Lint.Tracker

/-!
# What stands in a listing

Two sources that differ only in the lines of a listing have the same blockers
(`blockers_listing`). Three checks look at a source. That of markers finds all of them outside
the listing. The lines of the listing are taken from those whose braces count, and as there
are equally many in both sources, what is left has the same numbers. And of the listing the
check of environments sees its two ends and nothing else.

Both readers of environments have to come to the listing while no environment without LaTeX is
open. Lines in front that name none see to that (`verbatimAfter_eq_none`,
`environmentIssues_unnamed`).
-/

set_option autoImplicit false

namespace SlideDeck.Lint

open SlideDeck SlideDeck.Text SlideDeck.Latex

/-! ## Lines that name no environment without LaTeX -/

/-- The name of no environment without LaTeX occurs in the line. -/
def Unnamed (line : Text) : Prop := ∀ name ∈ verbatimEnvironments, ¬ name <:+: line

instance (line : Text) : Decidable (Unnamed line) :=
  inferInstanceAs (Decidable (∀ name ∈ verbatimEnvironments, ¬ name <:+: line))

namespace Unnamed

variable {line : Text}

theorem of_isInfix {part : Text} (unnamed : Unnamed line) (isPart : part <:+: line) :
    Unnamed part := fun name member occurs => unnamed name member (occurs.trans isPart)

theorem codeOf (unnamed : Unnamed line) : Unnamed (codeOf line) :=
  unnamed.of_isInfix (codeFrom_isPrefix false line).isInfix

theorem begunVerbatim? (unnamed : Unnamed line) : begunVerbatim? line = none := by
  refine begunVerbatim?_eq_none fun name member occurs => unnamed name member ?_
  have isName : name <:+: beginEnvironment name := ⟨"\\begin\x7b".toList, ['\x7d'], by
    simp [beginEnvironment, command, group]⟩
  exact isName.trans occurs

/-- No environment without LaTeX begins in such a line, even if blanks stand around a name. -/
theorem opensVerbatim (unnamed : Unnamed line) {found : EnvironmentEnd}
    (occurs : found ∈ environmentEnds line) : opensVerbatim found = false := by
  obtain ⟨t, rest, part, answer⟩ := exists_of_mem_matchesOf occurs
  rcases environmentEnd?_eq_some answer with ⟨written, rfl, rfl⟩ | ⟨written, rfl, -⟩
  · rw [Lint.opensVerbatim, List.contains_eq_mem, decide_eq_false_iff_not]
    intro member
    refine unnamed _ member ((trim_isInfix written).trans (List.IsInfix.trans ?_ part.isInfix))
    exact ⟨"\\begin\x7b".toList, '\x7d' :: rest, by simp [beginEnvironment, command, group]⟩
  · rfl

end Unnamed

/-- Behind lines that name no environment without LaTeX, none is open. -/
theorem verbatimAfter_eq_none {ls : List Text} (unnamed : ∀ line ∈ ls, Unnamed line) :
    verbatimAfter none ls = none := by
  induction ls with
  | nil => rfl
  | cons line ls ih =>
      rw [List.forall_mem_cons] at unnamed
      have quiet : verbatimStep none line = (false, none) := by
        simp [verbatimStep, unnamed.1.codeOf.begunVerbatim?]
      rw [verbatimAfter, quiet]
      exact ih unnamed.2

/-- The check of environments goes the same way behind such lines if it does whatever
environments are open. -/
theorem environmentIssues_unnamed {ls : List Text} (unnamed : ∀ line ∈ ls, Unnamed line)
    {rest other : List NumberedLine}
    (same : ∀ opened, environmentIssuesFrom ⟨opened, none⟩ rest =
      environmentIssuesFrom ⟨opened, none⟩ other) (opened : List (Text × Nat)) (number : Nat) :
    environmentIssuesFrom ⟨opened, none⟩ (numberedFrom number ls ++ rest) =
      environmentIssuesFrom ⟨opened, none⟩ (numberedFrom number ls ++ other) := by
  induction ls generalizing opened number with
  | nil => exact same opened
  | cons line ls ih =>
      rw [List.forall_mem_cons] at unnamed
      have visible : Nesting.visible ⟨opened, none⟩ line = codeOf line := rfl
      have closed := run_verbatim ⟨opened, none⟩ number (environmentEnds (codeOf line))
      rw [foldl_openBehind_none fun found => unnamed.1.codeOf.opensVerbatim] at closed
      rw [numberedFrom, List.cons_append, List.cons_append, environmentIssuesFrom,
        environmentIssuesFrom, visible]
      obtain ⟨issues, ⟨later, verbatim⟩, seen⟩ : ∃ issues next,
          Nesting.run number ⟨opened, none⟩ (environmentEnds (codeOf line)) = (issues, next) :=
        ⟨_, _, rfl⟩
      rw [seen] at closed ⊢
      cases closed
      exact congrArg (issues ++ ·) (ih unnamed.2 later (number + 1))

/-! ## Sources around a listing -/

/-- The lines of an environment, its ends included. -/
def environment (name : Text) (code : List Text) : List Text :=
  beginEnvironment name :: (code ++ [endEnvironment name])

section Source

variable {name : Text} {front code other back behind : List Text}

theorem oneLine_beginEnvironment (isName : IsName name) : '\n' ∉ beginEnvironment name := by
  simp [beginEnvironment, command, group, isName.not_mem (c := '\n') (by decide)]

theorem oneLine_endEnvironment (isName : IsName name) : '\n' ∉ endEnvironment name := by
  simp [endEnvironment, command, group, isName.not_mem (c := '\n') (by decide)]

/-- A listing is read as it is, but for carriage returns at the ends of its lines. What stands
around it is read without it. -/
theorem exists_lines_listing (isName : IsName name) (oneLine : ∀ line ∈ front, '\n' ∉ line)
    (back : List Text) :
    ∃ behind, ∀ code : List Text, (∀ line ∈ code, '\n' ∉ line) →
      lines (unlines (front ++ (environment name code ++ back))) =
        front.map dropReturn ++ (environment name (code.map dropReturn) ++ behind) := by
  have keepsEnd : dropReturn (endEnvironment name) = endEnvironment name :=
    dropReturn_append_singleton ('\\' :: "end\x7b".toList ++ name) (by decide)
  have keepsBegin : dropReturn (beginEnvironment name) = beginEnvironment name :=
    dropReturn_append_singleton ('\\' :: "begin\x7b".toList ++ name) (by decide)
  obtain ⟨behind, last⟩ : ∃ behind,
      lines (unlines (endEnvironment name :: back)) = endEnvironment name :: behind := by
    have oneEnd : ∀ line ∈ [endEnvironment name], '\n' ∉ line := by
      simpa using oneLine_endEnvironment isName
    cases back with
    | nil =>
        have single : lines (unlines ([] ++ [endEnvironment name])) = [endEnvironment name] :=
          lines_unlines oneEnd (by simp [endEnvironment, command])
        exact ⟨[], single⟩
    | cons next back =>
        have later : next :: back ≠ [] := by simp
        have read := lines_unlines_append oneEnd later
        rw [List.map_singleton, keepsEnd] at read
        exact ⟨_, read⟩
  refine ⟨behind, fun code oneCode => ?_⟩
  have whole : front ++ (environment name code ++ back) =
      (front ++ beginEnvironment name :: code) ++ (endEnvironment name :: back) := by
    simp [environment]
  have each : ∀ line ∈ front ++ beginEnvironment name :: code, '\n' ∉ line := by
    rw [List.forall_mem_append, List.forall_mem_cons]
    exact ⟨oneLine, oneLine_beginEnvironment isName, oneCode⟩
  rw [whole, lines_unlines_append each (by simp), last]
  simp [environment, keepsBegin]

/-- The listing leaves no line whose braces count, and what is left behind it depends on its
length only. -/
theorem unmasked_listing (member : name ∈ verbatimEnvironments)
    (unnamed : ∀ line ∈ front, Unnamed line)
    (noEnd : ∀ line ∈ code, ¬ "\\end\x7b".toList <:+: line) :
    unmasked (verbatimMask (front ++ (environment name code ++ behind)))
        (numbered (front ++ (environment name code ++ behind))) =
      unmasked (verbatimMask front) (numbered front) ++
        unmasked (verbatimMask behind)
          (numberedFrom (1 + front.length + (code.length + 2)) behind) := by
  obtain ⟨closed, masked⟩ := verbatim_listing member (by decide : Tidy []) noEnd
  rw [List.append_nil] at closed masked
  have same : (verbatimMask front).length = (numberedFrom 1 front).length :=
    length_verbatimMask 1 front
  have inside : (List.replicate (code.length + 2) true).length =
      (numberedFrom (1 + front.length) (environment name code)).length := by
    simp [length_numberedFrom, environment]
  have size : (environment name code).length = code.length + 2 := by simp [environment]
  have mask : verbatimMask (front ++ (environment name code ++ behind)) =
      verbatimMask front ++ (List.replicate (code.length + 2) true ++ verbatimMask behind) := by
    rw [verbatimMask, verbatimMaskFrom_append, verbatimAfter_eq_none unnamed,
      verbatimMaskFrom_append, environment, closed]
    exact congrArg (fun inner => _ ++ (inner ++ _)) masked
  rw [mask, numbered, numberedFrom_append, numberedFrom_append, unmasked_append same,
    unmasked_append inside, unmasked_replicate, List.nil_append, size]
  rfl

/-- Of a listing the check of environments sees nothing but its ends. -/
theorem environmentIssues_listing (member : name ∈ verbatimEnvironments)
    (unnamed : ∀ line ∈ front, Unnamed line)
    (noEnd : ∀ line ∈ code, ¬ "\\end\x7b".toList <:+: line) :
    environmentIssues (numbered (front ++ (environment name code ++ behind))) =
      environmentIssuesFrom {} (numbered front ++
        numberedFrom (1 + front.length + (code.length + 2)) behind) := by
  have fit := Fit.listing member (by decide : Tidy []) noEnd
  have size : (environment name code).length = code.length + 2 := by simp [environment]
  rw [List.append_nil] at fit
  rw [environmentIssues, numbered, numberedFrom_append, numberedFrom_append, size]
  exact environmentIssues_unnamed unnamed (fun opened => fit.environments opened _ _) [] 1

/-- Whatever stands in the listing, its length decides what stops the build. -/
theorem exists_blockers_listing (member : name ∈ verbatimEnvironments)
    (oneLine : ∀ line ∈ front, '\n' ∉ line) (unnamed : ∀ line ∈ front, Unnamed line)
    (markers : ∀ marker : Marker, ∃ line ∈ front ++ back, marker.text <:+: line) :
    ∃ verdict : Nat → List Issue, ∀ code : List Text,
      (∀ line ∈ code, '\n' ∉ line ∧ ¬ "\\end\x7b".toList <:+: line) →
        blockers (unlines (front ++ (environment name code ++ back))) = verdict code.length := by
  have isName : IsName name := (by decide : ∀ name ∈ verbatimEnvironments, IsName name) name member
  obtain ⟨behind, read⟩ := exists_lines_listing isName oneLine back
  -- a line without its carriage return contains no more than with it
  have unnamedRead : ∀ line ∈ front.map dropReturn, Unnamed line := by
    rw [List.forall_mem_map]
    exact fun line inFront => (unnamed line inFront).of_isInfix (dropReturn_isPrefix line).isInfix
  refine ⟨fun count =>
    byLine <|
      (braceIssues (front.length + (count + 2 + behind.length))
          (unmasked (verbatimMask (front.map dropReturn)) (numbered (front.map dropReturn)) ++
            unmasked (verbatimMask behind)
              (numberedFrom (1 + front.length + (count + 2)) behind)) ++
        environmentIssuesFrom {} (numbered (front.map dropReturn) ++
          numberedFrom (1 + front.length + (count + 2)) behind)).filter Issue.isError,
    fun code safe => ?_⟩
  have noEnd : ∀ line ∈ code.map dropReturn, ¬ "\\end\x7b".toList <:+: line := by
    rw [List.forall_mem_map]
    exact fun line inCode occurs =>
      (safe line inCode).2 (occurs.trans (dropReturn_isPrefix line).isInfix)
  have found : markerIssues (unlines (front ++ (environment name code ++ back))) = [] := by
    refine markerIssues_eq_nil fun marker => ?_
    obtain ⟨line, inSource, occurs⟩ := markers marker
    have inside : line ∈ front ++ (environment name code ++ back) := by
      rw [List.mem_append] at inSource
      simp only [List.mem_append]
      exact inSource.imp_right Or.inr
    exact isInfix_unlines inside occurs
  have last :
      lastLine (front.map dropReturn ++ (environment name (code.map dropReturn) ++ behind)) =
      front.length + (code.length + 2 + behind.length) := by
    simp [lastLine, environment]
    omega
  rw [blockers, found, read code fun line inCode => (safe line inCode).1, last,
    unmasked_listing member unnamedRead noEnd, environmentIssues_listing member unnamedRead noEnd,
    List.length_map, List.length_map, List.nil_append]

/-- **What stands in a listing cannot stop a build.** Two sources that differ only between the
ends of an environment without LaTeX, in lines none of which could end it, have the same
blockers if there are equally many of these lines, no line in front names such an environment
and the markers stand elsewhere. -/
theorem blockers_listing (member : name ∈ verbatimEnvironments)
    (oneLine : ∀ line ∈ front ++ (code ++ other), '\n' ∉ line)
    (unnamed : ∀ line ∈ front, Unnamed line)
    (markers : ∀ marker : Marker, ∃ line ∈ front ++ back, marker.text <:+: line)
    (noEnd : ∀ line ∈ code ++ other, ¬ "\\end\x7b".toList <:+: line)
    (same : code.length = other.length) :
    blockers (unlines (front ++ (environment name code ++ back))) =
      blockers (unlines (front ++ (environment name other ++ back))) := by
  simp only [List.forall_mem_append] at oneLine noEnd
  obtain ⟨verdict, decides⟩ := exists_blockers_listing member oneLine.1 unnamed markers
  rw [decides code fun line inCode => ⟨oneLine.2.1 line inCode, noEnd.1 line inCode⟩,
    decides other fun line inCode => ⟨oneLine.2.2 line inCode, noEnd.2 line inCode⟩, same]

/-- A stray brace makes no difference, nor does a beginning in a comment. -/
theorem blockers_listing_strayBrace :
    blockers (unlines (["\\documentclass".toList, "\\begin\x7bdocument\x7d".toList] ++
        (environment "lstlisting".toList ["\x7d".toList] ++ ["\\end\x7bdocument\x7d".toList]))) =
      blockers (unlines (["\\documentclass".toList, "\\begin\x7bdocument\x7d".toList] ++
        (environment "lstlisting".toList ["% \\begin\x7bverbatim\x7d \x7b".toList] ++
          ["\\end\x7bdocument\x7d".toList]))) :=
  blockers_listing (by decide) (by decide) (by decide)
    (fun marker => by cases marker <;> decide) (by decide) rfl

end Source

end SlideDeck.Lint
