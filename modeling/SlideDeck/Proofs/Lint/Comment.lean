import SlideDeck.Proofs.Latex.Escaping
import SlideDeck.Proofs.Lint.Rule
import SlideDeck.Proofs.Lint.Tracker

/-!
# Comments

What a comment says is no concern of the checks that go line by line. Each of them reads the code
of a line. Only the check of titles looks at a whole line, the one behind a frame, and it looks for
commands at the front, which hold no percent sign (`titlesFrame_append_comment`). Lines that differ
in comments are therefore *alike* for these checks (`SameCode.alike`), and alike lines have the same
issues. Environments without LaTeX are left out, since what looks like a comment in them is none.

The check of markers searches the whole source instead, so a marker in a comment counts. Sources
that differ in comments have the same issues just if the same markers occur in them
(`issues_eq_iff_of_sameCode`), and a comment can take the place of a declaration
(`issues_ne_of_marker_in_comment`).
-/

set_option autoImplicit false

namespace SlideDeck.Lint

open SlideDeck SlideDeck.Text SlideDeck.Latex

/-! ## Lines that differ in comments -/

/-- Lines that differ at most in what stands behind a percent sign that begins a comment. -/
inductive SameCode : Text → Text → Prop where
  | refl (line : Text) : SameCode line line
  | comment {code : Text} (starts : Even (slashesAtEnd code)) (first second : Text) :
      SameCode (code ++ '%' :: first) (code ++ '%' :: second)

/-- A line on which no environment without LaTeX begins, neither for the mask nor for the check of
environments. -/
structure Ordinary (line : Text) : Prop where
  unmarked : begunVerbatim? (codeOf line) = none
  ends : ∀ found ∈ environmentEnds (codeOf line), opensVerbatim found = false

instance (line : Text) : Decidable (Ordinary line) :=
  decidable_of_iff
    (begunVerbatim? (codeOf line) = none ∧
      ∀ found ∈ environmentEnds (codeOf line), opensVerbatim found = false)
    ⟨fun both => ⟨both.1, both.2⟩, fun ordinary => ⟨ordinary.1, ordinary.2⟩⟩

/-- Lines in which the checks that go line by line read the same. -/
structure Alike (first second : Text) : Prop where
  code : codeOf first = codeOf second
  titles : titlesFrame first = titlesFrame second

/-- A comment gives no frame a title. -/
theorem titlesFrame_append_comment (code comment : Text) :
    titlesFrame (code ++ '%' :: comment) = titlesFrame code := by
  have trimmed : trimStart (code ++ '%' :: comment) = trimStart code ++ '%' :: comment := by
    by_cases blank : trimStart code = []
    · rw [trimStart_append_of_eq_nil blank, blank]
      rfl
    · exact trimStart_append blank _
  have plain : ∀ literal ∈ ["\\frametitle".toList, "\\titlepage".toList, "\\maketitle".toList],
      '%' ∉ literal := by decide
  rw [titlesFrame, titlesFrame, trimmed, Bool.eq_iff_iff]
  simp only [startsWithAny, List.any_eq_true, startsWith_iff]
  refine exists_congr fun literal => and_congr_right fun member => ⟨fun begins => ?_, fun begins =>
    begins.trans (List.prefix_append _ _)⟩
  exact isPrefix_of_isPrefix_append_cons (plain literal member) begins

theorem SameCode.alike {first second : Text} (same : SameCode first second) :
    Alike first second := by
  cases same with
  | refl => exact ⟨rfl, rfl⟩
  | comment starts first second =>
      refine ⟨codeOf_append_comment starts first second, ?_⟩
      rw [titlesFrame_append_comment, titlesFrame_append_comment]

/-! ## The checks that go line by line -/

section Alike

variable {first second : List Text}

theorem verbatimMask_eq_of_alike (alike : List.Forall₂ Alike first second)
    (ordinary : ∀ line ∈ first, Ordinary line) : verbatimMask first = verbatimMask second := by
  unfold verbatimMask
  induction alike with
  | nil => rfl
  | cons same _ ih =>
      rw [List.forall_mem_cons] at ordinary
      have begun := ordinary.1.unmarked
      simp only [verbatimMaskFrom, verbatimStep, ← same.code, begun, ih ordinary.2]

theorem braceIssues_eq_of_alike (alike : List.Forall₂ Alike first second) (last number : Nat) :
    braceIssues last (numberedFrom number first) =
      braceIssues last (numberedFrom number second) := by
  have braces : bracesOfLines (numberedFrom number first) =
      bracesOfLines (numberedFrom number second) := by
    unfold bracesOfLines
    induction alike generalizing number with
    | nil => rfl
    | cons same _ ih => simp only [numberedFrom, List.flatMap_cons, same.code, ih]
  rw [braceIssues, braceIssues, braces]

theorem environmentIssuesFrom_eq_of_alike {nesting : Nesting} (outside : nesting.verbatim = none)
    (alike : List.Forall₂ Alike first second) (ordinary : ∀ line ∈ first, Ordinary line)
    (number : Nat) :
    environmentIssuesFrom nesting (numberedFrom number first) =
      environmentIssuesFrom nesting (numberedFrom number second) := by
  induction alike generalizing nesting number with
  | nil => rfl
  | cons same _ ih =>
      rw [List.forall_mem_cons] at ordinary
      have next := outside_of_run outside ordinary.1.ends number
      simp only [numberedFrom, environmentIssuesFrom, visible_of_outside outside, ← same.code,
        ih next ordinary.2]

theorem lacksTitle_eq_of_alike {line other next behind : Text} (same : Alike line other)
    (later : Alike next behind) : lacksTitle line next = lacksTitle other behind := by
  rw [lacksTitle, lacksTitle, same.code, later.titles]

theorem titleIssues_eq_of_alike (alike : List.Forall₂ Alike first second) (mask : List Bool)
    (number : Nat) :
    titleIssues mask (numberedFrom number first) =
      titleIssues mask (numberedFrom number second) := by
  induction alike generalizing mask number with
  | nil => rfl
  | cons same alike ih =>
      cases mask with
      | nil => rfl
      | cons inside mask =>
          simp only [numberedFrom, titleIssues]
          cases alike with
          | nil => rw [numberedFrom, lacksTitle_eq_of_alike same ⟨rfl, rfl⟩]
          | cons later _ =>
              have next := ih mask (number + 1)
              rw [numberedFrom, numberedFrom] at next ⊢
              rw [next, lacksTitle_eq_of_alike same later]

theorem underscoreIssues_eq_of_alike (alike : List.Forall₂ Alike first second) (mask : List Bool)
    (number : Nat) :
    underscoreIssues mask (numberedFrom number first) =
      underscoreIssues mask (numberedFrom number second) := by
  unfold underscoreIssues
  induction alike generalizing mask number with
  | nil => rfl
  | @cons line other _ _ same _ ih =>
      have plain : plainText line = plainText other := by rw [plainText, plainText, same.code]
      cases mask with
      | nil => rfl
      | cons inside mask =>
          cases inside with
          | true => exact ih mask (number + 1)
          | false =>
              simp only [numberedFrom, unmasked, Bool.false_eq_true, if_false,
                List.filter_cons, plain]
              split
              · rw [List.map_cons, List.map_cons, ih]
              · rw [ih]

end Alike

/-! ## All checks -/

section Source

variable {source other : Text}

/-- A marker is reported just if it does not occur, be it in a comment. -/
theorem missingMarker_mem_issues_iff (marker : Marker) :
    ⟨1, .missingMarker marker⟩ ∈ issues source ↔ ¬ marker.text <:+: source := by
  have apart : marker.rule ∉ ["brace-balance".toList, "environment-balance".toList,
      "frame-title".toList, "unescaped-underscore".toList] := by
    cases marker <;> decide
  simp only [List.mem_cons, List.not_mem_nil, or_false, not_or] at apart
  rw [mem_issues]
  constructor
  · rintro (missing | brace | environment | title | underscore)
    · obtain ⟨absent, without, same⟩ := mem_markerIssues.mp missing
      cases same
      exact without
    · exact absurd (rule_of_mem_braceIssues brace) apart.1
    · exact absurd (rule_of_mem_environmentIssues environment) apart.2.1
    · exact absurd (rule_of_mem_titleIssues title) apart.2.2.1
    · exact absurd (rule_of_mem_underscoreIssues underscore) apart.2.2.2
  · exact fun absent => .inl (mem_markerIssues.mpr ⟨marker, absent, rfl⟩)

theorem markerIssues_eq_of_iff
    (same : ∀ marker : Marker, marker.text <:+: source ↔ marker.text <:+: other) :
    markerIssues source = markerIssues other := by
  have agree : ∀ marker : Marker, includes marker.text source = includes marker.text other := by
    intro marker
    rw [Bool.eq_iff_iff, includes_iff, includes_iff]
    exact same marker
  rw [markerIssues, markerIssues]
  simp only [agree]

/-- **Comments do not influence the checks, except that of markers.** Two sources without
environments that are no LaTeX whose lines differ in comments only have the same issues just if
each marker occurs in both or in none, no matter where. -/
theorem issues_eq_iff_of_sameCode (same : List.Forall₂ SameCode (lines source) (lines other))
    (ordinary : ∀ line ∈ lines source, Ordinary line) :
    issues source = issues other ↔
      ∀ marker : Marker, marker.text <:+: source ↔ marker.text <:+: other := by
  have alike : List.Forall₂ Alike (lines source) (lines other) := same.imp fun _ _ => SameCode.alike
  constructor
  · intro equal marker
    rw [← not_iff_not, ← missingMarker_mem_issues_iff, ← missingMarker_mem_issues_iff, equal]
  · intro markers
    have mask := verbatimMask_eq_of_alike alike ordinary
    have braces := braceIssues_eq_of_alike alike (lastLine (lines other)) 1
    have outside : Nesting.verbatim {} = none := rfl
    have environments := environmentIssuesFrom_eq_of_alike outside alike ordinary 1
    have titles := titleIssues_eq_of_alike alike (verbatimMask (lines other)) 1
    have underscores := underscoreIssues_eq_of_alike alike (verbatimMask (lines other)) 1
    have last : lastLine (lines source) = lastLine (lines other) := by
      rw [lastLine, lastLine, alike.length_eq]
    simp only [issues, markerIssues_eq_of_iff markers, last, environmentIssues, numbered, mask,
      braces, environments, titles, underscores]

/-- A brace and a title in comments have no effect. -/
theorem issues_eq_iff_of_sameCode_frame :
    issues "a_b % x\n\\begin\x7bframe\x7d % y\n%\n\x7d".toList =
      issues "a_b % \x7b\n\\begin\x7bframe\x7d %\n%\\frametitle\n\x7d".toList := by
  have lines₁ : lines "a_b % x\n\\begin\x7bframe\x7d % y\n%\n\x7d".toList =
      ["a_b ".toList ++ '%' :: " x".toList, "\\begin\x7bframe\x7d ".toList ++ '%' :: " y".toList,
        [] ++ '%' :: [], "\x7d".toList] := by decide +kernel
  have lines₂ : lines "a_b % \x7b\n\\begin\x7bframe\x7d %\n%\\frametitle\n\x7d".toList =
      ["a_b ".toList ++ '%' :: " \x7b".toList, "\\begin\x7bframe\x7d ".toList ++ '%' :: [],
        [] ++ '%' :: "\\frametitle".toList, "\x7d".toList] := by decide +kernel
  refine (issues_eq_iff_of_sameCode ?_ (by decide +kernel)).mpr fun marker => ?_
  · rw [lines₁, lines₂]
    exact .cons (.comment (by decide) _ _) <| .cons (.comment (by decide) _ _) <|
      .cons (.comment (by decide) _ _) <| .cons (.refl _) .nil
  · cases marker <;> decide +kernel

/-- A declaration in a comment is taken for one, and other words in its place are not. -/
theorem issues_ne_of_marker_in_comment :
    ¬ ∀ source other : Text, List.Forall₂ SameCode (lines source) (lines other) →
      (∀ line ∈ lines source, Ordinary line) → issues source = issues other := by
  intro equal
  have declared : lines "% \\documentclass\n\\begin\x7bdocument\x7d\n\\end\x7bdocument\x7d".toList =
      [[] ++ '%' :: " \\documentclass".toList, "\\begin\x7bdocument\x7d".toList,
        "\\end\x7bdocument\x7d".toList] := by decide +kernel
  have blank : lines "%\n\\begin\x7bdocument\x7d\n\\end\x7bdocument\x7d".toList =
      [[] ++ '%' :: [], "\\begin\x7bdocument\x7d".toList, "\\end\x7bdocument\x7d".toList] := by
    decide +kernel
  have same := equal
    "% \\documentclass\n\\begin\x7bdocument\x7d\n\\end\x7bdocument\x7d".toList
    "%\n\\begin\x7bdocument\x7d\n\\end\x7bdocument\x7d".toList
    (by
      rw [declared, blank]
      exact .cons (.comment (by decide) _ _) <| .cons (.refl _) <| .cons (.refl _) .nil)
    (by decide +kernel)
  revert same
  decide +kernel

end Source

end SlideDeck.Lint
