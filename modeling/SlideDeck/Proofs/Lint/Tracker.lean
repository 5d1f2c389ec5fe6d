import SlideDeck.Proofs.Lint.Fit

/-!
# The two readers of environments without LaTeX

Two checks have to know where an environment without LaTeX is open. The mask
(`verbatimMask`) searches a line for the text that begins or ends one. The check of
environments meets their ends one after the other, and an environment can be open for it at
the start of a line or from one of the ends on it (`openLines`).

They can drift apart on lines on which a second environment without LaTeX begins, and on lines
on which an end is written in one way and read in another. On *plain* lines (`Plain`), where
neither is the case, they agree (`verbatimMask_eq_openLines`). The proof follows what is open
(`openBehind`): both readers start a line with the same environment open, and if so, the ends
on a plain line leave the same one open for both (`verbatimStep_of_plain`).
-/

set_option autoImplicit false

namespace SlideDeck.Lint

open SlideDeck SlideDeck.Text SlideDeck.Latex

/-! ## What is open for the check of environments -/

/-- The environment without LaTeX that is open behind an end, when `opened` is open before. -/
def openBehind (opened : Option Text) : EnvironmentEnd → Option Text
  | .opens name => opened.or (if verbatimEnvironments.contains name then some name else none)
  | .closes name => if opened = some name then none else opened

theorem step_verbatim (nesting : Nesting) (number : Nat) (found : EnvironmentEnd) :
    (nesting.step number found).2.verbatim = openBehind nesting.verbatim found := by
  obtain ⟨opened, verbatim⟩ := nesting
  cases found with
  | opens name => cases verbatim <;> simp [Nesting.step, Nesting.sees, Nesting.meet, openBehind]
  | closes name =>
      cases verbatim with
      | none => cases opened <;> simp [Nesting.step, Nesting.sees, Nesting.meet, openBehind]
      | some inside =>
          by_cases same : inside = name
          · cases opened <;> simp [Nesting.step, Nesting.sees, Nesting.meet, openBehind, same]
          · simp [Nesting.step, Nesting.sees, openBehind, same]

theorem run_verbatim (nesting : Nesting) (number : Nat) (ends : List EnvironmentEnd) :
    (nesting.run number ends).2.verbatim = ends.foldl openBehind nesting.verbatim := by
  induction ends generalizing nesting with
  | nil => rfl
  | cons found ends ih =>
      rw [List.foldl_cons, ← step_verbatim nesting number found]
      exact ih _

/-- Only environments without LaTeX are ever open. -/
theorem mem_of_foldl_openBehind {ends : List EnvironmentEnd} {opened : Option Text}
    (known : ∀ name, opened = some name → name ∈ verbatimEnvironments) {name : Text}
    (isOpen : ends.foldl openBehind opened = some name) : name ∈ verbatimEnvironments := by
  induction ends generalizing opened with
  | nil => exact known name isOpen
  | cons found ends ih =>
      refine ih (fun next same => ?_) isOpen
      cases found with
      | opens other =>
          cases opened with
          | none =>
              simp only [openBehind, Option.none_or, List.contains_eq_mem, decide_eq_true_eq,
                Option.ite_none_right_eq_some, Option.some.injEq] at same
              exact same.2 ▸ same.1
          | some inside => exact known next same
      | closes other =>
          by_cases closed : opened = some other <;> simp_all [openBehind]

/-- Whether an environment without LaTeX is open before some of the ends or behind them. -/
def Nesting.reachesVerbatim (number : Nat) : Nesting → List EnvironmentEnd → Bool
  | nesting, [] => nesting.verbatim.isSome
  | nesting, found :: rest =>
    nesting.verbatim.isSome || reachesVerbatim number (nesting.step number found).2 rest

/-- The lines at whose start such an environment is open for the check of environments, or on
which one begins. -/
def openLinesFrom : Nesting → List NumberedLine → List Bool
  | _, [] => []
  | nesting, (number, line) :: rest =>
    let ends := environmentEnds (nesting.visible line)
    nesting.reachesVerbatim number ends :: openLinesFrom (nesting.run number ends).2 rest

/-- The lines on which an environment without LaTeX is open for the check of environments. -/
def openLines (ls : List NumberedLine) : List Bool := openLinesFrom {} ls

theorem reachesVerbatim_of_isSome {nesting : Nesting} (inside : nesting.verbatim.isSome = true)
    (number : Nat) (ends : List EnvironmentEnd) : nesting.reachesVerbatim number ends = true := by
  cases ends with
  | nil => exact inside
  | cons found ends => rw [Nesting.reachesVerbatim, inside, Bool.true_or]

/-! ## Plain lines -/

/-- The name at the end of an environment. -/
def nameOf : EnvironmentEnd → Text
  | .opens name | .closes name => name

/-- Whether an environment without LaTeX begins. -/
def opensVerbatim : EnvironmentEnd → Bool
  | .opens name => verbatimEnvironments.contains name
  | .closes _ => false

/-- If an environment without LaTeX begins, no end of another stands before. -/
def BeginsFirst (ends : List EnvironmentEnd) : Prop :=
  ends.Pairwise fun earlier later =>
    nameOf earlier ∈ verbatimEnvironments → opensVerbatim later = false

instance (ends : List EnvironmentEnd) : Decidable (BeginsFirst ends) :=
  inferInstanceAs (Decidable (ends.Pairwise fun earlier later =>
    nameOf earlier ∈ verbatimEnvironments → opensVerbatim later = false))

/-- A text in which the ends of environments without LaTeX are the places where their wording
occurs, and none of them begins behind another of these ends. -/
structure Plain (s : Text) : Prop where
  begins : ∀ name ∈ verbatimEnvironments,
    beginEnvironment name <:+: s ↔ .opens name ∈ environmentEnds s
  ends : ∀ name ∈ verbatimEnvironments,
    endEnvironment name <:+: s ↔ .closes name ∈ environmentEnds s
  first : BeginsFirst (environmentEnds s)

instance (s : Text) : Decidable (Plain s) :=
  decidable_of_iff
    ((∀ name ∈ verbatimEnvironments,
        beginEnvironment name <:+: s ↔ .opens name ∈ environmentEnds s) ∧
      (∀ name ∈ verbatimEnvironments,
        endEnvironment name <:+: s ↔ .closes name ∈ environmentEnds s) ∧
      BeginsFirst (environmentEnds s))
    ⟨fun all => ⟨all.1, all.2.1, all.2.2⟩, fun plain => ⟨plain.1, plain.2, plain.3⟩⟩

section Ends

variable {ends : List EnvironmentEnd} {name : Text}

/-- Nothing is open where nothing begins. -/
theorem foldl_openBehind_none (others : ∀ found ∈ ends, opensVerbatim found = false) :
    ends.foldl openBehind none = none := by
  induction ends with
  | nil => rfl
  | cons found ends ih =>
      rw [List.forall_mem_cons] at others
      have stays : openBehind none found = none := by
        cases found with
        | opens name => simpa [openBehind, opensVerbatim] using others.1
        | closes name => rfl
      rw [List.foldl_cons, stays, ih others.2]

/-- Outside of environments without LaTeX, the code of a line is seen. -/
theorem visible_of_outside {nesting : Nesting} (outside : nesting.verbatim = none) (line : Text) :
    nesting.visible line = codeOf line := by
  rw [Nesting.visible, outside]
  rfl

/-- The check of environments stays outside where none of these begins. -/
theorem outside_of_run {nesting : Nesting} (outside : nesting.verbatim = none)
    (others : ∀ found ∈ ends, opensVerbatim found = false) (number : Nat) :
    (nesting.run number ends).2.verbatim = none := by
  rw [run_verbatim, outside, foldl_openBehind_none others]

/-- What is open stays so up to its own end. -/
theorem foldl_openBehind_some (member : name ∈ verbatimEnvironments)
    (first : BeginsFirst ends) :
    ends.foldl openBehind (some name) = if .closes name ∈ ends then none else some name := by
  induction ends with
  | nil => rfl
  | cons found ends ih =>
      obtain ⟨later, rest⟩ := List.pairwise_cons.mp first
      rw [List.foldl_cons]
      by_cases closes : found = .closes name
      · subst closes
        simpa [openBehind] using foldl_openBehind_none fun other inside =>
          later other inside member
      · have stays : openBehind (some name) found = some name := by
          cases found with
          | opens other => rfl
          | closes other =>
              have differ : name ≠ other := fun same => closes (same ▸ rfl)
              simp [openBehind, differ]
        rw [stays, ih rest]
        simp [Ne.symm closes]

/-- What begins is open up to its own end. -/
theorem foldl_openBehind_opens (member : name ∈ verbatimEnvironments)
    (first : BeginsFirst ends)
    (begins : .opens name ∈ ends) :
    ends.foldl openBehind none = if .closes name ∈ ends then none else some name := by
  obtain ⟨front, behind, rfl⟩ := List.append_of_mem begins
  obtain ⟨-, later, apart⟩ := List.pairwise_append.mp first
  have others : ∀ found ∈ front, nameOf found ∉ verbatimEnvironments := by
    intro found inFront known
    have quiet := apart found inFront _ List.mem_cons_self known
    simp [opensVerbatim, member] at quiet
  have quiet : front.foldl openBehind none = none := by
    refine foldl_openBehind_none fun found inFront => ?_
    cases found with
    | opens other => simpa [opensVerbatim, nameOf] using others _ inFront
    | closes other => rfl
  have absent : EnvironmentEnd.closes name ∉ front := fun inFront => others _ inFront member
  have opened : openBehind none (.opens name) = some name := by simp [openBehind, member]
  rw [List.foldl_append, quiet, List.foldl_cons, opened,
    foldl_openBehind_some member (List.pairwise_cons.mp later).2]
  simp [absent]

/-- Where nothing is open, something has to begin. -/
theorem reachesVerbatim_of_none {nesting : Nesting} (outside : nesting.verbatim = none)
    (number : Nat) : nesting.reachesVerbatim number ends = ends.any opensVerbatim := by
  induction ends generalizing nesting with
  | nil => simp [Nesting.reachesVerbatim, outside]
  | cons found ends ih =>
      have next := step_verbatim nesting number found
      rw [outside] at next
      rw [Nesting.reachesVerbatim, outside, List.any_cons, Option.isSome_none, Bool.false_or]
      cases begins : opensVerbatim found with
      | true =>
          refine reachesVerbatim_of_isSome ?_ number ends
          cases found with
          | opens name => simp_all [openBehind, opensVerbatim]
          | closes name => cases begins
      | false =>
          refine ih (next.trans ?_)
          cases found with
          | opens name => simp_all [openBehind, opensVerbatim]
          | closes name => rfl

end Ends

/-! ## Both readers on a plain line -/

/-- On a plain line the mask and the check of environments do the same. -/
theorem verbatimStep_of_plain {nesting : Nesting} {line : Text}
    (plain : Plain (nesting.visible line))
    (known : ∀ name, nesting.verbatim = some name → name ∈ verbatimEnvironments) (number : Nat) :
    verbatimStep nesting.verbatim line =
      (nesting.reachesVerbatim number (environmentEnds (nesting.visible line)),
        (nesting.run number (environmentEnds (nesting.visible line))).2.verbatim) := by
  rw [run_verbatim]
  cases inside : nesting.verbatim with
  | some name =>
      have visible : nesting.visible line = line := by simp [Nesting.visible, inside]
      have member := known name inside
      rw [visible] at plain ⊢
      rw [reachesVerbatim_of_isSome (by simp [inside]), foldl_openBehind_some member plain.first]
      simp [verbatimStep, endsVerbatim, includes_iff, plain.ends name member]
  | none =>
      have visible : nesting.visible line = codeOf line := by simp [Nesting.visible, inside]
      rw [visible] at plain ⊢
      rw [reachesVerbatim_of_none inside]
      cases begun : begunVerbatim? (codeOf line) with
      | some name =>
          have member : name ∈ verbatimEnvironments := List.mem_of_find?_eq_some begun
          have begins : includes (beginEnvironment name) (codeOf line) = true :=
            List.find?_some (p := fun name => includes (beginEnvironment name) (codeOf line)) begun
          have begins : .opens name ∈ environmentEnds (codeOf line) :=
            (plain.begins name member).mp (includes_iff.mp begins)
          have reached : (environmentEnds (codeOf line)).any opensVerbatim = true :=
            List.any_eq_true.mpr ⟨_, begins, by simpa [opensVerbatim] using member⟩
          rw [foldl_openBehind_opens member plain.first begins, reached]
          simp [verbatimStep, begun, endsVerbatim, includes_iff, plain.ends name member]
      | none =>
          have others : ∀ found ∈ environmentEnds (codeOf line), opensVerbatim found = false := by
            intro found occurs
            cases found with
            | closes name => rfl
            | opens name =>
                rw [opensVerbatim, List.contains_eq_mem, decide_eq_false_iff_not]
                intro member
                have absent := List.find?_eq_none.mp begun name member
                exact absent (includes_iff.mpr ((plain.begins name member).mpr occurs))
          have unreached : (environmentEnds (codeOf line)).any opensVerbatim = false :=
            List.any_eq_false.mpr fun found occurs => by simp [others found occurs]
          rw [foldl_openBehind_none others, unreached]
          simp [verbatimStep, begun]

theorem verbatimMaskFrom_eq_openLinesFrom {ls : List Text} {nesting : Nesting}
    (plain : ∀ line ∈ ls, Plain line ∧ Plain (codeOf line))
    (known : ∀ name, nesting.verbatim = some name → name ∈ verbatimEnvironments) (number : Nat) :
    verbatimMaskFrom nesting.verbatim ls = openLinesFrom nesting (numberedFrom number ls) := by
  induction ls generalizing nesting number with
  | nil => rfl
  | cons line ls ih =>
      rw [List.forall_mem_cons] at plain
      have visible : Plain (nesting.visible line) := by
        rw [Nesting.visible]
        split
        · exact plain.1.1
        · exact plain.1.2
      rw [verbatimMaskFrom, verbatimStep_of_plain visible known number]
      refine congrArg (_ :: ·) (ih plain.2 (fun name isOpen => ?_) (number + 1))
      rw [run_verbatim] at isOpen
      exact mem_of_foldl_openBehind known isOpen

/-- **The two readers agree on plain lines.** The mask marks exactly the lines at whose start
an environment without LaTeX is open for the check of environments, or on which one begins. -/
theorem verbatimMask_eq_openLines {ls : List Text}
    (plain : ∀ line ∈ ls, Plain line ∧ Plain (codeOf line)) :
    verbatimMask ls = openLines (numbered ls) := by
  have outside : ∀ name, Nesting.verbatim {} = some name → name ∈ verbatimEnvironments := by
    intro name isOpen
    cases isOpen
  exact verbatimMaskFrom_eq_openLinesFrom plain outside 1

/-- A percent sign in such an environment does not hide its end. -/
theorem verbatimMask_eq_openLines_percent :
    verbatimMask ["a % \\begin\x7bverbatim\x7d".toList, "\\begin\x7bverbatim\x7d %".toList,
        "% \\end\x7bverbatim\x7d".toList] =
      openLines (numbered ["a % \\begin\x7bverbatim\x7d".toList,
        "\\begin\x7bverbatim\x7d %".toList, "% \\end\x7bverbatim\x7d".toList]) :=
  verbatimMask_eq_openLines (by decide +kernel)

/-- Behind an environment that begins and ends on a line, the mask misses a second one: the line
after it is in this one for the check of environments only. -/
theorem verbatimMask_ne_openLines_second :
    ¬ ∀ source, verbatimMask (lines source) = openLines (numbered (lines source)) := by
  intro agree
  have drift := agree ("\\begin\x7bverbatim\x7d\\end\x7bverbatim\x7d\\begin\x7bverbatim\x7d\n" ++
    "\x7d\n\\end\x7bverbatim\x7d").toList
  revert drift
  decide +kernel

end SlideDeck.Lint
