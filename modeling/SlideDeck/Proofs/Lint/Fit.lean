import SlideDeck.Proofs.Lint.Underscore
import SlideDeck.Lint.Source

/-!
# Lines without issues

Lines are *fit* (`Fit`) when no check but that of braces finds anything in them and each
check goes on behind them as it stood before: no environment without LaTeX is left open,
the stack of environments is what it was, and no title and no escape is missing. The braces
that count are a parameter. Fit lines can be put one after the other (`Fit.append`), and
between the two ends of an environment (`Fit.environment`). Quiet lines are fit
(`Fit.quiet`); so is a listing, whatever its lines are, as long as none of them could end
an environment, and none of its braces counts (`Fit.listing`).

Fit lines are *closed* (`Closed`) when the braces that count are balanced. A source of
closed lines with all markers passes the gate of a build, and whatever else is found in it
concerns braces (`Closed.blockers_eq_nil`, `Closed.rule_of_mem_issues`).
-/

set_option autoImplicit false

namespace SlideDeck.Lint

open SlideDeck SlideDeck.Text SlideDeck.Latex

/-! ## Checks of two runs of lines -/

/-- The environment without LaTeX that is open behind the lines, when `opened` is open
before them. -/
def verbatimAfter : Option Text → List Text → Option Text
  | opened, [] => opened
  | opened, line :: rest => verbatimAfter (verbatimStep opened line).2 rest

theorem verbatimAfter_append (opened : Option Text) (front back : List Text) :
    verbatimAfter opened (front ++ back) = verbatimAfter (verbatimAfter opened front) back := by
  induction front generalizing opened with
  | nil => rfl
  | cons line front ih => exact ih _

theorem verbatimMaskFrom_append (opened : Option Text) (front back : List Text) :
    verbatimMaskFrom opened (front ++ back) =
      verbatimMaskFrom opened front ++ verbatimMaskFrom (verbatimAfter opened front) back := by
  induction front generalizing opened with
  | nil => rfl
  | cons line front ih => exact congrArg (_ :: ·) (ih _)

theorem length_verbatimMaskFrom (opened : Option Text) (ls : List Text) :
    (verbatimMaskFrom opened ls).length = ls.length := by
  induction ls generalizing opened with
  | nil => rfl
  | cons line ls ih => exact congrArg (· + 1) (ih _)

theorem numberedFrom_append (number : Nat) (front back : List Text) :
    numberedFrom number (front ++ back) =
      numberedFrom number front ++ numberedFrom (number + front.length) back := by
  induction front generalizing number with
  | nil => rfl
  | cons line front ih =>
      rw [List.cons_append, numberedFrom, ih, numberedFrom, List.cons_append, List.length_cons,
        Nat.add_assoc, Nat.add_comm 1]

theorem length_numberedFrom (number : Nat) (ls : List Text) :
    (numberedFrom number ls).length = ls.length := by
  induction ls generalizing number with
  | nil => rfl
  | cons line ls ih => exact congrArg (· + 1) (ih _)

theorem unmasked_append {mask : List Bool} {front : List NumberedLine}
    (same : mask.length = front.length) (later : List Bool) (back : List NumberedLine) :
    unmasked (mask ++ later) (front ++ back) = unmasked mask front ++ unmasked later back := by
  induction mask generalizing front with
  | nil =>
      rw [List.length_nil, eq_comm, List.length_eq_zero_iff] at same
      subst same
      rfl
  | cons inside mask ih =>
      obtain ⟨line, front, rfl⟩ := List.exists_cons_of_length_eq_add_one same.symm
      rw [List.length_cons, List.length_cons, Nat.add_right_cancel_iff] at same
      cases inside <;> simp [unmasked, ih same]

/-! ## Fit lines -/

/-- The braces that count. -/
def countedBraces (mask : List Bool) (ls : List NumberedLine) : List Brace :=
  (bracesOfLines (unmasked mask ls)).map Prod.snd

theorem countedBraces_append {mask : List Bool} {front : List NumberedLine}
    (same : mask.length = front.length) (later : List Bool) (back : List NumberedLine) :
    countedBraces (mask ++ later) (front ++ back) =
      countedBraces mask front ++ countedBraces later back := by
  simp [countedBraces, bracesOfLines, unmasked_append same]

theorem underscoreIssues_append {mask : List Bool} {front : List NumberedLine}
    (same : mask.length = front.length) (later : List Bool) (back : List NumberedLine) :
    underscoreIssues (mask ++ later) (front ++ back) =
      underscoreIssues mask front ++ underscoreIssues later back := by
  simp [underscoreIssues, unmasked_append same]

theorem length_verbatimMask (number : Nat) (ls : List Text) :
    (verbatimMask ls).length = (numberedFrom number ls).length := by
  rw [verbatimMask, length_verbatimMaskFrom, length_numberedFrom]

/-- Lines in which only the check of braces may find anything, and behind which each other
goes on as before. `braces` are those that count. -/
structure Fit (ls : List Text) (braces : List Brace) : Prop where
  /-- No environment without LaTeX is left open. -/
  verbatim : verbatimAfter none ls = none
  /-- Outside of such environments these are the braces. -/
  counted : ∀ number, countedBraces (verbatimMask ls) (numberedFrom number ls) = braces
  /-- Each environment that begins in the lines ends in them. -/
  environments : ∀ opened number rest,
    environmentIssuesFrom ⟨opened, none⟩ (numberedFrom number ls ++ rest) =
      environmentIssuesFrom ⟨opened, none⟩ rest
  /-- Each frame has its title. -/
  titles : ∀ number mask rest,
    titleIssues (verbatimMask ls ++ mask) (numberedFrom number ls ++ rest) = titleIssues mask rest
  /-- Each underscore is escaped. -/
  underscores : ∀ number, underscoreIssues (verbatimMask ls) (numberedFrom number ls) = []

namespace Fit

variable {front back : List Text} {braces later : List Brace}

theorem nil : Fit [] [] where
  verbatim := rfl
  counted _ := rfl
  environments _ _ _ := rfl
  titles _ _ _ := rfl
  underscores _ := rfl

/-- No environment without LaTeX is open between fit lines and the next. -/
theorem verbatimMask_append (fit : Fit front braces) (back : List Text) :
    verbatimMask (front ++ back) = verbatimMask front ++ verbatimMask back := by
  rw [verbatimMask, verbatimMaskFrom_append, fit.verbatim]
  rfl

/-- Fit lines can be put one after the other. -/
theorem append (first : Fit front braces) (second : Fit back later) :
    Fit (front ++ back) (braces ++ later) where
  verbatim := by rw [verbatimAfter_append, first.verbatim, second.verbatim]
  counted number := by
    rw [first.verbatimMask_append, numberedFrom_append,
      countedBraces_append (length_verbatimMask number front), first.counted, second.counted]
  environments opened number rest := by
    rw [numberedFrom_append, List.append_assoc, first.environments, second.environments]
  titles number mask rest := by
    rw [first.verbatimMask_append, numberedFrom_append, List.append_assoc, List.append_assoc,
      first.titles, second.titles]
  underscores number := by
    rw [first.verbatimMask_append, numberedFrom_append,
      underscoreIssues_append (length_verbatimMask number front), first.underscores,
      second.underscores, List.append_nil]

theorem flatMap {α : Type} {items : List α} {write : α → List Text} {braces : α → List Brace}
    (each : ∀ item ∈ items, Fit (write item) (braces item)) :
    Fit (items.flatMap write) (items.flatMap braces) := by
  induction items with
  | nil => exact nil
  | cons item items ih =>
      rw [List.forall_mem_cons] at each
      exact each.1.append (ih each.2)

end Fit

/-! ## Single lines -/

/-- A line that begins no environment without LaTeX and whose underscores are escaped. -/
structure Legible (line : Text) : Prop where
  verbatim : begunVerbatim? (codeOf line) = none
  underscores : '_' ∉ plainText line

namespace Legible

variable {line : Text}

/-- The underscores of a line are escaped if its code is guarded. -/
theorem of_guarded {row : Bool} (guarded : Guarded escapable row (codeOf line))
    (verbatim : begunVerbatim? (codeOf line) = none) : Legible line where
  verbatim := verbatim
  underscores := by
    have same : plainText line = plainText (codeOf line) := by
      rw [plainText, plainText, guarded.codeOf]
    rw [same]
    exact underscore_not_mem_plainText guarded

theorem verbatimStep (legible : Legible line) : verbatimStep none line = (false, none) := by
  simp [Lint.verbatimStep, legible.verbatim]

theorem verbatimAfter (legible : Legible line) (ls : List Text) :
    verbatimAfter none (line :: ls) = verbatimAfter none ls := by
  rw [Lint.verbatimAfter, legible.verbatimStep]

theorem verbatimMask (legible : Legible line) (ls : List Text) :
    verbatimMask (line :: ls) = false :: verbatimMask ls := by
  rw [Lint.verbatimMask, verbatimMaskFrom, legible.verbatimStep]
  rfl

theorem underscoreIssues (legible : Legible line) (number : Nat) (mask : List Bool)
    (ls : List NumberedLine) :
    underscoreIssues (false :: mask) ((number, line) :: ls) = underscoreIssues mask ls := by
  simp [Lint.underscoreIssues, unmasked, legible.underscores]

end Legible

theorem countedBraces_cons (number : Nat) (line : Text) (mask : List Bool)
    (ls : List NumberedLine) :
    countedBraces (false :: mask) ((number, line) :: ls) =
      bracesOf (codeOf line) ++ countedBraces mask ls := by
  simp [countedBraces, unmasked, bracesOfLines, Function.comp_def]

theorem begunVerbatim?_eq_none {code : Text}
    (absent : ∀ name ∈ verbatimEnvironments, ¬ beginEnvironment name <:+: code) :
    begunVerbatim? code = none := by
  rw [begunVerbatim?, List.find?_eq_none]
  intro name member
  rw [includes_iff]
  exact absent name member

theorem frameHead?_eq_none {code : Text}
    (absent : ¬ beginEnvironment "frame".toList <:+: code) : frameHead? code = none := by
  rw [frameHead?, splitOnText?_eq_none absent]
  rfl

theorem lacksTitle_of_absent {line : Text}
    (absent : ¬ beginEnvironment "frame".toList <:+: codeOf line) (next : Text) :
    lacksTitle line next = false := by
  rw [lacksTitle, frameHead?_eq_none absent]

theorem titleIssues_cons {line : Text} (number : Nat) (mask : List Bool)
    (rest : List NumberedLine) (titled : lacksTitle line ((rest.map Prod.snd).headD []) = false) :
    titleIssues (false :: mask) ((number, line) :: rest) = titleIssues mask rest := by
  cases rest with
  | nil => simpa [titleIssues] using titled
  | cons next rest => simpa [titleIssues] using titled

/-! ## Quiet lines -/

/-- A line whose code is guarded and calm. -/
structure Quiet (line : Text) : Prop where
  guarded : ∃ row, Guarded escapable row (codeOf line)
  calm : Calm (codeOf line)

namespace Quiet

variable {line : Text}

/-- Guarded text in which nothing begins or ends makes a quiet line. -/
theorem of_guarded {row : Bool} (guarded : Guarded still row line) : Quiet line := by
  have same := guarded.codeOf
  refine ⟨⟨row, same.symm ▸ guarded.mono fun c follows => ?_⟩, same.symm ▸ guarded.calm⟩
  simp_all [still]

theorem absent (quiet : Quiet line) (name : Text) : ¬ beginEnvironment name <:+: codeOf line :=
  fun occurs => quiet.calm.1 ((begin_isInfix name).trans occurs)

theorem legible (quiet : Quiet line) : Legible line := by
  obtain ⟨row, guarded⟩ := quiet.guarded
  exact .of_guarded guarded (begunVerbatim?_eq_none fun name _ => quiet.absent name)

theorem environmentIssues (quiet : Quiet line) (opened : List (Text × Nat)) (number : Nat)
    (rest : List NumberedLine) :
    environmentIssuesFrom ⟨opened, none⟩ ((number, line) :: rest) =
      environmentIssuesFrom ⟨opened, none⟩ rest := by
  have empty : environmentEnds (codeOf line) = [] := environmentEnds_of_calm quiet.calm
  simp [environmentIssuesFrom, Nesting.visible, empty, Nesting.run]

end Quiet

theorem Fit.quietLine {line : Text} (quiet : Quiet line) :
    Fit [line] (bracesOf (codeOf line)) where
  verbatim := quiet.legible.verbatimAfter []
  counted number := by
    rw [quiet.legible.verbatimMask, numberedFrom, countedBraces_cons]
    exact List.append_nil _
  environments opened number rest := quiet.environmentIssues opened number rest
  titles number mask rest := by
    rw [quiet.legible.verbatimMask]
    exact titleIssues_cons _ _ _ (lacksTitle_of_absent (quiet.absent _) _)
  underscores number := by
    rw [quiet.legible.verbatimMask]
    exact quiet.legible.underscoreIssues number _ _

theorem Fit.quiet {ls : List Text} (each : ∀ line ∈ ls, Quiet line) :
    Fit ls (ls.flatMap fun line => bracesOf (codeOf line)) := by
  have single :
      Fit (ls.flatMap fun line => [line]) (ls.flatMap fun line => bracesOf (codeOf line)) :=
    .flatMap fun line member => .quietLine (each line member)
  rwa [List.flatMap_singleton'] at single

/-! ## Environments -/

section Environment

variable {name args : Text} {inner : List Text} {braces : List Brace}

theorem guarded_beginning (isName : IsName name) (tidy : Tidy args) :
    Guarded escapable false (beginEnvironment name ++ args) :=
  (guarded_beginEnvironment isName).1.append
    (tidy.guarded.mono fun c follows => by simp_all [still])

theorem balanced_beginning (isName : IsName name) (tidy : Tidy args) :
    Balanced (bracesOf (beginEnvironment name ++ args)) := by
  obtain ⟨guarded, pair⟩ := guarded_beginEnvironment isName
  rw [guarded.bracesOf_append, pair]
  exact Balanced.append (by decide) tidy.depth

/-- Outside of environments without LaTeX, the beginning of an environment puts it on the
stack. -/
theorem environmentIssues_begin (isName : IsName name) (tidy : Tidy args)
    (opened : List (Text × Nat)) (number : Nat) (rest : List NumberedLine) :
    environmentIssuesFrom ⟨opened, none⟩ ((number, beginEnvironment name ++ args) :: rest) =
      environmentIssuesFrom ⟨(name, number) :: opened,
        if verbatimEnvironments.contains name then some name else none⟩ rest := by
  have ends := environmentEnds_beginEnvironment isName tidy.guarded.calm
  simp only [environmentIssuesFrom, Nesting.visible, Option.isSome_none, Bool.false_eq_true,
    if_false, (guarded_beginning isName tidy).codeOf, ends]
  rfl

/-- The end of the innermost environment takes it off. -/
theorem environmentIssues_end (isName : IsName name) {verbatim : Option Text}
    (sees : verbatim = none ∨ verbatim = some name) (opened : List (Text × Nat))
    (number line : Nat) (rest : List NumberedLine) :
    environmentIssuesFrom ⟨(name, line) :: opened, verbatim⟩
        ((number, endEnvironment name) :: rest) =
      environmentIssuesFrom ⟨opened, none⟩ rest := by
  have code := (guarded_endEnvironment isName).1.codeOf
  have ends := environmentEnds_endEnvironment isName
  rcases sees with rfl | rfl <;>
    simp [environmentIssuesFrom, Nesting.visible, code, ends, Nesting.run, Nesting.step,
      Nesting.sees, Nesting.meet]

theorem legible_endEnvironment (isName : IsName name) : Legible (endEnvironment name) := by
  have guarded := (guarded_endEnvironment isName).1
  refine .of_guarded (guarded.codeOf.symm ▸ guarded) (begunVerbatim?_eq_none fun other _ => ?_)
  rw [guarded.codeOf]
  exact fun occurs => not_isInfix_endEnvironment isName ((begin_isInfix other).trans occurs)

theorem legible_beginEnvironment (isName : IsName name) (ordinary : name ∉ verbatimEnvironments)
    (tidy : Tidy args) : Legible (beginEnvironment name ++ args) := by
  have guarded := guarded_beginning isName tidy
  refine .of_guarded (guarded.codeOf.symm ▸ guarded) (begunVerbatim?_eq_none fun other member => ?_)
  rw [guarded.codeOf]
  have isOther : IsName other :=
    (by decide : ∀ other ∈ verbatimEnvironments, IsName other) other member
  exact not_isInfix_beginEnvironment isName isOther (fun same => ordinary (same ▸ member))
    tidy.guarded.calm

/-- A line in front of fit lines and a line behind them, with their numbers. -/
theorem numberedFrom_around (number : Nat) (first last : Text) (inner : List Text) :
    numberedFrom number (first :: (inner ++ [last])) =
      (number, first) :: (numberedFrom (number + 1) inner ++
        [(number + 1 + inner.length, last)]) := by
  rw [numberedFrom, numberedFrom_append]
  rfl

/-- Fit lines between the two ends of an environment are fit. If the environment is a frame,
it needs a title. -/
theorem Fit.environment (isName : IsName name) (ordinary : name ∉ verbatimEnvironments)
    (tidy : Tidy args)
    (titled : lacksTitle (beginEnvironment name ++ args)
      ((inner ++ [endEnvironment name]).headD []) = false)
    (fit : Fit inner braces) :
    Fit ((beginEnvironment name ++ args) :: (inner ++ [endEnvironment name]))
      (bracesOf (beginEnvironment name ++ args) ++ (braces ++ [.opening, .closing])) := by
  have legible := legible_beginEnvironment isName ordinary tidy
  have legibleEnd := legible_endEnvironment isName
  have ending := guarded_endEnvironment isName
  have masked : verbatimMask ((beginEnvironment name ++ args) :: (inner ++ [endEnvironment name])) =
      false :: (verbatimMask inner ++ [false]) := by
    rw [legible.verbatimMask, fit.verbatimMask_append, legibleEnd.verbatimMask]
    rfl
  refine ⟨?_, fun number => ?_, fun opened number rest => ?_, fun number mask rest => ?_,
    fun number => ?_⟩
  · rw [legible.verbatimAfter, verbatimAfter_append, fit.verbatim, legibleEnd.verbatimAfter]
    rfl
  · rw [masked, numberedFrom_around, countedBraces_cons,
      countedBraces_append (length_verbatimMask _ inner), fit.counted, countedBraces_cons,
      (guarded_beginning isName tidy).codeOf, ending.1.codeOf, ending.2]
    rfl
  · have other : verbatimEnvironments.contains name = false := by
      simpa using ordinary
    rw [numberedFrom_around, List.cons_append, List.append_assoc,
      environmentIssues_begin isName tidy, other]
    exact (fit.environments _ _ _).trans (environmentIssues_end isName (.inl rfl) _ _ _ _)
  · have absent : ¬ beginEnvironment "frame".toList <:+: codeOf (endEnvironment name) := by
      rw [ending.1.codeOf]
      exact fun occurs => not_isInfix_endEnvironment isName ((begin_isInfix _).trans occurs)
    rw [masked, numberedFrom_around, List.cons_append, List.cons_append, titleIssues_cons,
      List.append_assoc, List.append_assoc, fit.titles]
    · exact titleIssues_cons _ _ _ (lacksTitle_of_absent absent _)
    · cases inner <;> exact titled
  · rw [masked, numberedFrom_around, legible.underscoreIssues,
      underscoreIssues_append (length_verbatimMask _ inner), fit.underscores,
      legibleEnd.underscoreIssues]
    rfl

end Environment

/-! ## Listings -/

section Listing

variable {name args : Text} {code : List Text}

theorem unmasked_replicate (count : Nat) (ls : List NumberedLine) :
    unmasked (List.replicate count true) ls = [] := by
  induction count generalizing ls with
  | zero => rfl
  | succ count ih =>
      cases ls with
      | nil => rfl
      | cons line ls => exact ih ls

theorem titleIssues_replicate (ls : List NumberedLine) (mask : List Bool)
    (rest : List NumberedLine) :
    titleIssues (List.replicate ls.length true ++ mask) (ls ++ rest) = titleIssues mask rest := by
  induction ls with
  | nil => rfl
  | cons line ls ih =>
      rw [List.length_cons, List.replicate_succ, List.cons_append, List.cons_append]
      simpa [titleIssues] using ih

theorem begunVerbatim?_beginEnvironment (member : name ∈ verbatimEnvironments) (calm : Calm args) :
    begunVerbatim? (beginEnvironment name ++ args) = some name := by
  have names : ∀ other ∈ verbatimEnvironments, IsName other := by decide
  have apart : verbatimEnvironments.Nodup := by decide
  obtain ⟨before, behind, split⟩ := List.append_of_mem member
  refine List.find?_eq_some_iff_append.mpr ⟨includes_iff.mpr ?_, before, behind, split, ?_⟩
  · exact (List.prefix_append _ _).isInfix
  · intro other earlier
    have isOther : other ∈ verbatimEnvironments := split ▸ List.mem_append_left _ earlier
    have differ : other ≠ name := by
      rintro rfl
      rw [split, List.nodup_append] at apart
      exact apart.2.2 other earlier other List.mem_cons_self rfl
    have absent :=
      not_isInfix_beginEnvironment (names name member) (names other isOther) differ calm
    simpa [← includes_iff] using absent

theorem endsVerbatim_eq_false {line : Text} (noEnd : ¬ "\\end\x7b".toList <:+: line) :
    endsVerbatim name line = false := by
  rw [endsVerbatim, Bool.eq_false_iff, Ne, includes_iff]
  refine fun occurs => noEnd (List.IsInfix.trans ?_ occurs)
  exact ⟨[], name ++ ['\x7d'], rfl⟩

/-- A listing is passed over from its first line to its last. -/
theorem verbatim_listing (member : name ∈ verbatimEnvironments) (tidy : Tidy args)
    (noEnd : ∀ line ∈ code, ¬ "\\end\x7b".toList <:+: line) :
    verbatimAfter none ((beginEnvironment name ++ args) :: (code ++ [endEnvironment name])) = none ∧
      verbatimMask ((beginEnvironment name ++ args) :: (code ++ [endEnvironment name])) =
        List.replicate (code.length + 2) true := by
  have isName : IsName name := (by decide : ∀ name ∈ verbatimEnvironments, IsName name) name member
  have begins : verbatimStep none (beginEnvironment name ++ args) = (true, some name) := by
    have noEnding : ¬ "\\end\x7b".toList <:+: beginEnvironment name ++ args := fun occurs =>
      end_not_isInfix_beginEnvironment isName tidy.guarded.calm
        ((by decide : "\\end".toList <:+: "\\end\x7b".toList).trans occurs)
    simp [verbatimStep, (guarded_beginning isName tidy).codeOf,
      begunVerbatim?_beginEnvironment member tidy.guarded.calm, endsVerbatim_eq_false noEnding]
  have ends : verbatimStep (some name) (endEnvironment name) = (true, none) := by
    have occurs : endsVerbatim name (endEnvironment name) = true :=
      includes_iff.mpr List.infix_rfl
    simp [verbatimStep, occurs]
  have inside : verbatimAfter (some name) (code ++ [endEnvironment name]) = none ∧
      verbatimMaskFrom (some name) (code ++ [endEnvironment name]) =
        List.replicate (code.length + 1) true := by
    induction code with
    | nil => simp [verbatimAfter, verbatimMaskFrom, ends]
    | cons line code ih =>
        rw [List.forall_mem_cons] at noEnd
        have stays : verbatimStep (some name) line = (true, some name) := by
          simp [verbatimStep, endsVerbatim_eq_false noEnd.1]
        obtain ⟨after, mask⟩ := ih noEnd.2
        simp [verbatimAfter, verbatimMaskFrom, stays, after, mask, List.replicate_succ]
  rw [verbatimMask, verbatimAfter, verbatimMaskFrom, begins]
  exact ⟨inside.1, congrArg (true :: ·) inside.2⟩

/-- In an environment without LaTeX the beginnings of others do not count. -/
theorem run_opens {ends : List EnvironmentEnd} (opens : ∀ found ∈ ends, ∃ name, found = .opens name)
    (opened : List (Text × Nat)) (number : Nat) :
    Nesting.run number ⟨opened, some name⟩ ends = ([], ⟨opened, some name⟩) := by
  induction ends with
  | nil => rfl
  | cons found ends ih =>
      rw [List.forall_mem_cons] at opens
      obtain ⟨other, rfl⟩ := opens.1
      have step : Nesting.step ⟨opened, some name⟩ number (.opens other) =
          ([], ⟨opened, some name⟩) := rfl
      rw [Nesting.run, step]
      simp [ih opens.2]

theorem environmentIssues_code (noEnd : ∀ line ∈ code, ¬ "\\end\x7b".toList <:+: line)
    (opened : List (Text × Nat)) (number : Nat) (rest : List NumberedLine) :
    environmentIssuesFrom ⟨opened, some name⟩ (numberedFrom number code ++ rest) =
      environmentIssuesFrom ⟨opened, some name⟩ rest := by
  induction code generalizing number with
  | nil => rfl
  | cons line code ih =>
      rw [List.forall_mem_cons] at noEnd
      have visible : Nesting.visible ⟨opened, some name⟩ line = line := rfl
      rw [numberedFrom, List.cons_append, environmentIssuesFrom, visible,
        run_opens fun _ => exists_opens_of_mem_environmentEnds noEnd.1]
      exact ih noEnd.2 _

/-- A listing is fit, whatever its code, if that cannot end an environment. None of its braces
counts. -/
theorem Fit.listing (member : name ∈ verbatimEnvironments) (tidy : Tidy args)
    (noEnd : ∀ line ∈ code, ¬ "\\end\x7b".toList <:+: line) :
    Fit ((beginEnvironment name ++ args) :: (code ++ [endEnvironment name])) [] := by
  have isName : IsName name := (by decide : ∀ name ∈ verbatimEnvironments, IsName name) name member
  obtain ⟨closed, masked⟩ := verbatim_listing member tidy noEnd
  refine ⟨closed, fun number => ?_, fun opened number rest => ?_, fun number mask rest => ?_,
    fun number => ?_⟩
  · rw [masked, countedBraces, unmasked_replicate]
    rfl
  · have known : verbatimEnvironments.contains name = true := by simpa using member
    rw [numberedFrom_around, List.cons_append, List.append_assoc,
      environmentIssues_begin isName tidy, known]
    exact (environmentIssues_code noEnd _ _ _).trans
      (environmentIssues_end isName (.inr rfl) _ _ _ _)
  · have size : (numberedFrom number
        ((beginEnvironment name ++ args) :: (code ++ [endEnvironment name]))).length =
          code.length + 2 := by
      simp [length_numberedFrom]
    rw [masked, ← size, titleIssues_replicate]
  · rw [masked, underscoreIssues, unmasked_replicate]
    rfl

end Listing

/-! ## Closed lines -/

/-- Fit lines in which each brace that counts has its partner. -/
def Closed (ls : List Text) : Prop := ∃ braces, Fit ls braces ∧ Balanced braces

namespace Closed

variable {front back : List Text}

theorem nil : Closed [] := ⟨[], .nil, .nil⟩

theorem append (first : Closed front) (second : Closed back) : Closed (front ++ back) := by
  obtain ⟨braces, fit, balanced⟩ := first
  obtain ⟨later, fitLater, balancedLater⟩ := second
  exact ⟨braces ++ later, fit.append fitLater, balanced.append balancedLater⟩

theorem flatMap {α : Type} {items : List α} {write : α → List Text}
    (each : ∀ item ∈ items, Closed (write item)) : Closed (items.flatMap write) := by
  induction items with
  | nil => exact nil
  | cons item items ih =>
      rw [List.forall_mem_cons] at each
      exact each.1.append (ih each.2)

theorem quietLine {line : Text} (quiet : Quiet line)
    (balanced : Balanced (bracesOf (codeOf line))) :
    Closed [line] :=
  ⟨_, .quietLine quiet, balanced⟩

/-- A group is closed whose braces stand on lines of their own. -/
theorem group {first last : Text} (quietFirst : Quiet first)
    (opens : bracesOf (codeOf first) = [.opening]) (quietLast : Quiet last)
    (closes : bracesOf (codeOf last) = [.closing]) (inner : Closed front) :
    Closed (first :: (front ++ [last])) := by
  obtain ⟨braces, fit, balanced⟩ := inner
  have whole := (Fit.quietLine quietFirst).append (fit.append (.quietLine quietLast))
  rw [opens, closes] at whole
  exact ⟨_, whole, balanced.enclose⟩

theorem environment {name args : Text} (isName : IsName name)
    (ordinary : name ∉ verbatimEnvironments) (tidy : Tidy args)
    (titled : lacksTitle (beginEnvironment name ++ args)
      ((front ++ [endEnvironment name]).headD []) = false)
    (inner : Closed front) :
    Closed ((beginEnvironment name ++ args) :: (front ++ [endEnvironment name])) := by
  obtain ⟨braces, fit, balanced⟩ := inner
  have pair : Balanced [.opening, .closing] := by decide
  exact ⟨_, .environment isName ordinary tidy titled fit,
    (balanced_beginning isName tidy).append (balanced.append pair)⟩

theorem listing {name args : Text} {code : List Text} (member : name ∈ verbatimEnvironments)
    (tidy : Tidy args) (noEnd : ∀ line ∈ code, ¬ "\\end\x7b".toList <:+: line) :
    Closed ((beginEnvironment name ++ args) :: (code ++ [endEnvironment name])) :=
  ⟨[], .listing member tidy noEnd, .nil⟩

end Closed

/-! ## The verdict -/

/-- Without stray closing braces, the braces lead to those left open. -/
theorem depthAfter_eq_some_iff {depth last : Nat} {braces : List (Nat × Brace)} :
    depthAfter depth (braces.map Prod.snd) = some last ↔
      strayBracesFrom depth braces = [] ∧ openBracesFrom depth braces = last := by
  induction braces generalizing depth with
  | nil => simp [depthAfter, strayBracesFrom, openBracesFrom]
  | cons brace braces ih =>
      obtain ⟨line, brace⟩ := brace
      cases brace with
      | opening => exact ih
      | closing =>
          cases depth with
          | zero => simp [depthAfter, strayBracesFrom]
          | succ depth => exact ih

/-- Nothing is reported just if each brace has its partner. -/
theorem braceIssues_eq_nil_iff (lastLine : Nat) {ls : List NumberedLine} :
    braceIssues lastLine ls = [] ↔ Balanced ((bracesOfLines ls).map Prod.snd) := by
  rw [Latex.Balanced, depthAfter_eq_some_iff, braceIssues, List.append_eq_nil_iff,
    List.map_eq_nil_iff]
  refine and_congr_right fun _ => ?_
  split <;> simp_all

theorem mem_insert {issue other : Issue} {issues : List Issue} :
    other ∈ issue.insert issues ↔ other = issue ∨ other ∈ issues := by
  induction issues with
  | nil => simp [Issue.insert]
  | cons first issues ih =>
      rw [Issue.insert]
      split
      · simp
      · rw [List.mem_cons, ih, List.mem_cons]
        exact or_left_comm

/-- Ordering by line keeps the issues. -/
theorem mem_byLine {issue : Issue} {issues : List Issue} :
    issue ∈ byLine issues ↔ issue ∈ issues := by
  induction issues with
  | nil => exact Iff.rfl
  | cons first issues ih =>
      have step : byLine (first :: issues) = first.insert (byLine issues) := rfl
      rw [step, mem_insert, ih, List.mem_cons]

/-- An issue about braces is about one that closes nothing or about those left open. -/
theorem finding_of_mem_braceIssues {lastLine : Nat} {ls : List NumberedLine} {issue : Issue}
    (member : issue ∈ braceIssues lastLine ls) :
    issue.finding = .strayClosingBrace ∨ ∃ left, issue.finding = .unclosedBraces left := by
  rw [braceIssues, List.mem_append] at member
  rcases member with stray | left
  · obtain ⟨line, -, rfl⟩ := List.mem_map.mp stray
    exact .inl rfl
  · split at left
    · cases left
    · rw [List.mem_singleton.mp left]
      exact .inr ⟨_, rfl⟩

theorem rule_of_mem_braceIssues {lastLine : Nat} {ls : List NumberedLine} {issue : Issue}
    (member : issue ∈ braceIssues lastLine ls) : issue.finding.rule = "brace-balance".toList := by
  rcases finding_of_mem_braceIssues member with stray | ⟨left, unclosed⟩
  · rw [stray]
    rfl
  · rw [unclosed]
    rfl

theorem isError_of_mem_braceIssues {lastLine : Nat} {ls : List NumberedLine} {issue : Issue}
    (member : issue ∈ braceIssues lastLine ls) : issue.isError = true := by
  rw [Issue.isError]
  rcases finding_of_mem_braceIssues member with stray | ⟨left, unclosed⟩
  · rw [stray]
    rfl
  · rw [unclosed]
    rfl

section Verdict

variable {source : Text}

theorem markerIssues_eq_nil (markers : ∀ marker : Marker, marker.text <:+: source) :
    markerIssues source = [] := by
  rw [markerIssues, List.map_eq_nil_iff, List.filter_eq_nil_iff]
  intro marker _
  simp [includes_iff.mpr (markers marker)]

theorem Fit.environmentIssues_eq_nil {ls : List Text} {braces : List Brace} (fit : Fit ls braces) :
    environmentIssues (numbered ls) = [] := by
  have all := fit.environments [] 1 []
  rwa [List.append_nil] at all

/-- **Closed lines pass the gate.** A source of closed lines with all markers has nothing
that stops a build. -/
theorem Closed.blockers_eq_nil (closed : Closed (lines source))
    (markers : ∀ marker : Marker, marker.text <:+: source) : blockers source = [] := by
  obtain ⟨braces, fit, balanced⟩ := closed
  have counted : Balanced
      ((bracesOfLines (unmasked (verbatimMask (lines source)) (numbered (lines source)))).map
        Prod.snd) := by
    have same := fit.counted 1
    rw [countedBraces] at same
    rwa [numbered, same]
  rw [blockers, markerIssues_eq_nil markers, (braceIssues_eq_nil_iff _).mpr counted,
    fit.environmentIssues_eq_nil]
  rfl

/-- Whatever is found in such a source concerns the braces of lines that are no LaTeX. -/
theorem Closed.rule_of_mem_issues (closed : Closed (lines source))
    (markers : ∀ marker : Marker, marker.text <:+: source) {issue : Issue}
    (member : issue ∈ issues source) :
    issue.finding.rule = "brace-balance".toList := by
  obtain ⟨braces, fit, -⟩ := closed
  have titles : titleIssues (verbatimMask (lines source)) (numbered (lines source)) = [] := by
    have all := fit.titles 1 [] []
    rwa [List.append_nil, List.append_nil] at all
  have underscores := fit.underscores 1
  rw [issues, mem_byLine, markerIssues_eq_nil markers, fit.environmentIssues_eq_nil, titles,
    numbered, underscores] at member
  exact rule_of_mem_braceIssues (by simpa using member)

end Verdict

end SlideDeck.Lint
