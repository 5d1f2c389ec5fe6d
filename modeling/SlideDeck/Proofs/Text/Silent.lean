import SlideDeck.Proofs.Text.Lines

/-!
# Parts in which nothing is found

A part of a text is *silent* for a scanner (`Silent`) when the scanner answers nothing at any
of its characters, whatever stands behind the part. Substituting, searching and splitting
then go through the part as if it were not there.

A scanner that looks for one of some literal texts first (`LedBy`) is silent in a part that these
texts are apart from: at each character one of the two has a character that the other does not
have there (`LedBy.silent`). That is decidable, so it can be checked once for all texts of
a vocabulary.
-/

set_option autoImplicit false

namespace SlideDeck.Text

variable {α : Type}

/-- A part at whose characters the scanner answers nothing, whatever stands behind it. -/
def Silent (look : Text → Option α) : Text → Prop
  | [] => True
  | c :: s => (∀ t, look (c :: (s ++ t)) = none) ∧ Silent look s

/-- Whether neither text is the beginning of the other. -/
def apart (s t : Text) : Bool := !s.isPrefixOf t && !t.isPrefixOf s

/-- Whether the literal text is apart from what begins at each character. -/
def avoids (literal : Text) : Text → Bool
  | [] => true
  | c :: s => apart literal (c :: s) && avoids literal s

theorem not_isPrefix_of_apart {literal s : Text} (isApart : apart literal s = true) (t : Text) :
    ¬ literal <+: s ++ t := by
  intro begins
  simp only [apart, Bool.and_eq_true, Bool.not_eq_true', ← Bool.not_eq_true,
    List.isPrefixOf_iff_prefix] at isApart
  rcases List.prefix_or_prefix_of_prefix begins (List.prefix_append s t) with first | second
  · exact isApart.1 first
  · exact isApart.2 second

/-- A scanner that answers only where one of the literal texts begins. -/
def LedBy (literals : List Text) (look : Text → Option α) : Prop :=
  ∀ t, look t ≠ none → ∃ literal ∈ literals, literal <+: t

namespace LedBy

variable {β : Type} {literals : List Text} {look : Text → Option α}

theorem skip (literal : Text) : LedBy [literal] (skip? literal) := by
  intro t answers
  obtain ⟨rest, found⟩ := Option.ne_none_iff_exists'.mp answers
  exact ⟨literal, List.mem_singleton_self literal, rest, (skip?_eq_some_iff.mp found).symm⟩

theorem bind (led : LedBy literals look) (use : α → Option β) :
    LedBy literals fun s => (look s).bind use := by
  intro t answers
  refine led t fun quiet => answers ?_
  simp only [quiet, Option.bind_none]

theorem map (led : LedBy literals look) (use : α → β) :
    LedBy literals fun s => (look s).map use := by
  intro t answers
  refine led t fun quiet => answers ?_
  simp only [quiet, Option.map_none]

theorem findSome? {names : List β} {write : β → Text} {look : β → Text → Option α}
    (each : ∀ name, LedBy [write name] (look name)) :
    LedBy (names.map write) fun s => names.findSome? fun name => look name s := by
  intro t answers
  obtain ⟨answer, found⟩ := Option.ne_none_iff_exists'.mp answers
  obtain ⟨name, member, here⟩ := List.exists_of_findSome?_eq_some found
  obtain ⟨literal, isName, begins⟩ := each name t (here ▸ Option.some_ne_none answer)
  exact ⟨literal, List.mem_singleton.mp isName ▸ List.mem_map_of_mem member, begins⟩

/-- A scanner is silent where the texts that lead it are apart. -/
theorem silent {s : Text} (led : LedBy literals look)
    (each : ∀ literal ∈ literals, avoids literal s = true) : Silent look s := by
  induction s with
  | nil => trivial
  | cons c s ih =>
      have here : ∀ literal ∈ literals, apart literal (c :: s) = true ∧ avoids literal s = true :=
        fun literal member => Bool.and_eq_true_iff.mp (each literal member)
      refine ⟨fun t => ?_, ih fun literal member => (here literal member).2⟩
      by_contra answers
      obtain ⟨literal, member, begins⟩ := led _ answers
      exact not_isPrefix_of_apart (here literal member).1 t begins

end LedBy

theorem silent_skip {literal s : Text} (apart : avoids literal s = true) :
    Silent (skip? literal) s :=
  (LedBy.skip literal).silent (List.forall_mem_singleton.mpr apart)

/-- The scanner of a text without newlines is silent in a line that does not hold the text. -/
theorem silent_skip_line {literal line : Text} (oneLine : '\n' ∉ literal)
    (absent : ¬ literal <:+: line) : Silent (skip? literal) (line ++ ['\n']) := by
  induction line with
  | nil =>
      refine ⟨fun t => skip?_eq_none fun begins => absent ?_, trivial⟩
      exact (isPrefix_of_isPrefix_append_cons (s := []) oneLine begins).isInfix
  | cons c line ih =>
      have later := ih fun occurs => absent (occurs.trans (List.suffix_cons c line).isInfix)
      refine ⟨fun t => skip?_eq_none fun begins => absent ?_, later⟩
      have whole : c :: (line ++ ['\n'] ++ t) = (c :: line) ++ '\n' :: t := by simp
      change literal <+: c :: (line ++ ['\n'] ++ t) at begins
      rw [whole] at begins
      exact (isPrefix_of_isPrefix_append_cons oneLine begins).isInfix

/-- A literal text is apart from all text without its first character. -/
theorem avoids_of_not_mem {c : Char} {literal s : Text} (absent : c ∉ s) :
    avoids (c :: literal) s = true := by
  induction s with
  | nil => rfl
  | cons d s ih =>
      rw [List.mem_cons, not_or] at absent
      simp [avoids, apart, List.isPrefixOf, absent.1, Ne.symm absent.1, ih absent.2]

namespace Silent

variable {look : Text → Option α} {s t : Text}

theorem append (first : Silent look s) (second : Silent look t) : Silent look (s ++ t) := by
  induction s with
  | nil => exact second
  | cons c s ih => exact ⟨fun behind => by simpa using first.1 (t ++ behind), ih first.2⟩

theorem of_isSuffix (silent : Silent look s) (part : t <:+ s) : Silent look t := by
  obtain ⟨front, rfl⟩ := part
  induction front with
  | nil => exact silent
  | cons c front ih => exact ih silent.2

theorem join {separator : Text} {pieces : List Text} (between : Silent look separator)
    (each : ∀ piece ∈ pieces, Silent look piece) : Silent look (Text.join separator pieces) :=
  join_induction (Silent look) trivial append between each

theorem flatMap {β : Type} {items : List β} {write : β → Text}
    (each : ∀ item ∈ items, Silent look (write item)) : Silent look (items.flatMap write) := by
  induction items with
  | nil => trivial
  | cons item items ih =>
      rw [List.forall_mem_cons] at each
      exact each.1.append (ih each.2)

/-- What is done with an answer does not matter. -/
theorem map {β : Type} (use : α → β) (silent : Silent look s) :
    Silent (fun s => (look s).map use) s := by
  induction s with
  | nil => trivial
  | cons c s ih => exact ⟨fun t => Option.map_eq_none_iff.mpr (silent.1 t), ih silent.2⟩

theorem bind {β : Type} (use : α → Option β) (silent : Silent look s) :
    Silent (fun s => (look s).bind use) s := by
  induction s with
  | nil => trivial
  | cons c s ih =>
      refine ⟨fun t => ?_, ih silent.2⟩
      change (look (c :: (s ++ t))).bind use = none
      rw [silent.1 t]
      rfl

theorem findSome? {β : Type} {names : List β} {look : β → Text → Option α}
    (each : ∀ name ∈ names, Silent (look name) s) :
    Silent (fun s => names.findSome? fun name => look name s) s := by
  induction s with
  | nil => trivial
  | cons c s ih =>
      refine ⟨fun t => ?_, ih fun name member => (each name member).2⟩
      exact List.findSome?_eq_none_iff.mpr fun name member => (each name member).1 t

/-! ## What searching does there -/

theorem substitute_append {matcher : Matcher Text} (silent : Silent matcher s) (t : Text) :
    substitute matcher (s ++ t) = s ++ substitute matcher t := by
  induction s with
  | nil => rfl
  | cons c s ih =>
      rw [List.cons_append, substitute_cons_of_none (silent.1 t), ih silent.2, List.cons_append]

theorem substitute_eq_self {matcher : Matcher Text} (silent : Silent matcher s) :
    substitute matcher s = s := by
  simpa using silent.substitute_append []

theorem matchesOf_append {matcher : Matcher α} (silent : Silent matcher s) (t : Text) :
    matchesOf matcher (s ++ t) = matchesOf matcher t := by
  induction s with
  | nil => rfl
  | cons c s ih => rw [List.cons_append, matchesOf_cons_of_none (silent.1 t), ih silent.2]

theorem startsWith_eq_false {c : Char} {literal : Text} (silent : Silent (skip? (c :: literal)) s) :
    startsWith (c :: literal) s = false := by
  rw [Bool.eq_false_iff, Ne, startsWith_iff]
  rintro ⟨rest, rfl⟩
  have found : skip? (c :: literal) (c :: (literal ++ rest)) = some rest :=
    skip?_eq_some_iff.mpr rfl
  have quiet : skip? (c :: literal) (c :: (literal ++ rest ++ [])) = none := silent.1 []
  rw [List.append_nil, found] at quiet
  cases quiet

/-- A literal text does not occur where its scanner is silent. -/
theorem not_isInfix {literal : Text} (nonempty : literal ≠ []) (silent : Silent (skip? literal) s) :
    ¬ literal <:+: s := by
  obtain ⟨c, literal, rfl⟩ := List.exists_cons_of_ne_nil nonempty
  rintro ⟨front, back, rfl⟩
  rw [List.append_assoc] at silent
  have here := silent.of_isSuffix (List.suffix_append front _)
  have quiet := here.startsWith_eq_false
  rw [startsWith_iff.mpr (List.prefix_append _ back)] at quiet
  cases quiet

theorem splitOnText?_append {c : Char} {literal : Text} (silent : Silent (skip? (c :: literal)) s)
    (after : Text) :
    splitOnText? (c :: literal) (s ++ (c :: literal ++ after)) = some (s, after) := by
  induction s with
  | nil => exact Text.splitOnText?_append c literal after
  | cons d s ih =>
      have later := ih silent.2
      rw [splitOnText?] at later ⊢
      rw [List.cons_append, splitBefore, silent.1]
      simp only [if_true, later, Option.map_some]

theorem splitFrom_append {separator : Text → Option Text} (silent : Silent separator s)
    {piece : Text} {pieces : List Text} (behind : splitFrom separator 0 t = piece :: pieces) :
    splitFrom separator 0 (s ++ t) = (s ++ piece) :: pieces := by
  induction s with
  | nil => exact behind
  | cons c s ih => rw [List.cons_append, splitFrom, silent.1, ih silent.2]; rfl

theorem splitOnText_append {c : Char} {literal : Text} (silent : Silent (skip? (c :: literal)) s)
    (t : Text) :
    splitOnText (c :: literal) (s ++ (c :: literal ++ t)) = s :: splitOnText (c :: literal) t := by
  have found : skip? (c :: literal) (c :: literal ++ t) = some t := skip?_eq_some_iff.mpr rfl
  have cut := silent.splitFrom_append (splitFrom_cons_of_some found (List.suffix_append literal t))
  rwa [List.append_nil] at cut

theorem splitOnText_eq_self {literal : Text} (silent : Silent (skip? literal) s) :
    splitOnText literal s = [s] := by
  have behind : splitFrom (skip? literal) 0 [] = [[]] := rfl
  have cut := silent.splitFrom_append behind
  rwa [List.append_nil] at cut

end Silent

/-- Where a whole word is matched, its replacement stands whatever follows. -/
theorem substitute_append_of_some {matcher : Matcher Text} {word replacement rest : Text}
    (found : matcher (word ++ rest) = some (replacement, rest)) (nonempty : word ≠ []) :
    substitute matcher (word ++ rest) = replacement ++ substitute matcher rest := by
  obtain ⟨c, word, rfl⟩ := List.exists_cons_of_ne_nil nonempty
  exact substitute_cons_of_some found (List.suffix_append word rest)

/-! ## Counting -/

/-- How often a text occurs in another, without overlap. -/
def occurrences (literal s : Text) : Nat :=
  (matchesOf (fun s => (skip? literal s).map fun rest => ((), rest)) s).length

section Occurrences

variable {c d : Char} {literal s : Text}

theorem occurrences_append_self (c : Char) (literal s : Text) :
    occurrences (c :: literal) (c :: literal ++ s) = occurrences (c :: literal) s + 1 := by
  have skipped : skip? (c :: literal) (c :: literal ++ s) = some s := skip?_eq_some_iff.mpr rfl
  have found : (fun s => (skip? (c :: literal) s).map fun rest => ((), rest)) (c :: literal ++ s) =
      some ((), s) := by
    simp only [skipped, Option.map_some]
  exact congrArg List.length (matchesOf_cons_of_some found (List.suffix_append literal s))

theorem occurrences_cons (other : ¬ literal <+: d :: s) :
    occurrences literal (d :: s) = occurrences literal s := by
  refine congrArg List.length (matchesOf_cons_of_none ?_)
  rw [skip?_eq_none other]
  rfl

theorem Silent.occurrences_append (silent : Silent (skip? literal) s) (t : Text) :
    occurrences literal (s ++ t) = occurrences literal t :=
  congrArg List.length ((silent.map _).matchesOf_append t)

end Occurrences

end SlideDeck.Text
