import SlideDeck.Proofs.Latex.Guarded
import SlideDeck.Proofs.Text.Search

/-!
# Where environments begin and end

In a calm text no environment begins or ends (`environmentEnds_of_calm`). The line that
begins an environment has this one end in it, whatever calm text follows
(`environmentEnds_beginEnvironment`), and so has the line that ends one
(`environmentEnds_endEnvironment`).

The names in question are those of letters (`IsName`): there are no blanks around them to
be trimmed, and nothing in them can be taken for an end of its own.
-/

set_option autoImplicit false

namespace SlideDeck.Latex

open SlideDeck SlideDeck.Text

/-! ## Arguments -/

theorem braced?_eq_some {s argument rest : Text} (found : braced? s = some (argument, rest)) :
    s = '\x7b' :: (argument ++ '\x7d' :: rest) := by
  rw [braced?.eq_def] at found
  split at found
  · rw [(splitOnce_eq_some found).1]
  · cases found

theorem bracketed?_eq_some {s option rest : Text} (found : bracketed? s = some (option, rest)) :
    s = '[' :: (option ++ ']' :: rest) := by
  rw [bracketed?.eq_def] at found
  split at found
  · rw [(splitOnce_eq_some found).1]
  · cases found

theorem dropBracketed_isSuffix (s : Text) : dropBracketed s <:+ s := by
  rw [dropBracketed]
  split
  · next option rest found =>
      rw [bracketed?_eq_some found]
      exact ⟨'[' :: (option ++ [']']), by simp⟩
  · exact List.suffix_rfl

/-! ## Names -/

/-- A name of letters. -/
def IsName (name : Text) : Prop := ∀ c ∈ name, c.isAlpha = true

instance (name : Text) : Decidable (IsName name) :=
  decidable_of_iff (name.all Char.isAlpha = true) List.all_eq_true

namespace IsName

variable {name : Text}

theorem not_mem (isName : IsName name) {c : Char} (noLetter : c.isAlpha = false) : c ∉ name := by
  intro member
  simp [isName c member] at noLetter

theorem trim (isName : IsName name) : trim name = name :=
  trim_of_visible fun c member => isBlank_of_isAlpha (isName c member)

theorem isLoose (isName : IsName name) : ∀ c ∈ name, isLoose c = true := by
  intro c member
  have letter := isName c member
  refine isLoose_iff.mpr ⟨?_, ?_, ?_⟩ <;> rintro rfl <;> exact absurd letter (by decide)

theorem guarded_group {second : Char → Bool} (isName : IsName name) :
    Guarded second false (group name) := by
  refine .of_loose fun c member => ?_
  simp only [group, List.cons_append, List.mem_cons, List.mem_append, List.not_mem_nil,
    or_false] at member
  rcases member with rfl | member | rfl
  · decide
  · exact isName.isLoose c member
  · decide

theorem bracesOf_group (isName : IsName name) : bracesOf (group name) = [.opening, .closing] := by
  have opening : Guarded escapable false ['\x7b'] := by decide
  have inner : Guarded escapable false name := .of_loose isName.isLoose
  have braceless : bracesOf name = [] :=
    bracesOf_eq_nil isName.isLoose (isName.not_mem (by decide)) (isName.not_mem (by decide))
  calc bracesOf (group name) = bracesOf (['\x7b'] ++ (name ++ ['\x7d'])) := rfl
    _ = [.opening, .closing] := by
      rw [opening.bracesOf_append, inner.bracesOf_append, braceless]
      rfl

end IsName

/-- A command with a name for its argument is guarded, and its braces are a pair. -/
theorem guarded_command {head name : Text} (start : Guarded escapable false ('\\' :: head))
    (braceless : bracesOf ('\\' :: head) = []) (isName : IsName name) :
    Guarded escapable false (command head name) ∧
      bracesOf (command head name) = [.opening, .closing] := by
  refine ⟨start.append isName.guarded_group, ?_⟩
  calc bracesOf (command head name) = bracesOf ('\\' :: head ++ group name) := rfl
    _ = [.opening, .closing] := by
      rw [start.bracesOf_append, isName.bracesOf_group, braceless]
      rfl

theorem guarded_beginEnvironment {name : Text} (isName : IsName name) :
    Guarded escapable false (beginEnvironment name) ∧
      bracesOf (beginEnvironment name) = [.opening, .closing] :=
  guarded_command (by decide) (by decide) isName

theorem guarded_endEnvironment {name : Text} (isName : IsName name) :
    Guarded escapable false (endEnvironment name) ∧
      bracesOf (endEnvironment name) = [.opening, .closing] :=
  guarded_command (by decide) (by decide) isName

/-! ## The ends in a text -/

theorem environmentEnd?_eq_some {s rest : Text} {found : EnvironmentEnd}
    (answer : environmentEnd? s = some (found, rest)) :
    (∃ name, found = .opens (trim name) ∧ s = beginEnvironment name ++ rest) ∨
      ∃ name, found = .closes (trim name) ∧ s = endEnvironment name ++ rest := by
  rw [environmentEnd?] at answer
  split at answer
  · next behind skipped =>
      obtain ⟨⟨name, later⟩, braced, same⟩ := Option.map_eq_some_iff.mp answer
      cases same
      obtain rfl := braced?_eq_some braced
      refine .inl ⟨name, rfl, ?_⟩
      rw [skip?_eq_some_iff.mp skipped]
      simp [beginEnvironment, command, group]
  · obtain ⟨behind, skipped, answer⟩ := Option.bind_eq_some_iff.mp answer
    obtain ⟨⟨name, later⟩, braced, same⟩ := Option.map_eq_some_iff.mp answer
    cases same
    obtain rfl := braced?_eq_some braced
    refine .inr ⟨name, rfl, ?_⟩
    rw [skip?_eq_some_iff.mp skipped]
    simp [endEnvironment, command, group]

theorem begin_isInfix (name : Text) : "\\begin".toList <:+: beginEnvironment name :=
  ⟨[], group name, rfl⟩

theorem end_isInfix (name : Text) : "\\end".toList <:+: endEnvironment name :=
  ⟨[], group name, rfl⟩

/-- In a calm text no environment begins or ends. -/
theorem environmentEnds_of_calm {s : Text} (calm : Calm s) : environmentEnds s = [] := by
  refine List.eq_nil_iff_forall_not_mem.mpr fun found member => ?_
  obtain ⟨t, rest, part, answer⟩ := exists_of_mem_matchesOf member
  rcases environmentEnd?_eq_some answer with ⟨name, -, rfl⟩ | ⟨name, -, rfl⟩
  · exact calm.1 (((begin_isInfix name).trans (List.infix_append' [] _ rest)).trans part.isInfix)
  · exact calm.2 (((end_isInfix name).trans (List.infix_append' [] _ rest)).trans part.isInfix)

/-- Without the beginning of an end no environment ends. -/
theorem exists_opens_of_mem_environmentEnds {s : Text} {found : EnvironmentEnd}
    (noEnd : ¬ "\\end\x7b".toList <:+: s) (member : found ∈ environmentEnds s) :
    ∃ name, found = .opens name := by
  obtain ⟨t, rest, part, answer⟩ := exists_of_mem_matchesOf member
  rcases environmentEnd?_eq_some answer with ⟨name, same, -⟩ | ⟨name, -, rfl⟩
  · exact ⟨_, same⟩
  · refine absurd (List.IsInfix.trans ?_ part.isInfix) noEnd
    exact ⟨[], name ++ '\x7d' :: rest, by simp [endEnvironment, command, group]⟩

/-! ## The ends that are written -/

variable {name other args : Text}

theorem braced?_group (isName : IsName name) (rest : Text) :
    braced? (group name ++ rest) = some (name, rest) := by
  have whole : group name ++ rest = '\x7b' :: (name ++ '\x7d' :: rest) := by simp [group]
  rw [whole, braced?]
  exact splitOnce_append (isName.not_mem (by decide)) rest

/-- Behind its name the beginning of an environment ends. -/
theorem environmentEnds_beginEnvironment (isName : IsName name) (calm : Calm args) :
    environmentEnds (beginEnvironment name ++ args) = [.opens name] := by
  have answer : environmentEnd? (beginEnvironment name ++ args) = some (.opens name, args) := by
    have start : skip? "\\begin".toList (beginEnvironment name ++ args) =
        some (group name ++ args) := rfl
    rw [environmentEnd?, start]
    simp [braced?_group isName, isName.trim]
  have behind : args <:+ "begin".toList ++ group name ++ args := List.suffix_append _ _
  calc environmentEnds (beginEnvironment name ++ args)
      = .opens name :: environmentEnds args := matchesOf_cons_of_some answer behind
    _ = [.opens name] := by rw [environmentEnds_of_calm calm]

theorem environmentEnds_endEnvironment (isName : IsName name) :
    environmentEnds (endEnvironment name) = [.closes name] := by
  have answer : environmentEnd? (endEnvironment name) = some (.closes name, []) := by
    have noBegin : skip? "\\begin".toList (endEnvironment name) = none := rfl
    have start : skip? "\\end".toList (endEnvironment name) = some (group name) := rfl
    have argument : braced? (group name) = some (name, []) := by
      simpa using braced?_group isName []
    rw [environmentEnd?, noBegin, start]
    simp [argument, isName.trim]
  exact matchesOf_cons_of_some answer (List.nil_suffix)

theorem IsName.slash_not_mem_group (isName : IsName name) : '\\' ∉ group name := by
  simp [group, isName.not_mem (c := '\\') (by decide)]

/-- The only end on a line that begins an environment is its beginning. -/
theorem isInfix_of_isInfix_beginEnvironment (isName : IsName name) {command : Text}
    (occurs : '\\' :: command <:+: beginEnvironment name ++ args) :
    '\\' :: command <+: beginEnvironment name ++ args ∨ '\\' :: command <:+: args := by
  have absent : '\\' ∉ "begin".toList ++ group name := by
    simp [isName.slash_not_mem_group]
  exact (List.infix_cons_iff.mp occurs).imp_right (isInfix_of_isInfix_append absent)

/-- On a line that begins an environment no other begins. -/
theorem not_isInfix_beginEnvironment (isName : IsName name) (isOther : IsName other)
    (differ : other ≠ name) (calm : Calm args) :
    ¬ beginEnvironment other <:+: beginEnvironment name ++ args := by
  intro occurs
  rcases isInfix_of_isInfix_beginEnvironment isName occurs with ⟨rest, whole⟩ | later
  · -- Both names stand between the same braces.
    have start : "\\begin".toList ++ (group other ++ rest) =
        "\\begin".toList ++ (group name ++ args) := whole
    have same := List.append_cancel_left start
    have both := braced?_group isOther rest
    rw [same, braced?_group isName] at both
    exact differ (congrArg Prod.fst (Option.some.inj both)).symm
  · exact calm.1 ((begin_isInfix other).trans later)

/-- On a line that begins an environment none ends. -/
theorem end_not_isInfix_beginEnvironment (isName : IsName name) (calm : Calm args) :
    ¬ "\\end".toList <:+: beginEnvironment name ++ args := by
  intro occurs
  rcases isInfix_of_isInfix_beginEnvironment isName occurs with begins | later
  · have next := (List.cons_prefix_cons.mp begins).2
    exact absurd (List.cons_prefix_cons.mp next).1 (by decide)
  · exact calm.2 later

theorem not_isInfix_endEnvironment (isName : IsName name) :
    ¬ "\\begin".toList <:+: endEnvironment name := by
  intro occurs
  rcases List.infix_cons_iff.mp occurs with begins | later
  · have next := (List.cons_prefix_cons.mp begins).2
    exact absurd (List.cons_prefix_cons.mp next).1 (by decide)
  · have absent : '\\' ∉ "end".toList ++ group name := by
      simp [isName.slash_not_mem_group]
    have behind : "\\begin".toList <:+: "end".toList ++ group name ++ [] := by
      rwa [List.append_nil]
    exact absurd (List.infix_nil.mp (isInfix_of_isInfix_append absent behind)) (by simp)

end SlideDeck.Latex
