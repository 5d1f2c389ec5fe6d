import Mathlib.Data.List.TakeWhile
import Mathlib.Data.Nat.Init
import SlideDeck.Text.Search

/-!
# What searching leaves

Where a text is cut, and what the pieces have to do with it: cutting at the first
separator (`splitOnce_eq_some`), at the first place where something begins
(`splitBefore_eq_some`) and at the first occurrence of a text
(`splitOnText?_eq_some`).

A search passes a match as a whole, so what is said of searches is proved by an induction along
the matches (`pass_induction`), and of replacing along the occurrences (`occurrence_induction`).

A part of a text in which no match begins is left alone by substituting
(`substitute_append_of_quiet`), and it stays in one piece when the text is split
(`splitFrom_append_of_quiet`). What substituting writes comes from the text or from a
replacement (`mem_substitute`).
-/

set_option autoImplicit false

namespace SlideDeck.Text

/-! ## Cutting a text -/

theorem splitOnce_eq_some {sep : Char} {s before after : Text}
    (cut : splitOnce sep s = some (before, after)) :
    s = before ++ sep :: after ∧ sep ∉ before := by
  induction s generalizing before with
  | nil => simp [splitOnce] at cut
  | cons c cs ih =>
      rw [splitOnce] at cut
      split at cut
      · next same => simp_all
      · next differ =>
          obtain ⟨⟨first, behind⟩, found, same⟩ := Option.map_eq_some_iff.mp cut
          cases same
          obtain ⟨rfl, absent⟩ := ih found
          exact ⟨rfl, by simp [absent, Ne.symm differ]⟩

/-- Cutting at the first separator of a text that has one behind it. -/
theorem splitOnce_append_cons (sep : Char) (s t : Text) :
    ∃ after, splitOnce sep (s ++ sep :: t) = some (s.takeWhile (· != sep), after) := by
  induction s with
  | nil => exact ⟨t, by simp [splitOnce]⟩
  | cons c s ih =>
      obtain ⟨after, cut⟩ := ih
      by_cases same : c = sep
      · exact ⟨s ++ sep :: t, by simp [splitOnce, same]⟩
      · exact ⟨after, by simp [splitOnce, same, cut]⟩

theorem splitBefore_eq_some {α : Type} {allowed : Char → Bool} {stop : Text → Option α}
    {s before : Text} {found : α} (cut : splitBefore allowed stop s = some (before, found)) :
    ∃ rest, s = before ++ rest ∧ stop rest = some found := by
  induction s generalizing before with
  | nil =>
      obtain ⟨value, stopped, same⟩ := Option.map_eq_some_iff.mp cut
      cases same
      exact ⟨[], rfl, stopped⟩
  | cons c cs ih =>
      rw [splitBefore] at cut
      split at cut
      · next value stopped =>
          cases cut
          exact ⟨c :: cs, rfl, stopped⟩
      · split at cut
        · obtain ⟨⟨first, value⟩, later, same⟩ := Option.map_eq_some_iff.mp cut
          cases same
          obtain ⟨rest, rfl, stopped⟩ := ih later
          exact ⟨rest, rfl, stopped⟩
        · cases cut

theorem splitOnText?_eq_some {literal s before after : Text}
    (cut : splitOnText? literal s = some (before, after)) : s = before ++ (literal ++ after) := by
  obtain ⟨rest, rfl, found⟩ := splitBefore_eq_some cut
  rw [skip?_eq_some_iff.mp found]

/-- What a search finds is found somewhere. -/
theorem exists_of_find?_eq_some {α : Type} {look : Text → Option α} {s : Text} {found : α}
    (search : find? look s = some found) :
    ∃ front rest, s = front ++ rest ∧ look rest = some found := by
  induction s with
  | nil => exact ⟨[], [], rfl, search⟩
  | cons c cs ih =>
      rcases Option.or_eq_some_iff.mp search with here | ⟨-, later⟩
      · exact ⟨[], c :: cs, rfl, here⟩
      · obtain ⟨front, rest, rfl, seen⟩ := ih later
        exact ⟨c :: front, rest, rfl, seen⟩

/-- What is seen at the front is what a search finds. -/
theorem find?_of_eq_some {α : Type} {look : Text → Option α} {s : Text} {found : α}
    (seen : look s = some found) : find? look s = some found := by
  cases s with
  | nil => exact seen
  | cons c cs => rw [find?, seen, Option.some_or]

theorem includes_iff {literal s : Text} : includes literal s = true ↔ literal <:+: s := by
  induction s with
  | nil => simp [includes]
  | cons c s ih => rw [includes, Bool.or_eq_true, startsWith_iff, ih, List.infix_cons_iff]

theorem splitOnText?_eq_none {literal s : Text} (absent : ¬ literal <:+: s) :
    splitOnText? literal s = none := by
  cases cut : splitOnText? literal s with
  | none => rfl
  | some parts =>
      obtain ⟨before, after⟩ := parts
      exact absurd ⟨before, after, by rw [splitOnText?_eq_some cut, List.append_assoc]⟩ absent

theorem skip?_eq_none {literal s : Text} (absent : ¬ literal <+: s) : skip? literal s = none := by
  cases found : skip? literal s with
  | none => rfl
  | some rest => exact absurd ⟨rest, (skip?_eq_some_iff.mp found).symm⟩ absent

theorem splitOnText?_append (c : Char) (literal after : Text) :
    splitOnText? (c :: literal) (c :: literal ++ after) = some ([], after) := by
  have found : skip? (c :: literal) (c :: literal ++ after) = some after :=
    skip?_eq_some_iff.mpr rfl
  rw [List.cons_append] at found
  rw [splitOnText?, List.cons_append, splitBefore, found]

/-- Cutting at the first separator, where the part before it holds none. -/
theorem splitOnce_append {sep : Char} {before : Text} (absent : sep ∉ before) (after : Text) :
    splitOnce sep (before ++ sep :: after) = some (before, after) := by
  induction before with
  | nil => simp [splitOnce]
  | cons c before ih =>
      rw [List.mem_cons, not_or] at absent
      simp [splitOnce, Ne.symm absent.1, ih absent.2]

/-- Cutting where something stops first: `stop` answers nothing at the characters of the part
before it. -/
theorem splitBefore_append {α : Type} {stop : Text → Option α} {before rest : Text} {found : α}
    (quiet : ∀ c cs, c :: cs <:+ before → stop (c :: (cs ++ rest)) = none)
    (stopped : stop rest = some found) :
    splitBefore (fun _ => true) stop (before ++ rest) = some (before, found) := by
  induction before with
  | nil => cases rest <;> simp [splitBefore, stopped]
  | cons c before ih =>
      have here := quiet c before List.suffix_rfl
      have later := ih fun d ds part => quiet d ds (part.trans (List.suffix_cons c before))
      simp [splitBefore, here, later]

/-- What occurs behind characters with none of which it begins occurs without them. -/
theorem isInfix_of_isInfix_append {c : Char} {literal front s : Text} (absent : c ∉ front)
    (occurs : c :: literal <:+: front ++ s) : c :: literal <:+: s := by
  induction front with
  | nil => exact occurs
  | cons d front ih =>
      rw [List.mem_cons, not_or] at absent
      rcases List.infix_cons_iff.mp occurs with begins | later
      · exact absurd (List.cons_prefix_cons.mp begins).1 absent.1
      · exact ih absent.2 later

/-! ## The matches in a text -/

/-- Skipping covered characters is dropping them. -/
theorem matchesFrom_eq_drop {α : Type} (matcher : Matcher α) (covered : Nat) (s : Text) :
    matchesFrom matcher covered s = matchesOf matcher (s.drop covered) := by
  induction s generalizing covered with
  | nil => cases covered <;> rfl
  | cons c cs ih =>
      cases covered with
      | zero => rfl
      | succ covered => simpa [matchesFrom] using ih covered

theorem matchesOf_cons_of_none {α : Type} {matcher : Matcher α} {c : Char} {cs : Text}
    (quiet : matcher (c :: cs) = none) : matchesOf matcher (c :: cs) = matchesOf matcher cs := by
  simp [matchesOf, matchesFrom, quiet]

theorem matchesOf_cons_of_some {α : Type} {matcher : Matcher α} {c : Char} {cs rest : Text}
    {found : α} (answer : matcher (c :: cs) = some (found, rest)) (isRest : rest <:+ cs) :
    matchesOf matcher (c :: cs) = found :: matchesOf matcher rest := by
  obtain ⟨used, rfl⟩ := isRest
  have start : matchesOf matcher (c :: (used ++ rest)) =
      found :: matchesFrom matcher ((used ++ rest).length - rest.length) (used ++ rest) := by
    simp only [matchesOf, matchesFrom, answer]
  rw [start, matchesFrom_eq_drop]
  simp

/-- A match is one somewhere in the text. -/
theorem exists_of_mem_matchesOf {α : Type} {matcher : Matcher α} {s : Text} {found : α}
    (member : found ∈ matchesOf matcher s) :
    ∃ t rest, t <:+ s ∧ matcher t = some (found, rest) := by
  rw [matchesOf] at member
  generalize 0 = covered at member
  induction s generalizing covered with
  | nil => cases covered <;> simp [matchesFrom] at member
  | cons c s ih =>
      have later : ∀ covered, found ∈ matchesFrom matcher covered s →
          ∃ t rest, t <:+ c :: s ∧ matcher t = some (found, rest) := by
        intro covered member
        obtain ⟨t, rest, part, answer⟩ := ih covered member
        exact ⟨t, rest, part.trans (List.suffix_cons c s), answer⟩
      cases covered with
      | succ covered => exact later covered member
      | zero =>
          rw [matchesFrom] at member
          split at member
          · next first rest answer =>
              rcases List.mem_cons.mp member with rfl | member
              · exact ⟨c :: s, rest, List.suffix_rfl, answer⟩
              · exact later _ member
          · exact later 0 member

/-! ## Induction along the matches -/

/-- The induction of a search from left to right: where the matcher answers, the match is passed as
a whole, elsewhere one character. What holds behind a match is known only where something shorter
stands there (`rest <:+ s`). -/
@[elab_as_elim]
theorem pass_induction {α : Type} (matcher : Matcher α) {motive : Text → Prop} (nil : motive [])
    (quiet : ∀ c s, matcher (c :: s) = none → motive s → motive (c :: s))
    (found : ∀ c s answer rest, matcher (c :: s) = some (answer, rest) →
      (rest <:+ s → motive rest) → motive (c :: s))
    (s : Text) : motive s := by
  induction size : s.length using Nat.strong_induction_on generalizing s with
  | _ n ih =>
      subst size
      cases s with
      | nil => exact nil
      | cons c s =>
          cases seen : matcher (c :: s) with
          | none => exact quiet c s seen (ih s.length (by simp) s rfl)
          | some matched =>
              refine found c s matched.1 matched.2 seen fun isRest => ih matched.2.length ?_ _ rfl
              exact Nat.lt_succ_of_le isRest.length_le

/-- The induction of a replacement: an occurrence of the text is passed as a whole, elsewhere one
character. -/
@[elab_as_elim]
theorem occurrence_induction (d : Char) (literal : Text) {motive : Text → Prop} (nil : motive [])
    (occurs : ∀ rest, motive rest → motive (d :: literal ++ rest))
    (other : ∀ c s, ¬ d :: literal <+: c :: s → motive s → motive (c :: s))
    (s : Text) : motive s := by
  induction s using pass_induction (literally (d :: literal) []) with
  | nil => exact nil
  | quiet c s unmatched ih =>
      refine other c s (fun begins => ?_) ih
      obtain ⟨rest, whole⟩ := begins
      have skipped : skip? (d :: literal) (c :: s) = some rest := skip?_eq_some_iff.mpr whole.symm
      rw [literally, skipped] at unmatched
      cases unmatched
  | found c s answer rest matched ih =>
      obtain ⟨behind, skipped, same⟩ := Option.map_eq_some_iff.mp matched
      cases same
      have whole := skip?_eq_some_iff.mp skipped
      obtain ⟨rfl, rfl⟩ := List.cons.inj whole
      exact occurs rest (ih (List.suffix_append literal rest))

/-! ## Parts without a match -/

/-- Substituting leaves a part alone in which no match begins. -/
theorem substitute_append_of_quiet {matcher : Matcher Text} {s t : Text}
    (quiet : ∀ c ∈ s, ∀ cs, matcher (c :: cs) = none) :
    substitute matcher (s ++ t) = s ++ substitute matcher t := by
  induction s with
  | nil => rfl
  | cons c s ih =>
      rw [List.forall_mem_cons] at quiet
      rw [List.cons_append, substitute_cons_of_none (quiet.1 _), ih quiet.2, List.cons_append]

/-- Substituting leaves a text alone if the matcher answers nowhere in it. -/
theorem substitute_eq_self {matcher : Matcher Text} {s : Text}
    (quiet : ∀ c cs, c :: cs <:+ s → matcher (c :: cs) = none) : substitute matcher s = s := by
  induction s with
  | nil => rfl
  | cons c s ih =>
      have later := ih fun d ds part => quiet d ds (part.trans (List.suffix_cons c s))
      rw [substitute_cons_of_none (quiet c s List.suffix_rfl), later]

/-- What does not occur is not replaced. -/
theorem replace_eq_self {literal s : Text} (replacement : Text) (absent : ¬ literal <:+: s) :
    replace literal replacement s = s := by
  refine substitute_eq_self fun c cs part => ?_
  have quiet : skip? literal (c :: cs) = none := skip?_eq_none fun begins =>
    absent (begins.isInfix.trans part.isInfix)
  rw [literally, quiet]
  rfl

/-! ## What substituting writes -/

theorem mem_substituteFrom {matcher : Matcher Text} {covered : Nat} {s : Text} {c : Char}
    (member : c ∈ substituteFrom matcher covered s) :
    c ∈ s ∨ ∃ t replacement rest,
      t <:+ s ∧ matcher t = some (replacement, rest) ∧ c ∈ replacement := by
  induction s generalizing covered with
  | nil => cases covered <;> simp [substituteFrom] at member
  | cons d s ih =>
      have later : ∀ {covered}, c ∈ substituteFrom matcher covered s → c ∈ d :: s ∨
          ∃ t replacement rest,
            t <:+ d :: s ∧ matcher t = some (replacement, rest) ∧ c ∈ replacement := by
        intro covered member
        rcases ih member with kept | ⟨t, replacement, rest, isRest, found, written⟩
        · exact .inl (List.mem_cons_of_mem d kept)
        · exact .inr ⟨t, replacement, rest, isRest.trans (List.suffix_cons d s), found, written⟩
      cases covered with
      | succ covered => exact later member
      | zero =>
          rw [substituteFrom] at member
          split at member
          · next replacement rest found =>
              rcases List.mem_append.mp member with written | member
              · exact .inr ⟨d :: s, replacement, rest, List.suffix_rfl, found, written⟩
              · exact later member
          · rcases List.mem_cons.mp member with rfl | member
            · exact .inl List.mem_cons_self
            · exact later member

/-- A character of the result comes from the text or from a replacement. -/
theorem mem_substitute {matcher : Matcher Text} {s : Text} {c : Char}
    (member : c ∈ substitute matcher s) :
    c ∈ s ∨ ∃ t replacement rest,
      t <:+ s ∧ matcher t = some (replacement, rest) ∧ c ∈ replacement :=
  mem_substituteFrom member

theorem not_mem_replace {literal replacement s : Text} {c : Char} (absent : c ∉ s)
    (unwritten : c ∉ replacement) : c ∉ replace literal replacement s := by
  intro member
  rcases mem_substitute member with kept | ⟨t, written, rest, -, found, member⟩
  · exact absent kept
  · obtain ⟨behind, -, same⟩ := Option.map_eq_some_iff.mp found
    cases same
    exact unwritten member

/-! ## The pieces between matches -/

/-- Skipping covered characters is dropping them. -/
theorem splitFrom_eq_drop (separator : Text → Option Text) (covered : Nat) (s : Text) :
    splitFrom separator covered s = splitFrom separator 0 (s.drop covered) := by
  induction s generalizing covered with
  | nil => cases covered <;> rfl
  | cons c cs ih =>
      cases covered with
      | zero => rfl
      | succ covered => simpa [splitFrom] using ih covered

theorem splitFrom_ne_nil (separator : Text → Option Text) (covered : Nat) (s : Text) :
    splitFrom separator covered s ≠ [] := by
  induction s generalizing covered with
  | nil => cases covered <;> simp [splitFrom]
  | cons c cs ih =>
      cases covered with
      | zero =>
          rw [splitFrom]
          split
          · simp
          · split <;> simp
      | succ covered => simpa [splitFrom] using ih covered

theorem subset_of_mem_splitFrom {separator : Text → Option Text} {covered : Nat} {s piece : Text}
    (member : piece ∈ splitFrom separator covered s) : piece ⊆ s := by
  induction s generalizing covered piece with
  | nil =>
      have single : piece ∈ [([] : Text)] := by cases covered <;> exact member
      rw [List.mem_singleton.mp single]
      exact List.nil_subset _
  | cons c s ih =>
      cases covered with
      | succ covered => exact List.subset_cons_of_subset c (ih member)
      | zero =>
          rw [splitFrom] at member
          split at member
          · rcases List.mem_cons.mp member with rfl | member
            · exact List.nil_subset _
            · exact List.subset_cons_of_subset c (ih member)
          · obtain ⟨first, pieces, cut⟩ :=
              List.exists_cons_of_ne_nil (splitFrom_ne_nil separator 0 s)
            have each : ∀ piece ∈ first :: pieces, piece ⊆ s :=
              fun piece member => ih (cut ▸ member)
            rw [cut] at member
            rcases List.mem_cons.mp member with rfl | member
            · exact List.cons_subset_cons c (each first List.mem_cons_self)
            · exact List.subset_cons_of_subset c (each piece (List.mem_cons_of_mem _ member))

/-- Where the separator matches, a piece ends. -/
theorem splitFrom_cons_of_some {separator : Text → Option Text} {c : Char} {cs rest : Text}
    (found : separator (c :: cs) = some rest) (isRest : rest <:+ cs) :
    splitFrom separator 0 (c :: cs) = [] :: splitFrom separator 0 rest := by
  obtain ⟨used, rfl⟩ := isRest
  rw [splitFrom, found]
  simp only
  rw [splitFrom_eq_drop]
  simp

/-- Elsewhere the piece goes on. -/
theorem splitFrom_cons_of_none {separator : Text → Option Text} {c : Char} {cs : Text}
    (quiet : separator (c :: cs) = none) :
    ∃ piece pieces, splitFrom separator 0 cs = piece :: pieces ∧
      splitFrom separator 0 (c :: cs) = (c :: piece) :: pieces := by
  obtain ⟨piece, pieces, found⟩ := List.exists_cons_of_ne_nil (splitFrom_ne_nil separator 0 cs)
  exact ⟨piece, pieces, found, by rw [splitFrom, quiet]; simp only [found]⟩

/-- A part in which the separator does not match stays in one piece. -/
theorem splitFrom_append_of_quiet {separator : Text → Option Text} {s t : Text}
    (quiet : ∀ c ∈ s, ∀ cs, separator (c :: cs) = none) :
    ∃ piece pieces, splitFrom separator 0 t = piece :: pieces ∧
      splitFrom separator 0 (s ++ t) = (s ++ piece) :: pieces := by
  induction s with
  | nil =>
      obtain ⟨piece, pieces, found⟩ := List.exists_cons_of_ne_nil (splitFrom_ne_nil separator 0 t)
      exact ⟨piece, pieces, found, found⟩
  | cons c s ih =>
      rw [List.forall_mem_cons] at quiet
      obtain ⟨piece, pieces, found, whole⟩ := ih quiet.2
      obtain ⟨first, others, behind, front⟩ := splitFrom_cons_of_none (quiet.1 (s ++ t))
      rw [whole] at behind
      cases behind
      exact ⟨piece, pieces, found, front⟩

end SlideDeck.Text
