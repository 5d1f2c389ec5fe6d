import SlideDeck.Html.Listing
import SlideDeck.Proofs.Text.Silent
import SlideDeck.Proofs.Text.Search

/-!
# Taking listings out of a text

How the listings of a text come out of it, step by step: at a listing a marker and the
element of the listing (`takeListingsFrom_cons_of_some`), at any other place the
character (`takeListingsFrom_cons_of_none`), and as they are the parts in which no
listing begins (`takeListingsFrom_append_of_quiet`).

A listing ends in a line end and blanks, if there are any, and the end of a code
environment (`listingEnd?_eq_some`).
-/

set_option autoImplicit false

namespace SlideDeck.Html

open SlideDeck SlideDeck.Text

/-! ## Taking out -/

/-- Skipping covered characters is dropping them. -/
theorem takeListingsFrom_eq_drop (index covered : Nat) (s : Text) :
    takeListingsFrom index covered s = takeListingsFrom index 0 (s.drop covered) := by
  induction s generalizing covered with
  | nil => cases covered <;> rfl
  | cons c cs ih =>
      cases covered with
      | zero => rfl
      | succ covered => simpa [takeListingsFrom] using ih covered

theorem takeListingsFrom_cons_of_none {index : Nat} {c : Char} {cs : Text}
    (quiet : listing? (c :: cs) = none) :
    takeListingsFrom index 0 (c :: cs) =
      (c :: (takeListingsFrom index 0 cs).1, (takeListingsFrom index 0 cs).2) := by
  rw [takeListingsFrom, quiet]

theorem takeListingsFrom_cons_of_some {index : Nat} {c : Char} {cs block rest : Text}
    (found : listing? (c :: cs) = some (block, rest)) (isRest : rest <:+ cs) :
    takeListingsFrom index 0 (c :: cs) =
      (marker index ++ (takeListingsFrom (index + 1) 0 rest).1,
        block :: (takeListingsFrom (index + 1) 0 rest).2) := by
  obtain ⟨used, rfl⟩ := isRest
  rw [takeListingsFrom, found]
  simp only
  rw [takeListingsFrom_eq_drop]
  simp

theorem takeListingsFrom_append_of_quiet {index : Nat} {s t : Text}
    (quiet : ∀ c ∈ s, ∀ cs, listing? (c :: cs) = none) :
    takeListingsFrom index 0 (s ++ t) =
      (s ++ (takeListingsFrom index 0 t).1, (takeListingsFrom index 0 t).2) := by
  induction s with
  | nil => rfl
  | cons c s ih =>
      rw [List.forall_mem_cons] at quiet
      rw [List.cons_append, takeListingsFrom_cons_of_none (quiet.1 _), ih quiet.2]
      rfl

/-- Where no listing begins, none is taken out. -/
theorem takeListingsFrom_of_silent {s : Text} (silent : Silent listing? s) (index : Nat) :
    takeListingsFrom index 0 s = (s, []) := by
  induction s with
  | nil => rfl
  | cons c s ih =>
      have here : listing? (c :: s) = none := by simpa using silent.1 []
      rw [takeListingsFrom_cons_of_none here, ih silent.2]

/-! ## The parts of a listing -/

theorem skipAny?_eq_some {literals : List Text} {s rest : Text}
    (skipped : skipAny? literals s = some rest) : ∃ literal ∈ literals, s = literal ++ rest := by
  obtain ⟨literal, member, found⟩ := List.exists_of_findSome?_eq_some skipped
  exact ⟨literal, member, skip?_eq_some_iff.mp found⟩

theorem dropNewline_isSuffix (s : Text) : dropNewline s <:+ s := by
  unfold dropNewline
  split
  · exact List.suffix_cons ..
  · exact List.suffix_rfl

theorem listingEnd?_eq_some {s rest : Text} (ended : listingEnd? s = some rest) :
    ∃ front, ∃ literal ∈ codeEnvironments.map Latex.endEnvironment,
      s = front ++ (literal ++ rest) := by
  obtain ⟨literal, member, whole⟩ := skipAny?_eq_some ended
  obtain ⟨front, same⟩ := (List.dropWhile_suffix isLineBlank).trans (dropNewline_isSuffix s)
  exact ⟨front, literal, member, by rw [← whole, same]⟩

/-- The code of a listing stands before its end. -/
theorem listingBody?_eq_some {s code rest : Text} (found : listingBody? s = some (code, rest)) :
    ∃ front, ∃ literal ∈ codeEnvironments.map Latex.endEnvironment,
      s = front ++ (literal ++ rest) := by
  obtain ⟨ending, whole, ended⟩ := splitBefore_eq_some found
  obtain ⟨front, literal, member, rfl⟩ := listingEnd?_eq_some ended
  obtain ⟨before, same⟩ :=
    (dropNewline_isSuffix (s.dropWhile isLineBlank)).trans (List.dropWhile_suffix isLineBlank)
  refine ⟨before ++ (code ++ front), literal, member, ?_⟩
  rw [← same, whole]
  simp

end SlideDeck.Html
