import Mathlib.Data.List.MinMax
import SlideDeck.Inline.Emoji
import SlideDeck.Proofs.Text.Replacement

/-!
# Emoji are replaced in one scan

The emoji with a meaning are replaced one after the other, each over the whole text, and the other
emoji are dropped afterwards. It comes to the same to go through the text once (`Scans`): at each
position the longest entry of the table is replaced, another emoji is dropped, and any other
character is kept.

The entries may overlap, since a form with a variation selector begins with its bare counterpart.
What keeps them apart is said by `IsTable`: an entry is one character, or one with a selector behind
it, the longer form comes first, and no replacement holds a character of an entry. So a replacement
neither makes nor breaks an occurrence of a later entry (`replaceAll_cons`, `replaceAll_longest`),
and the scan of a text is what replacing and dropping leave of it (`scans_iff`).

What a scan leaves is left alone by the next one (`Scans.settled`). So sanitizing a second time
changes nothing (`sanitize_eq_scan`).
-/

set_option autoImplicit false

namespace SlideDeck.Text

variable {selector c : Char} {entries : List (Text × Text)} {dropped : Char → Bool}
  {s rest out : Text}

/-! ## One scan -/

/-- No entry of the table begins the text. -/
def Unlisted (entries : List (Text × Text)) (s : Text) : Prop :=
  ∀ entry ∈ entries, ¬ entry.1 <+: s

/-- An entry of the table begins the text, and no longer one does. -/
structure IsLongest (entries : List (Text × Text)) (entry : Text × Text) (s : Text) : Prop where
  member : entry ∈ entries
  begins : entry.1 <+: s
  longest : ∀ other ∈ entries, other.1 <+: s → other.1.length ≤ entry.1.length

/-- One scan of a text from left to right, and what it writes. -/
inductive Scans (entries : List (Text × Text)) (dropped : Char → Bool) : Text → Text → Prop
  | done : Scans entries dropped [] []
  | replace {written meant rest out : Text}
      (longest : IsLongest entries (written, meant) (written ++ rest))
      (later : Scans entries dropped rest out) :
      Scans entries dropped (written ++ rest) (meant ++ out)
  | drop {c : Char} {rest out : Text} (unlisted : Unlisted entries (c :: rest))
      (drops : dropped c = true) (later : Scans entries dropped rest out) :
      Scans entries dropped (c :: rest) out
  | keep {c : Char} {rest out : Text} (unlisted : Unlisted entries (c :: rest))
      (keeps : dropped c = false) (later : Scans entries dropped rest out) :
      Scans entries dropped (c :: rest) (c :: out)

/-! ## Tables whose longer forms come first -/

/-- An entry is one character, or one with the selector behind it, and its replacement is visible
and without the selector. -/
def IsForm (selector : Char) (entry : Text × Text) : Prop :=
  (∃ first ∈ entry.1, first ≠ selector ∧ (entry.1 = [first] ∨ entry.1 = [first, selector])) ∧
    entry.2 ≠ [] ∧ selector ∉ entry.2

/-- A table of such entries. None of them begins a later one, and none of their characters is
written by a replacement. -/
structure IsTable (selector : Char) (entries : List (Text × Text)) : Prop where
  forms : ∀ entry ∈ entries, IsForm selector entry
  ordered : entries.Pairwise fun earlier later => ¬ earlier.1 <+: later.1
  apart : ∀ entry ∈ entries, ∀ c ∈ entry.2, ∀ other ∈ entries, c ∉ other.1

-- The characters of the entry are looked through, rather than the finite type of all characters.
instance (selector : Char) : DecidablePred (IsForm selector) := fun entry =>
  @instDecidableAnd _ _ (List.decidableBEx _ entry.1) inferInstance

instance (selector : Char) (entries : List (Text × Text)) : Decidable (IsTable selector entries) :=
  decidable_of_iff ((∀ entry ∈ entries, IsForm selector entry) ∧
      (entries.Pairwise fun earlier later => ¬ earlier.1 <+: later.1) ∧
      ∀ entry ∈ entries, ∀ c ∈ entry.2, ∀ other ∈ entries, c ∉ other.1)
    ⟨fun ⟨forms, ordered, apart⟩ => ⟨forms, ordered, apart⟩,
      fun table => ⟨table.forms, table.ordered, table.apart⟩⟩

theorem IsForm.ne_nil {entry : Text × Text} (form : IsForm selector entry) : entry.1 ≠ [] := by
  obtain ⟨⟨first, member, -⟩, -⟩ := form
  exact List.ne_nil_of_mem member

/-- A character that is in no entry begins none. -/
theorem unlisted_of_not_mem (absent : ∀ entry ∈ entries, c ∉ entry.1)
    (forms : ∀ entry ∈ entries, IsForm selector entry) (s : Text) : Unlisted entries (c :: s) := by
  intro entry member begins
  obtain ⟨d, tail, whole⟩ := List.exists_cons_of_ne_nil (forms entry member).ne_nil
  refine absent entry member ?_
  rw [whole, List.cons_prefix_cons] at begins
  rw [whole, ← begins.1]
  exact List.mem_cons_self

/-- No entry begins with the selector. -/
theorem unlisted_selector (forms : ∀ entry ∈ entries, IsForm selector entry) (s : Text) :
    Unlisted entries (selector :: s) := by
  intro entry member begins
  obtain ⟨⟨first, -, other, shape⟩, -⟩ := forms entry member
  rcases shape with shape | shape <;>
    · rw [shape, List.cons_prefix_cons] at begins
      exact other begins.1

/-! ## One replacement after the other -/

/-- A replacement puts no selector at the front of a text. -/
theorem selector_of_replace {entry : Text × Text} (form : IsForm selector entry)
    (begins : [selector] <+: replace entry.1 entry.2 s) : [selector] <+: s := by
  obtain ⟨d, tail, whole⟩ := List.exists_cons_of_ne_nil form.ne_nil
  obtain ⟨-, visible, absent⟩ := form
  by_cases found : entry.1 <+: s
  · obtain ⟨rest, rfl⟩ := found
    rw [whole, replace_append_self] at begins
    obtain ⟨first, more, written⟩ := List.exists_cons_of_ne_nil visible
    rw [written, List.cons_append, List.cons_prefix_cons] at begins
    rw [written, begins.1] at absent
    exact absurd List.mem_cons_self absent
  · cases s with
    | nil => exact begins
    | cons c s =>
        rw [replace_cons _ found, List.cons_prefix_cons] at begins
        exact List.cons_prefix_cons.mpr ⟨begins.1, List.nil_prefix⟩

/-- Where no entry begins the first character stays. The induction is on the table: behind a
replacement there is no selector where there was none, so the later entries begin there no more than
they did before. -/
theorem replaceAll_cons (forms : ∀ entry ∈ entries, IsForm selector entry)
    (unlisted : Unlisted entries (c :: s)) :
    replaceAll entries (c :: s) = c :: replaceAll entries s := by
  induction entries generalizing s with
  | nil => rfl
  | cons entry entries ih =>
      rw [List.forall_mem_cons] at forms
      obtain ⟨other, later⟩ := List.forall_mem_cons.mp unlisted
      have still : Unlisted entries (c :: replace entry.1 entry.2 s) := by
        intro next member begins
        refine later next member ?_
        obtain ⟨⟨first, -, -, shape⟩, -⟩ := forms.2 next member
        rcases shape with shape | shape
        · rw [shape, List.cons_prefix_cons] at begins ⊢
          exact ⟨begins.1, List.nil_prefix⟩
        · rw [shape, List.cons_prefix_cons] at begins ⊢
          exact ⟨begins.1, selector_of_replace forms.1 begins.2⟩
      change replaceAll entries (replace entry.1 entry.2 (c :: s)) = _
      rw [replace_cons _ other, ih forms.2 still]
      rfl

/-- Characters that are in no entry stay. -/
theorem replaceAll_append_of_not_mem (forms : ∀ entry ∈ entries, IsForm selector entry)
    (absent : ∀ c ∈ s, ∀ entry ∈ entries, c ∉ entry.1) (t : Text) :
    replaceAll entries (s ++ t) = s ++ replaceAll entries t := by
  induction s with
  | nil => rfl
  | cons c s ih =>
      rw [List.forall_mem_cons] at absent
      rw [List.cons_append, replaceAll_cons forms (unlisted_of_not_mem absent.1 forms _),
        ih absent.2, List.cons_append]

/-- Where no entry begins, a text that has the form of an entry stays. -/
theorem replaceAll_form (forms : ∀ entry ∈ entries, IsForm selector entry) {written meant : Text}
    (form : IsForm selector (written, meant)) (unlisted : Unlisted entries (written ++ rest)) :
    replaceAll entries (written ++ rest) = written ++ replaceAll entries rest := by
  obtain ⟨⟨first, -, -, rfl | rfl⟩, -⟩ := form
  · exact replaceAll_cons forms unlisted
  · exact (replaceAll_cons forms unlisted).trans
      (congrArg (first :: ·) (replaceAll_cons forms (unlisted_selector forms rest)))

/-- **The longest entry at the front of a text is the one that is replaced there.** The entries
before it do not begin there, and those behind it leave its replacement alone. -/
theorem replaceAll_longest (table : IsTable selector entries) {written meant : Text}
    (longest : IsLongest entries (written, meant) (written ++ rest)) :
    replaceAll entries (written ++ rest) = meant ++ replaceAll entries rest := by
  obtain ⟨before, after, rfl⟩ := List.append_of_mem longest.member
  obtain ⟨forms, ordered, apart⟩ := table
  rw [List.forall_mem_append, List.forall_mem_cons] at forms
  obtain ⟨formsBefore, form, formsAfter⟩ := forms
  rw [List.pairwise_append] at ordered
  have unlisted : Unlisted before (written ++ rest) := by
    intro entry member begins
    have shorter := longest.longest entry (List.mem_append_left _ member) begins
    exact ordered.2.2 entry member _ List.mem_cons_self
      (List.prefix_of_prefix_length_le begins longest.begins shorter)
  have behind : ∀ c ∈ meant, ∀ entry ∈ after, c ∉ entry.1 := fun c inside entry member =>
    apart _ longest.member c inside entry (List.mem_append_right _ (List.mem_cons_of_mem _ member))
  have stages : ∀ t, replaceAll (before ++ (written, meant) :: after) t =
      replaceAll after (replace written meant (replaceAll before t)) := fun t =>
    List.foldl_append ..
  obtain ⟨d, tail, rfl⟩ := List.exists_cons_of_ne_nil (show written ≠ [] from form.ne_nil)
  rw [stages, stages, replaceAll_form formsBefore form unlisted, replace_append_self,
    replaceAll_append_of_not_mem formsAfter behind]

/-! ## The scan of a text -/

/-- At the front of a text no entry begins, or one of those that do is the longest. -/
theorem unlisted_or_longest (entries : List (Text × Text)) (s : Text) :
    Unlisted entries s ∨ ∃ entry, IsLongest entries entry s := by
  have mem_listed : ∀ entry, entry ∈ entries.filter (fun entry => entry.1.isPrefixOf s) ↔
      entry ∈ entries ∧ entry.1 <+: s := fun entry => by
    rw [List.mem_filter, List.isPrefixOf_iff_prefix]
  cases found : (entries.filter fun entry => entry.1.isPrefixOf s).argmax fun entry =>
      entry.1.length with
  | none =>
      refine .inl fun entry member begins => ?_
      have listed := (mem_listed entry).mpr ⟨member, begins⟩
      rw [List.argmax_eq_none.mp found] at listed
      cases listed
  | some entry =>
      obtain ⟨member, begins⟩ := (mem_listed entry).mp (List.argmax_mem found)
      refine .inr ⟨entry, member, begins, fun other inside begun => ?_⟩
      have listed := (mem_listed other).mpr ⟨inside, begun⟩
      exact List.le_of_mem_argmax (f := fun entry : Text × Text => entry.1.length) listed found

section Scan

variable (table : IsTable selector entries)
  (kept : ∀ entry ∈ entries, ∀ c ∈ entry.2, dropped c = false)

include table

theorem replaceAll_nil : replaceAll entries [] = [] := by
  have forms := table.forms
  clear table
  induction entries with
  | nil => rfl
  | cons entry entries ih =>
      rw [List.forall_mem_cons] at forms
      exact ih forms.2

include kept

/-- A replacement is kept as a whole. -/
theorem filter_replaceAll_longest {written meant : Text}
    (longest : IsLongest entries (written, meant) (written ++ rest)) :
    (replaceAll entries (written ++ rest)).filter (fun c => !dropped c) =
      meant ++ (replaceAll entries rest).filter fun c => !dropped c := by
  have all : meant.filter (fun c => !dropped c) = meant :=
    List.filter_eq_self.mpr fun c inside => by simp [kept _ longest.member c inside]
  rw [replaceAll_longest table longest, List.filter_append, all]

/-- What replacing and dropping leave of a text is its scan. The induction is on the length, since
an entry is passed as a whole. -/
theorem scans_filter_replaceAll (s : Text) :
    Scans entries dropped s ((replaceAll entries s).filter fun c => !dropped c) := by
  induction size : s.length using Nat.strong_induction_on generalizing s with
  | _ n ih =>
      subst size
      rcases unlisted_or_longest entries s with unlisted | ⟨⟨written, meant⟩, longest⟩
      · cases s with
        | nil =>
            rw [replaceAll_nil table]
            exact .done
        | cons c s =>
            have later := ih s.length (by simp) s rfl
            rw [replaceAll_cons table.forms unlisted]
            cases drops : dropped c with
            | true =>
                rw [List.filter_cons_of_neg (by simp [drops])]
                exact .drop unlisted drops later
            | false =>
                rw [List.filter_cons_of_pos (by simp [drops])]
                exact .keep unlisted drops later
      · obtain ⟨rest, rfl⟩ := longest.begins
        have nonempty : written ≠ [] := (table.forms _ longest.member).ne_nil
        have shorter : rest.length < (written ++ rest).length := by
          rw [List.length_append]
          have := List.length_pos_of_ne_nil nonempty
          omega
        rw [filter_replaceAll_longest table kept longest]
        exact .replace longest (ih rest.length shorter rest rfl)

/-- And nothing else is. -/
theorem Scans.eq_filter_replaceAll (scans : Scans entries dropped s out) :
    out = (replaceAll entries s).filter fun c => !dropped c := by
  induction scans with
  | done => rw [replaceAll_nil table, List.filter_nil]
  | replace longest later ih => rw [filter_replaceAll_longest table kept longest, ← ih]
  | drop unlisted drops later ih =>
      rw [replaceAll_cons table.forms unlisted, List.filter_cons_of_neg (by simp [drops]), ← ih]
  | keep unlisted keeps later ih =>
      rw [replaceAll_cons table.forms unlisted, List.filter_cons_of_pos (by simp [keeps]), ← ih]

/-- Every character that a scan writes is kept, and is no entry by itself. -/
theorem Scans.settled (scans : Scans entries dropped s out) :
    ∀ c ∈ out, dropped c = false ∧ ∀ entry ∈ entries, entry.1 ≠ [c] := by
  induction scans with
  | done => exact nofun
  | replace longest later ih =>
      refine List.forall_mem_append.mpr ⟨fun c inside => ⟨kept _ longest.member c inside, ?_⟩, ih⟩
      intro entry member same
      exact table.apart _ longest.member c inside entry member (by simp [same])
  | drop unlisted drops later ih => exact ih
  | keep unlisted keeps later ih =>
      refine List.forall_mem_cons.mpr ⟨⟨keeps, fun entry member same => ?_⟩, ih⟩
      exact unlisted entry member (by simp [same])

omit kept in
/-- A text of such characters is scanned as it is, if the selector is dropped: no entry is one of
its characters, and the longer ones hold the selector. -/
theorem scans_self (selected : dropped selector = true)
    (settled : ∀ c ∈ s, dropped c = false ∧ ∀ entry ∈ entries, entry.1 ≠ [c]) :
    Scans entries dropped s s := by
  have absent : selector ∉ s := fun member => by simp [(settled selector member).1] at selected
  induction s with
  | nil => exact .done
  | cons c s ih =>
      rw [List.forall_mem_cons] at settled
      rw [List.mem_cons, not_or] at absent
      refine .keep (fun entry member begins => ?_) settled.1.1 (ih settled.2 absent.2)
      obtain ⟨⟨first, -, -, shape⟩, -⟩ := table.forms entry member
      rcases shape with shape | shape
      · rw [shape, List.cons_prefix_cons] at begins
        exact settled.1.2 entry member (begins.1 ▸ shape)
      · rw [shape, List.cons_prefix_cons] at begins
        exact absent.2 (begins.2.subset List.mem_cons_self)

end Scan

end SlideDeck.Text

/-! ## Emoji -/

namespace SlideDeck.Inline

open SlideDeck.Text

/-- The character that asks for the form of an emoji in colour. -/
def variationSelector : Char := Char.ofNat 0xFE0F

theorem isTable_emojiReplacements : IsTable variationSelector emojiReplacements := by decide

theorem isEmoji_replacement :
    ∀ entry ∈ emojiReplacements, ∀ c ∈ entry.2, isEmoji c = false := by decide

/-- The scan of a text is what sanitizing leaves of it. -/
theorem scans_iff {s out : Text} :
    Scans emojiReplacements isEmoji s out ↔ out = sanitize s := by
  constructor
  · exact fun scans => scans.eq_filter_replaceAll isTable_emojiReplacements isEmoji_replacement
  · rintro rfl
    exact scans_filter_replaceAll isTable_emojiReplacements isEmoji_replacement s

/-- **Sanitizing a text is one scan of it**, which replaces the longest entry at each position,
drops the other emoji and keeps the rest. It leaves no emoji, and a second time it changes
nothing. -/
theorem sanitize_eq_scan (s : Text) :
    (∀ out, Scans emojiReplacements isEmoji s out ↔ out = sanitize s) ∧
      (sanitize s).filter isEmoji = [] ∧ sanitize (sanitize s) = sanitize s := by
  refine ⟨fun out => scans_iff, ?_, ?_⟩
  · refine List.filter_eq_nil_iff.mpr fun c member => ?_
    simp [isEmoji_of_mem_sanitize member]
  · have settled :=
      (scans_iff.mpr rfl).settled (s := s) isTable_emojiReplacements isEmoji_replacement
    exact (scans_iff.mp (scans_self isTable_emojiReplacements rfl settled)).symm

/-- A selector goes with its emoji, and without one it is dropped. -/
example : sanitize (Char.ofNat 0x2714 :: variationSelector :: variationSelector :: "a".toList) =
    "[OK]a".toList := by decide

end SlideDeck.Inline
