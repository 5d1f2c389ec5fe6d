import Mathlib.Data.Nat.Init
import SlideDeck.Proofs.Latex.Depth

/-!
# Partners of braces

Braces are matched as brackets are anywhere. An opening and a closing brace are *partners*
(`Partners`) when the braces between them pair up among themselves (`Paired`), and a brace without
a partner is *lone* (`Lone`).

Counting decides both. Braces pair up just if they are balanced (`paired_iff_balanced`). A closing
brace is lone if no opening one is left for it in front (`lone_closing_iff`), and an opening brace
if what stands behind never falls below its own level (`lone_opening_iff`,
`depthAfter_eq_none_iff`).
-/

set_option autoImplicit false

namespace SlideDeck.Latex

/-! ## Pairs -/

/-- Braces that pair up: none at all, or a pair with such braces in it and behind it. -/
inductive Paired : List Brace → Prop where
  | nil : Paired []
  | pair {inner rest : List Brace} (inside : Paired inner) (behind : Paired rest) :
      Paired (.opening :: (inner ++ .closing :: rest))

namespace Paired

variable {front back : List Brace}

theorem append (first : Paired front) (second : Paired back) : Paired (front ++ back) := by
  induction first with
  | nil => exact second
  | pair inside _ _ ih =>
      rw [List.cons_append, List.append_assoc, List.cons_append]
      exact .pair inside ih

theorem balanced (paired : Paired front) : Balanced front := by
  induction paired with
  | nil => exact .nil
  | @pair inner rest _ _ inside behind =>
      have pair := inside.enclose.append behind
      rwa [List.cons_append, List.append_assoc] at pair

end Paired

/-- Braces fall below the level at which they begin just if a closing one of them comes behind
braces that pair up. -/
theorem depthAfter_eq_none_iff {braces : List Brace} :
    depthAfter 0 braces = none ↔
      ∃ inner behind, braces = inner ++ .closing :: behind ∧ Paired inner := by
  constructor
  · intro falls
    induction size : braces.length using Nat.strong_induction_on generalizing braces with
    | _ n ih =>
        match braces with
        | [] => cases falls
        | .closing :: rest => exact ⟨[], rest, rfl, .nil⟩
        | .opening :: rest =>
            rw [List.length_cons] at size
            -- the rest closes the first brace, or it would end on its level or above
            cases ends : depthAfter 0 rest with
            | some last =>
                rw [depthAfter, depthAfter_add ends 1] at falls
                cases falls
            | none =>
                obtain ⟨inner, behind, rfl, inside⟩ := ih _ (by omega) ends rfl
                rw [depthAfter, depthAfter_append, inside.balanced.depthAfter] at falls
                have later : depthAfter 0 behind = none := falls
                rw [List.length_append, List.length_cons] at size
                obtain ⟨next, last, rfl, paired⟩ := ih _ (by omega) later rfl
                exact ⟨.opening :: (inner ++ .closing :: next), last, by simp, inside.pair paired⟩
  · rintro ⟨inner, behind, rfl, paired⟩
    rw [depthAfter_append, paired.balanced.depthAfter]
    rfl

/-- Braces pair up just if counting finds them balanced. -/
theorem paired_iff_balanced {braces : List Brace} : Paired braces ↔ Balanced braces := by
  refine ⟨Paired.balanced, fun balanced => ?_⟩
  induction size : braces.length using Nat.strong_induction_on generalizing braces with
  | _ n ih =>
      match braces with
      | [] => exact .nil
      | .closing :: rest => cases balanced
      | .opening :: rest =>
          cases ends : depthAfter 0 rest with
          | some last =>
              rw [Balanced, depthAfter, depthAfter_add ends 1] at balanced
              cases balanced
          | none =>
              obtain ⟨inner, behind, rfl, inside⟩ := depthAfter_eq_none_iff.mp ends
              rw [Balanced, depthAfter, depthAfter_append, inside.balanced.depthAfter] at balanced
              rw [List.length_cons, List.length_append, List.length_cons] at size
              exact .pair inside (ih _ (by omega) balanced rfl)

instance (braces : List Brace) : Decidable (Paired braces) :=
  decidable_of_iff (Balanced braces) paired_iff_balanced.symm

/-! ## Partners -/

/-- The braces at the two positions belong together. -/
structure Partners (braces : List Brace) (first second : Nat) : Prop where
  opening : braces[first]? = some .opening
  closing : braces[second]? = some .closing
  before : first < second
  between : Paired ((braces.take second).drop (first + 1))

instance (braces : List Brace) (first second : Nat) : Decidable (Partners braces first second) :=
  decidable_of_iff
    (braces[first]? = some .opening ∧ braces[second]? = some .closing ∧ first < second ∧
      Paired ((braces.take second).drop (first + 1)))
    ⟨fun all => ⟨all.1, all.2.1, all.2.2.1, all.2.2.2⟩,
      fun partners => ⟨partners.1, partners.2, partners.3, partners.4⟩⟩

/-- The brace at the position has no partner. -/
def Lone (braces : List Brace) (position : Nat) : Prop :=
  ∀ other < braces.length, ¬ Partners braces position other ∧ ¬ Partners braces other position

instance (braces : List Brace) (position : Nat) : Decidable (Lone braces position) :=
  inferInstanceAs (Decidable (∀ other < braces.length,
    ¬ Partners braces position other ∧ ¬ Partners braces other position))

section Lone

variable {front rest : List Brace}

/-- What is taken behind a brace. -/
theorem drop_take_behind (front : List Brace) (brace : Brace) (rest : List Brace) (size : Nat) :
    ((front ++ brace :: rest).take (front.length + 1 + size)).drop (front.length + 1) =
      rest.take size := by
  rw [List.drop_take, Nat.add_sub_cancel_left, ← List.drop_drop, List.drop_left]
  rfl

/-- A closing brace is lone if no opening brace is left for it. -/
theorem lone_closing_iff :
    Lone (front ++ .closing :: rest) front.length ↔
      ¬ ∃ before inner, front = before ++ .opening :: inner ∧ Paired inner := by
  have here : (front ++ .closing :: rest)[front.length]? = some .closing := by simp
  constructor
  · rintro lone ⟨before, inner, rfl, paired⟩
    refine (lone before.length (by simp)).2 ⟨by simp, here, by simp, ?_⟩
    rw [List.take_left, ← List.drop_drop, List.drop_left]
    exact paired
  · intro unpaired other _
    refine ⟨fun partners => ?_, fun partners => unpaired ?_⟩
    · have opens := partners.opening
      rw [here] at opens
      cases opens
    · have between := partners.between
      have opens := partners.opening
      rw [List.take_left] at between
      rw [List.getElem?_append_left partners.before, List.getElem?_eq_some_iff] at opens
      obtain ⟨inside, opens⟩ := opens
      refine ⟨front.take other, front.drop (other + 1), ?_, between⟩
      rw [← opens, List.getElem_cons_drop, List.take_append_drop]

/-- An opening brace is lone if no closing brace is left for it. -/
theorem lone_opening_iff :
    Lone (front ++ .opening :: rest) front.length ↔
      ¬ ∃ inner behind, rest = inner ++ .closing :: behind ∧ Paired inner := by
  have here : (front ++ .opening :: rest)[front.length]? = some .opening := by simp
  constructor
  · rintro lone ⟨inner, behind, rfl, paired⟩
    refine (lone (front.length + 1 + inner.length) (by simp; omega)).1
      ⟨here, by simp [Nat.add_assoc, Nat.add_comm 1], by omega, ?_⟩
    rw [drop_take_behind, List.take_left]
    exact paired
  · intro unpaired other _
    refine ⟨fun partners => unpaired ?_, fun partners => ?_⟩
    · obtain ⟨size, rfl⟩ := Nat.exists_eq_add_of_le partners.before
      have between := partners.between
      have closes := partners.closing
      rw [Nat.succ_eq_add_one, drop_take_behind] at between
      rw [Nat.succ_eq_add_one, Nat.add_assoc, List.getElem?_append_right (by omega),
        Nat.add_sub_cancel_left, Nat.add_comm 1, List.getElem?_cons_succ,
        List.getElem?_eq_some_iff] at closes
      obtain ⟨inside, closes⟩ := closes
      refine ⟨rest.take size, rest.drop (size + 1), ?_, between⟩
      rw [← closes, List.getElem_cons_drop, List.take_append_drop]
    · have closes := partners.closing
      rw [here] at closes
      cases closes

end Lone

end SlideDeck.Latex
