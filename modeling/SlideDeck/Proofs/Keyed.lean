import Mathlib.Data.List.Nodup
import SlideDeck.Keyed

/-!
# Keys in the order in which they came

The keys of values that are put one after the other are the keys of the puts, each where it first
came: a put adds its key behind the others if it is new (`keys_put`), and so does a list that is
read without its repetitions when an item comes behind it (`eraseDups_concat`). Where the keys are
distinct, the entries are known from the keys and the value under each (`eq_map_keys`).
-/

set_option autoImplicit false

namespace SlideDeck.Keyed

/-! ## Lists without repetitions -/

section Repetitions

variable {α : Type} [BEq α] [LawfulBEq α]

theorem nodup_eraseDups (l : List α) : l.eraseDups.Nodup := by
  -- What is left behind the first item is shorter than the list, but no part of it.
  induction length : l.length using Nat.strongRecOn generalizing l with
  | ind n ih =>
      cases l with
      | nil => exact List.nodup_nil
      | cons a l =>
          rw [List.eraseDups_cons, List.nodup_cons]
          refine ⟨?_, ih _ ?_ _ rfl⟩
          · simp [List.mem_eraseDups]
          · subst length
            exact Nat.lt_succ_of_le (List.length_filter_le _ _)

/-- An item that comes last stays if it is new. -/
theorem eraseDups_concat [DecidableEq α] (l : List α) (a : α) :
    (l ++ [a]).eraseDups = if a ∈ l then l.eraseDups else l.eraseDups ++ [a] := by
  rw [List.eraseDups_append]
  split
  · next known => simp [List.removeAll, known]
  · next new => simp [List.removeAll, new, List.eraseDups_cons]

end Repetitions

/-! ## Entries -/

variable {κ ν : Type} [DecidableEq κ] {key : κ} {entries : Keyed κ ν}

theorem get?_append (front back : Keyed κ ν) :
    get? key (front ++ back) = (get? key front).or (get? key back) := by
  induction front with
  | nil => rfl
  | cons entry front ih =>
      rw [List.cons_append, get?, get?]
      split
      · rfl
      · exact ih

/-- A new key comes last. -/
theorem put_of_get?_eq_none (absent : get? key entries = none) (value : ν) :
    put key value entries = entries ++ [(key, value)] := by
  induction entries with
  | nil => rfl
  | cons entry entries ih =>
      rw [get?] at absent
      split at absent
      · cases absent
      · next other => rw [put, if_neg other, ih absent, List.cons_append]

theorem mem_put {value : ν} {entry : κ × ν} (member : entry ∈ put key value entries) :
    entry = (key, value) ∨ entry ∈ entries := by
  induction entries with
  | nil => exact .inl (List.mem_singleton.mp member)
  | cons first entries ih =>
      rw [put] at member
      split at member
      · exact (List.mem_cons.mp member).imp_right (List.mem_cons_of_mem first)
      · rcases List.mem_cons.mp member with rfl | member
        · exact .inr List.mem_cons_self
        · exact (ih member).imp_right (List.mem_cons_of_mem first)

/-- A key is one of the keys if there is a value under it. -/
theorem mem_keys_iff : key ∈ keys entries ↔ get? key entries ≠ none := by
  induction entries with
  | nil => simp [keys, get?]
  | cons entry entries ih =>
      rw [keys, List.map_cons, List.mem_cons, get?]
      by_cases same : entry.1 = key
      · simp [same]
      · rw [if_neg same, ← ih, keys, or_iff_right (Ne.symm same)]

theorem hasKey_iff : hasKey key entries = true ↔ key ∈ keys entries := by
  rw [hasKey, Option.isSome_iff_ne_none, mem_keys_iff]

/-- A key that is put again keeps its place. -/
theorem keys_put (key : κ) (value : ν) (entries : Keyed κ ν) :
    keys (put key value entries) = if key ∈ keys entries then keys entries else keys
      entries ++ [key] := by
  split
  · next known =>
      induction entries with
      | nil => cases known
      | cons entry entries ih =>
          rw [put]
          split
          · next same => simp [keys, same]
          · next other =>
              have later : key ∈ keys entries :=
                (List.mem_cons.mp known).resolve_left (Ne.symm other)
              exact congrArg (entry.1 :: ·) (ih later)
  · next new =>
      rw [put_of_get?_eq_none (not_not.mp fun present => new (mem_keys_iff.mpr present)), keys,
        List.map_append]
      rfl

/-- Entries with distinct keys are known from the keys and the value under each. -/
theorem eq_map_keys {value : κ → ν} (distinct : (keys entries).Nodup)
    (each : ∀ key ∈ keys entries, get? key entries = some (value key)) :
    entries = (keys entries).map fun key => (key, value key) := by
  induction entries with
  | nil => rfl
  | cons entry entries ih =>
      rw [keys, List.map_cons, List.nodup_cons] at distinct
      have first : some entry.2 = some (value entry.1) := by
        rw [← each entry.1 List.mem_cons_self, get?, if_pos rfl]
      have rest : ∀ key ∈ keys entries, get? key entries = some (value key) := by
        intro key member
        have other : entry.1 ≠ key := by
          rintro rfl
          exact distinct.1 member
        rw [← each key (List.mem_cons_of_mem _ member), get?, if_neg other]
      rw [keys, List.map_cons, List.map_cons, ← Option.some.inj first]
      exact congrArg (entry :: ·) (ih distinct.2 rest)

end SlideDeck.Keyed
