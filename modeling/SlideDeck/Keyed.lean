import SlideDeck.Text.Basic

/-!
# Values under keys, in insertion order

Metadata, the nodes of a diagram and the files of a directory tree are values kept
under keys. A new key comes last; a key that is written again keeps its place and
gets the new value.
-/

set_option autoImplicit false

namespace SlideDeck

/-- Values kept under keys, in the order in which the keys first came. -/
abbrev Keyed (κ : Type) (ν : Type) := List (κ × ν)

namespace Keyed

variable {κ ν : Type} [DecidableEq κ]

/-- The entries with `value` under `key`. -/
def put (key : κ) (value : ν) : Keyed κ ν → Keyed κ ν
  | [] => [(key, value)]
  | entry :: entries =>
    if entry.1 = key then (key, value) :: entries else entry :: put key value entries

/-- The value under `key`. -/
def get? (key : κ) : Keyed κ ν → Option ν
  | [] => none
  | entry :: entries => if entry.1 = key then some entry.2 else get? key entries

/-- The entries without `key`. -/
def erase (key : κ) : Keyed κ ν → Keyed κ ν
  | [] => []
  | entry :: entries => if entry.1 = key then erase key entries else entry :: erase key entries

/-- Whether there is a value under `key`. -/
def hasKey (key : κ) (entries : Keyed κ ν) : Bool := (get? key entries).isSome

/-- The keys. -/
def keys (entries : Keyed κ ν) : List κ := entries.map Prod.fst

/-- What was put is what is got. -/
theorem get?_put (key other : κ) (value : ν) (entries : Keyed κ ν) :
    get? other (put key value entries) =
      if other = key then some value else get? other entries := by
  induction entries with
  | nil => simp [put, get?, eq_comm]
  | cons entry entries ih =>
    by_cases first : entry.1 = key
    · by_cases same : other = key <;> simp_all [put, get?, eq_comm]
    · by_cases found : entry.1 = other
      · have differ : other ≠ key := fun same => first (found.trans same)
        simp [put, get?, found, differ]
      · simp [put, get?, first, found, ih]

/-- What was erased is gone, and nothing else is. -/
theorem get?_erase (key other : κ) (entries : Keyed κ ν) :
    get? other (erase key entries) = if other = key then none else get? other entries := by
  induction entries with
  | nil => simp [erase, get?]
  | cons entry entries ih =>
    by_cases first : entry.1 = key
    · by_cases same : other = key
      · rw [erase, if_pos first, ih, if_pos same, if_pos same]
      · have differ : entry.1 ≠ other := fun found => same (found.symm.trans first)
        rw [erase, if_pos first, ih, get?, if_neg differ]
    · by_cases found : entry.1 = other
      · have differ : other ≠ key := fun same => first (found.trans same)
        simp [erase, get?, found, differ]
      · simp [erase, get?, first, found, ih]

/-- Putting adds at most the key that is put. -/
theorem mem_keys_put {key other : κ} {value : ν} {entries : Keyed κ ν} :
    other ∈ keys (put key value entries) ↔ other = key ∨ other ∈ keys entries := by
  induction entries with
  | nil => simp [put, keys]
  | cons entry entries ih =>
    by_cases first : entry.1 = key
    · simp [put, keys, first]
    · simp only [put, if_neg first, keys, List.map_cons, List.mem_cons] at ih ⊢
      rw [ih]
      exact or_left_comm

/-- Putting keeps the keys distinct. -/
theorem nodup_keys_put {key : κ} {value : ν} {entries : Keyed κ ν}
    (distinct : (keys entries).Nodup) : (keys (put key value entries)).Nodup := by
  induction entries with
  | nil => simp [put, keys]
  | cons entry entries ih =>
    simp only [keys, List.map_cons, List.nodup_cons] at distinct ih ⊢
    by_cases first : entry.1 = key
    · rw [put, if_pos first, List.map_cons, List.nodup_cons]
      exact first ▸ distinct
    · simp only [put, if_neg first, List.map_cons, List.nodup_cons]
      refine ⟨fun member => ?_, ih distinct.2⟩
      rcases mem_keys_put.mp member with same | earlier
      · exact first same
      · exact distinct.1 earlier

/-- Erasing keeps the order of the keys that stay. -/
theorem keys_erase_sublist (key : κ) (entries : Keyed κ ν) :
    (keys (erase key entries)).Sublist (keys entries) := by
  induction entries with
  | nil => exact List.Sublist.refl _
  | cons entry entries ih =>
    by_cases first : entry.1 = key
    · rw [erase, if_pos first]
      exact ih.trans (List.sublist_cons_self ..)
    · rw [erase, if_neg first]
      exact ih.cons_cons _

/-- Erasing keeps the keys distinct. -/
theorem nodup_keys_erase {key : κ} {entries : Keyed κ ν} (distinct : (keys entries).Nodup) :
    (keys (erase key entries)).Nodup :=
  distinct.sublist (keys_erase_sublist key entries)

end Keyed

/-- Texts kept under texts. -/
abbrev Text.Entries := Keyed Text Text

end SlideDeck
