import SlideDeck.Proofs.Text.Trim
import SlideDeck.Text.Number

/-!
# Numbers in texts

A number is written with decimal digits, at least one, and perhaps a plus sign in front of them
(`WritesNat`). The reader of numbers takes exactly these texts, as long as the value is below its
bound (`boundedNat?_eq_some_iff`). How many digits there are does not matter to it, since zeros in
front add nothing to the value. A number in its decimal form is such a text (`writesNat_ofNat`).
-/

set_option autoImplicit false

namespace SlideDeck.Text

/-- The text writes the number: decimal digits of this value, with or without a plus sign. -/
inductive WritesNat : Text → Nat → Prop
  | bare {digits : Text} (nonempty : digits ≠ []) (all : ∀ c ∈ digits, c.isDigit = true) :
      WritesNat digits (Nat.ofDigitChars 10 digits 0)
  | signed {digits : Text} (nonempty : digits ≠ []) (all : ∀ c ∈ digits, c.isDigit = true) :
      WritesNat ('+' :: digits) (Nat.ofDigitChars 10 digits 0)

/-! ## Digits -/

theorem digitsFrom_eq_some_iff {start value : Nat} {s : Text} :
    digitsFrom start s = some value ↔
      (∀ c ∈ s, c.isDigit = true) ∧ Nat.ofDigitChars 10 s start = value := by
  induction s generalizing start with
  | nil => simp [digitsFrom]
  | cons c s ih =>
      rw [digitsFrom, List.forall_mem_cons, Nat.ofDigitChars_cons]
      by_cases digit : c.isDigit = true
      · rw [if_pos digit, ih]
        simp [digit]
      · simp [digit]

theorem digits?_eq_some_iff {value : Nat} {s : Text} :
    digits? s = some value ↔
      s ≠ [] ∧ (∀ c ∈ s, c.isDigit = true) ∧ Nat.ofDigitChars 10 s 0 = value := by
  cases s with
  | nil => simp [digits?]
  | cons c s => simp [digits?, digitsFrom_eq_some_iff]

/-! ## Numbers -/

/-- One plus sign is dropped, if there is one. -/
theorem eq_dropPlus_or (s : Text) : s = dropPlus s ∨ s = '+' :: dropPlus s := by
  unfold dropPlus
  split
  · exact Or.inr rfl
  · exact Or.inl rfl

theorem dropPlus_of_not_mem {s : Text} (absent : '+' ∉ s) : dropPlus s = s := by
  rcases eq_dropPlus_or s with same | sign
  · exact same.symm
  · rw [sign] at absent
    exact absurd List.mem_cons_self absent

theorem digits?_dropPlus_eq_some_iff {value : Nat} {s : Text} :
    digits? (dropPlus s) = some value ↔ WritesNat s value := by
  rw [digits?_eq_some_iff]
  constructor
  · rintro ⟨nonempty, all, rfl⟩
    rcases eq_dropPlus_or s with same | sign
    · rw [← same] at nonempty all ⊢
      exact WritesNat.bare nonempty all
    · have written := WritesNat.signed nonempty all
      rwa [← sign] at written
  · rintro (⟨nonempty, all⟩ | ⟨nonempty, all⟩)
    · have noPlus : '+' ∉ s := fun member => absurd (all '+' member) (by decide)
      rw [dropPlus_of_not_mem noPlus]
      exact ⟨nonempty, all, rfl⟩
    · exact ⟨nonempty, all, rfl⟩

/-- **The reader takes exactly the texts that write a number below its bound.** -/
theorem boundedNat?_eq_some_iff {bound value : Nat} {s : Text} :
    boundedNat? bound s = some value ↔ WritesNat s value ∧ value < bound := by
  rw [boundedNat?, Option.bind_eq_some_iff]
  simp only [digits?_dropPlus_eq_some_iff, Option.ite_none_right_eq_some, Option.some.injEq]
  constructor
  · rintro ⟨_, written, small, rfl⟩
    exact ⟨written, small⟩
  · rintro ⟨written, small⟩
    exact ⟨value, written, small, rfl⟩

/-- The characters of a number are digits, and a plus sign. -/
theorem WritesNat.isDigit_or_plus {value : Nat} {s : Text} (written : WritesNat s value) :
    ∀ c ∈ s, c.isDigit = true ∨ c = '+' := by
  rcases written with ⟨-, all⟩ | ⟨-, all⟩
  · exact fun c member => Or.inl (all c member)
  · rintro c (⟨⟩ | ⟨-, member⟩)
    · exact Or.inr rfl
    · exact Or.inl (all c member)

/-- No character of a number is a blank. -/
theorem WritesNat.isBlank {value : Nat} {s : Text} (written : WritesNat s value) :
    ∀ c ∈ s, isBlank c = false := by
  intro c member
  rcases written.isDigit_or_plus c member with digit | rfl
  · exact isBlank_of_isAlphanum (by simp [Char.isAlphanum, digit])
  · rfl

theorem WritesNat.hyphen_not_mem {value : Nat} {s : Text} (written : WritesNat s value) :
    '-' ∉ s := by
  intro member
  rcases written.isDigit_or_plus '-' member with digit | same
  · exact absurd digit (by decide)
  · exact absurd same (by decide)

/-- The decimal form of a number writes it. -/
theorem writesNat_ofNat (number : Nat) : WritesNat (ofNat number) number := by
  have written : WritesNat (ofNat number) (Nat.ofDigitChars 10 (ofNat number) 0) :=
    .bare Nat.toDigits_ne_nil fun _ member =>
      Nat.isDigit_of_mem_toDigits (by decide) (by decide) member
  rwa [ofNat, Nat.ofDigitChars_ten_toDigits] at written

end SlideDeck.Text
